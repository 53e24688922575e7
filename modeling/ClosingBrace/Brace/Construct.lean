import ClosingBrace.Tree.Kind

/-!
# Constructs

The constructs whose closing brace can be checked, and the categories into which the shape of their
subtree divides them.

## Main statements

* `isConstruct_iff`: a kind is a construct exactly when it has a category.
-/

namespace ClosingBrace

/-- What constructs of the same shape have in common. -/
inductive Category where
  /-- A part of a try statement, with its clauses as children or siblings. -/
  | tryPart
  /-- A branch of an if statement. -/
  | branch
  | loop
  /-- A type whose last child holds both braces. -/
  | typeBody
  /-- A member with a list of statements. -/
  | codeBlock
deriving DecidableEq, Repr

def Category.name : Category → String
  | .tryPart => "try-catch-finally"
  | .branch => "if-else"
  | .loop => "loop"
  | .typeBody => "type-body"
  | .codeBlock => "code-block"

namespace Kind

/-- The category of a construct; absent for all other kinds. -/
def category? : Kind → Option Category
  | .tryStatement | .catchClause | .finallyClause => some .tryPart
  | .ifStatement | .elseBranch => some .branch
  | .doStatement | .whileStatement | .forStatement => some .loop
  | .classDef | .annotationDef => some .typeBody
  | .methodDef | .constructorDef | .staticInit | .instanceInit => some .codeBlock
  | _ => none

/-- The kinds that can be checked, in the order in which messages list them. -/
def constructs : List Kind :=
  [.tryStatement, .catchClause, .finallyClause, .ifStatement, .elseBranch, .classDef, .methodDef,
   .constructorDef, .forStatement, .whileStatement, .doStatement, .staticInit, .instanceInit,
   .annotationDef]

/-- The kinds that are checked unless others are asked for. -/
def defaultConstructs : List Kind :=
  [.tryStatement, .catchClause, .finallyClause, .ifStatement, .elseBranch]

def isConstruct (kind : Kind) : Bool := constructs.contains kind

/-! ### Laws -/

theorem isConstruct_iff (kind : Kind) : kind.isConstruct = true ↔ kind.category?.isSome = true := by
  cases kind <;> decide

end Kind
end ClosingBrace
