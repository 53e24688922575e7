import ClosingBrace.Brace.Construct
import ClosingBrace.Tree.Navigation

/-!
# The braces of a construct

The context of a construct names the landmarks that decide whether its closing brace is well placed:
the opening brace, the closing brace, the token that comes next, and whether the closing brace ends
the construct or a further part of the same statement has to follow. Each category of construct has
its own shape, and any landmark may be absent.

The opening brace of a list of statements is the list itself, and its closing brace is the last
child of the list. The two braces of a type body are its first and last child.

## Main statements

* `braced?_eq_some_iff`: which contexts have both braces.
* `ofLoop_of_not_do`: a loop with its condition in front has the shape of a member with a block.
-/

namespace ClosingBrace

/-- The landmarks of a construct. -/
structure Context where
  left : Option Handle
  right : Option Handle
  next : Option Handle
  /-- False when another part of the same statement has to follow the closing brace. -/
  ends : Bool
deriving DecidableEq

/-- The landmarks of a construct that has both braces. -/
structure BracedContext where
  left : Handle
  right : Handle
  next : Option Handle
  ends : Bool

namespace Context

/-- The context, if it has both braces. -/
def braced? (c : Context) : Option BracedContext :=
  match c.left, c.right with
  | some left, some right => some ⟨left, right, c.next, c.ends⟩
  | _, _ => none

/-! ### The shapes -/

/-- A part that is followed by `continuation` if there is one, and else by whatever comes after the
construct. -/
def continuedBy (t : Tree) (construct : Handle) (left right continuation : Option Handle) :
    Except Tree.Error Context :=
  match continuation with
  | some next => return ⟨left, right, some next, false⟩
  | none => return ⟨left, right, ← t.nextTokenAfter (some construct), true⟩

/-- The block of a try statement: its first child, or the one after the resources. -/
def tryBlock (t : Tree) (construct : Handle) : Except Tree.Error (Option Handle) := do
  let head ← t.firstChild construct
  match head with
  | some resources =>
    if (← t.kind resources) = .resourceSpecification then t.nextSibling resources
    else return some resources
  | none => return none

/-- A try statement holds its block and its clauses as children; a clause has its block as last
child and the next clause as sibling. -/
def ofTryPart (t : Tree) (construct : Handle) : Except Tree.Error Context := do
  if (← t.kind construct) = .tryStatement then
    let left ← tryBlock t construct
    let continuation ← match left with
      | some block => t.nextSibling block
      | none => pure none
    continuedBy t construct left (← t.lastChild? left) continuation
  else
    let left ← t.lastChild construct
    let continuation ← t.nextSibling construct
    continuedBy t construct left (← t.lastChild? left) continuation

/-- A branch has its body just before its else branch, or last. A body that is no list of statements
is a single statement without braces. -/
def ofBranch (t : Tree) (construct : Handle) : Except Tree.Error Context := do
  let elseBranch ← t.findFirstChild construct .elseBranch
  let left ← match elseBranch with
    | some e => t.previousSibling e
    | none => t.lastChild construct
  let right ← if ← t.isKind left .statementList then t.lastChild? left else pure none
  continuedBy t construct left right elseBranch

/-- A loop holds its list of statements among its children. After the block of a do loop comes its
condition. -/
def ofLoop (t : Tree) (construct : Handle) : Except Tree.Error Context := do
  let left ← t.findFirstChild construct .statementList
  let right ← t.lastChild? left
  if (← t.kind construct) = .doStatement then
    return ⟨left, right, ← t.findFirstChild construct .doCondition, false⟩
  else
    return ⟨left, right, ← t.nextTokenAfter (some construct), true⟩

/-- The body of a type is its last child, with the braces first and last in it. -/
def ofTypeBody (t : Tree) (construct : Handle) : Except Tree.Error Context := do
  let body ← t.lastChild construct
  let left ← match body with
    | some b => t.firstChild b
    | none => pure none
  return ⟨left, ← t.lastChild? body, ← t.nextTokenAfter (some construct), true⟩

/-- A member holds its list of statements among its children; one without a body has none. -/
def ofCodeBlock (t : Tree) (construct : Handle) : Except Tree.Error Context := do
  let left ← t.findFirstChild construct .statementList
  return ⟨left, ← t.lastChild? left, ← t.nextTokenAfter (some construct), true⟩

/-- The context of a node, taken as a construct of the category. -/
def extract (t : Tree) (construct : Handle) : Category → Except Tree.Error Context
  | .tryPart => ofTryPart t construct
  | .branch => ofBranch t construct
  | .loop => ofLoop t construct
  | .typeBody => ofTypeBody t construct
  | .codeBlock => ofCodeBlock t construct

/-! ### Laws -/

theorem braced?_eq_some_iff {c : Context} {b : BracedContext} :
    c.braced? = some b ↔
      c.left = some b.left ∧ c.right = some b.right ∧ c.next = b.next ∧ c.ends = b.ends := by
  obtain ⟨left, right, next, ends⟩ := c
  obtain ⟨bleft, bright, bnext, bends⟩ := b
  cases left <;> cases right <;> simp [braced?]

/-- A loop that is not a do loop has the shape of a member with a block. -/
theorem ofLoop_of_not_do {t : Tree} {construct : Handle} {kind : Kind}
    (h : t.kind construct = .ok kind) (hk : kind ≠ .doStatement) :
    ofLoop t construct = ofCodeBlock t construct := by
  unfold ofLoop ofCodeBlock
  simp only [h, bind, Except.bind, hk, if_false]

end Context
end ClosingBrace
