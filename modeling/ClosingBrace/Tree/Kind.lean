/-!
# Kinds of nodes

The vocabulary of the syntax trees: every node is a construct or a token of one of sixty kinds.
`name` is the spelling of a kind in documents and messages.

## Main statements

* `mem_all`: the list of kinds is complete.
* `ofName?_name`: a kind is found by its name.
-/

namespace ClosingBrace

/-- The kind of a node. -/
inductive Kind where
  | compilationUnit | packageDef | importDecl | classDef | interfaceDef | enumDef | annotationDef
  | typeBody | leftCurly | rightCurly | modifiers | annotationMark | typeName | typeParameters
  | extendsClause | implementsClause | classKeyword | interfaceKeyword | staticKeyword
  | voidKeyword | intKeyword | methodDef | constructorDef | parameters | parameterDef
  | throwsClause | staticInit | instanceInit | variableDef | statementList | emptyStatement
  | tryStatement | resourceSpecification | catchClause | finallyClause | ifStatement | elseBranch
  | forStatement | forInit | forCondition | forIterator | whileStatement | doStatement
  | doCondition | returnStatement | throwStatement | breakStatement | newExpression | expression
  | expressionList | methodCall | assign | dot | identifier | integerNumber | stringLiteral
  | leftParen | rightParen | comma | semicolon
deriving DecidableEq, Repr, Inhabited

namespace Kind

def name : Kind → String
  | .compilationUnit => "COMPILATION_UNIT"
  | .packageDef => "PACKAGE_DEF"
  | .importDecl => "IMPORT"
  | .classDef => "CLASS_DEF"
  | .interfaceDef => "INTERFACE_DEF"
  | .enumDef => "ENUM_DEF"
  | .annotationDef => "ANNOTATION_DEF"
  | .typeBody => "OBJBLOCK"
  | .leftCurly => "LCURLY"
  | .rightCurly => "RCURLY"
  | .modifiers => "MODIFIERS"
  | .annotationMark => "ANNOTATION"
  | .typeName => "TYPE"
  | .typeParameters => "TYPE_PARAMETERS"
  | .extendsClause => "EXTENDS_CLAUSE"
  | .implementsClause => "IMPLEMENTS_CLAUSE"
  | .classKeyword => "LITERAL_CLASS"
  | .interfaceKeyword => "LITERAL_INTERFACE"
  | .staticKeyword => "LITERAL_STATIC"
  | .voidKeyword => "LITERAL_VOID"
  | .intKeyword => "LITERAL_INT"
  | .methodDef => "METHOD_DEF"
  | .constructorDef => "CTOR_DEF"
  | .parameters => "PARAMETERS"
  | .parameterDef => "PARAMETER_DEF"
  | .throwsClause => "LITERAL_THROWS"
  | .staticInit => "STATIC_INIT"
  | .instanceInit => "INSTANCE_INIT"
  | .variableDef => "VARIABLE_DEF"
  | .statementList => "SLIST"
  | .emptyStatement => "EMPTY_STAT"
  | .tryStatement => "LITERAL_TRY"
  | .resourceSpecification => "RESOURCE_SPECIFICATION"
  | .catchClause => "LITERAL_CATCH"
  | .finallyClause => "LITERAL_FINALLY"
  | .ifStatement => "LITERAL_IF"
  | .elseBranch => "LITERAL_ELSE"
  | .forStatement => "LITERAL_FOR"
  | .forInit => "FOR_INIT"
  | .forCondition => "FOR_CONDITION"
  | .forIterator => "FOR_ITERATOR"
  | .whileStatement => "LITERAL_WHILE"
  | .doStatement => "LITERAL_DO"
  | .doCondition => "DO_WHILE"
  | .returnStatement => "LITERAL_RETURN"
  | .throwStatement => "LITERAL_THROW"
  | .breakStatement => "LITERAL_BREAK"
  | .newExpression => "LITERAL_NEW"
  | .expression => "EXPR"
  | .expressionList => "ELIST"
  | .methodCall => "METHOD_CALL"
  | .assign => "ASSIGN"
  | .dot => "DOT"
  | .identifier => "IDENT"
  | .integerNumber => "NUM_INT"
  | .stringLiteral => "STRING_LITERAL"
  | .leftParen => "LPAREN"
  | .rightParen => "RPAREN"
  | .comma => "COMMA"
  | .semicolon => "SEMI"

/-- Every kind, in the order in which messages list them. -/
def all : List Kind := [
  .compilationUnit, .packageDef, .importDecl, .classDef, .interfaceDef, .enumDef, .annotationDef,
  .typeBody, .leftCurly, .rightCurly, .modifiers, .annotationMark, .typeName, .typeParameters,
  .extendsClause, .implementsClause, .classKeyword, .interfaceKeyword, .staticKeyword,
  .voidKeyword, .intKeyword, .methodDef, .constructorDef, .parameters, .parameterDef,
  .throwsClause, .staticInit, .instanceInit, .variableDef, .statementList, .emptyStatement,
  .tryStatement, .resourceSpecification, .catchClause, .finallyClause, .ifStatement, .elseBranch,
  .forStatement, .forInit, .forCondition, .forIterator, .whileStatement, .doStatement,
  .doCondition, .returnStatement, .throwStatement, .breakStatement, .newExpression, .expression,
  .expressionList, .methodCall, .assign, .dot, .identifier, .integerNumber, .stringLiteral,
  .leftParen, .rightParen, .comma, .semicolon]

def ofName? (spelling : String) : Option Kind := all.find? fun kind => kind.name == spelling

/-! ### Laws -/

theorem mem_all (kind : Kind) : kind ∈ all := by cases kind <;> decide

theorem ofName?_name_of_mem : ∀ kind ∈ all, ofName? kind.name = some kind := by decide +kernel

theorem ofName?_name (kind : Kind) : ofName? kind.name = some kind :=
  ofName?_name_of_mem kind (mem_all kind)

theorem name_injective {a b : Kind} (h : a.name = b.name) : a = b := by
  have hb := ofName?_name b
  rw [← h, ofName?_name a] at hb
  exact Option.some.inj hb

end Kind
end ClosingBrace
