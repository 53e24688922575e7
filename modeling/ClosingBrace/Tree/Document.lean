import ClosingBrace.Json.Parser
import ClosingBrace.Schema.Issue
import ClosingBrace.Tree.Outline

/-!
# Documents

The interchange format of syntax trees: an object with the source text, the root node and, if it is
known, the name of the file. A node is an object with its kind, its line, its column and, unless it
is a leaf, its children. Keys that mean nothing here are ignored. A document that does not have this
form is refused with all its issues at once, in the order of the format and a node before its
children.

## Main statements

* `load_eq_ok_iff`: a document is loaded exactly when its check finds no issue.
* `parse_of_not_json`: a text that is no JSON is refused with what is said of it.
-/

namespace ClosingBrace

/-- A checked document. -/
structure Document where
  file : Option String
  source : String
  root : Outline

/-- A document as a tree, under the name by which reports call it. -/
structure LoadedTree where
  file : String
  source : String
  tree : Tree

/-- Why a document is refused. -/
inductive DocumentFault where
  | notJson (reason : String)
  | issues (found : List Issue)

/-- A refused document, under the name it was read by. -/
structure DocumentError where
  file : String
  fault : DocumentFault

def DocumentError.message (e : DocumentError) : String :=
  "Invalid syntax tree in " ++ e.file ++ ": " ++
    match e.fault with
    | .notJson reason => "not valid JSON (" ++ reason ++ ")"
    | .issues found => Issue.texts found

namespace Document

def unnamed : String := "<input>"

/-! ### Checking the parts -/

def checkString (path : List PathStep) : Option Json → Checked String
  | none => Checked.fault path .missing
  | some (.string s) => .ok s
  | some json => Checked.fault path (.wrongShape .string json.shape)

def checkString? (path : List PathStep) : Option Json → Checked (Option String)
  | none => .ok none
  | some json => (checkString path (some json)).map some

def kindNames : List String := Kind.all.map Kind.name

def checkKind (path : List PathStep) : Option Json → Checked Kind
  | none => Checked.fault path .missing
  | some (.string s) =>
    match Kind.ofName? s with
    | some kind => .ok kind
    | none => Checked.fault path (.otherWord kindNames s)
  | some json => Checked.fault path (.notWord kindNames json.shape)

/-- A part that has to be a whole number within a bound. -/
def checkWhole (path : List PathStep) (inBound : Number → Bool) (outside : Fault) :
    Option Json → Checked Number
  | none => Checked.fault path .missing
  | some (.number n) =>
    let found := (if n.isWhole then [] else [Fault.notWhole]) ++
      (if inBound n then [] else [outside])
    if found.isEmpty then .ok n else .error (found.map fun f => ⟨path, f⟩)
  | some json => Checked.fault path (.wrongShape .number json.shape)

/-- A line: a whole number from 1. -/
def checkLine (path : List PathStep) : Option Json → Checked Number :=
  checkWhole path (fun n => decide (0 < n)) .notPositive

/-- A column: a whole number from 0. -/
def checkColumn (path : List PathStep) : Option Json → Checked Number :=
  checkWhole path (fun n => decide (0 ≤ n)) .belowZero

def assemble (path : List PathStep) (members : List (String × Json))
    (children : Checked (List Outline)) : Checked Outline :=
  (Checked.both (checkKind (path ++ [.key "kind"]) (Json.lookup "kind" members))
    (Checked.both (checkLine (path ++ [.key "line"]) (Json.lookup "line" members))
      (Checked.both (checkColumn (path ++ [.key "column"]) (Json.lookup "column" members))
        children))).map fun (kind, line, column, children) => .node kind line column children

mutual

def checkNode (path : List PathStep) : Json → Checked Outline
  | .object members =>
    assemble path members (checkChildrenOf (path ++ [.key "children"]) members)
  | json => Checked.fault path (.wrongShape .object json.shape)

/-- The children among the members of a node; it may have none. -/
def checkChildrenOf (path : List PathStep) : List (String × Json) → Checked (List Outline)
  | [] => .ok []
  | (key, value) :: rest =>
    if key = "children" then checkChildren path value else checkChildrenOf path rest

def checkChildren (path : List PathStep) : Json → Checked (List Outline)
  | .array items => checkNodes path 0 items
  | json => Checked.fault path (.wrongShape .array json.shape)

/-- The nodes of a list, the first of them at the place `index`. -/
def checkNodes (path : List PathStep) (index : Nat) : List Json → Checked (List Outline)
  | [] => .ok []
  | item :: rest =>
    (Checked.both (checkNode (path ++ [.index index]) item)
      (checkNodes path (index + 1) rest)).map fun (first, others) => first :: others

end

def checkRoot (path : List PathStep) : Option Json → Checked Outline
  | none => Checked.fault path .missing
  | some json => checkNode path json

def check : Option Json → Checked Document
  | none => Checked.fault [] .missing
  | some (.object members) =>
    (Checked.both (checkString? [.key "file"] (Json.lookup "file" members))
      (Checked.both (checkString [.key "source"] (Json.lookup "source" members))
        (checkRoot [.key "root"] (Json.lookup "root" members)))).map
      fun (file, source, root) => ⟨file, source, root⟩
  | some json => Checked.fault [] (.wrongShape .object json.shape)

/-! ### Loading -/

/-- The tree of a document, which goes by its own name or else by `name`. -/
def toTree (name : String) (d : Document) : LoadedTree :=
  ⟨d.file.getD name, d.source, Tree.ofOutline d.source d.root⟩

def load (data : Option Json) (name : String) : Except DocumentError LoadedTree :=
  match check data with
  | .ok d => .ok (d.toTree name)
  | .error found => .error ⟨name, .issues found⟩

/-- The tree of a document that is given as a text. Of a text that is not JSON, `complaint` says what
is wrong with it. -/
def parse (complaint : String → String) (text : String) (name : String) :
    Except DocumentError LoadedTree :=
  match Json.parse? text with
  | some json => load (some json) name
  | none => .error ⟨name, .notJson (complaint text)⟩

/-- A node of the format with the given parts; children are written only if there are any. -/
def writeNode (kind line column : Json) (children : List Json) : Json :=
  .object ([("kind", kind), ("line", line), ("column", column)] ++
    if children.isEmpty then [] else [("children", .array children)])

/-! ### Laws -/

theorem load_eq_ok_iff {data : Option Json} {name : String} {loaded : LoadedTree} :
    load data name = .ok loaded ↔ ∃ d, check data = .ok d ∧ loaded = d.toTree name := by
  unfold load
  cases check data <;> simp [eq_comm]

theorem parse_of_not_json {text : String} (h : Json.parse? text = none)
    (complaint : String → String) (name : String) :
    parse complaint text name = .error ⟨name, .notJson (complaint text)⟩ := by
  simp [parse, h]

end Document
end ClosingBrace
