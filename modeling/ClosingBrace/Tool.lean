import ClosingBrace.Lint.Config
import ClosingBrace.Report.Summary

/-!
# The checking tool

The closing-brace check as a tool that another program calls with a value for its arguments: the
syntax tree, as an object or as text, and optionally a policy and the kinds to check. The answer is
the summary of the file as text. The options are checked before the tree is read.

## Main statements

* `checkArguments_none`: a call without arguments is refused.
-/

namespace ClosingBrace.Tool

/-- A syntax tree as an argument. -/
inductive TreeArgument where
  | text (json : String)
  | value (json : Json)

/-- The arguments of a call. -/
structure Arguments where
  tree : TreeArgument
  /-- The policy, as given. -/
  option : Option Json
  /-- The kinds to check, as given. -/
  tokens : Option Json

/-- Why a call is refused. -/
inductive Error where
  | arguments (found : List Issue)
  | lint (e : LintError)

def Error.message : Error → String
  | .arguments found => "Invalid arguments: " ++ Issue.texts found
  | .lint e => e.message

/-! ### Arguments -/

/-- The tree; it has one of two forms. -/
def checkTree (path : List PathStep) : Option Json → Checked TreeArgument
  | some (.string s) => .ok (.text s)
  | some (.object members) => .ok (.value (.object (Config.keptMembers members)))
  | _ => Checked.fault path .noForm

/-- The policy, which has to be a string if it is given. -/
def checkOption (path : List PathStep) (given : Option Json) : Checked (Option Json) :=
  (Document.checkString? path given).map fun s => s.map .string

/-- The kinds to check, which have one of two forms if they are given. -/
def checkTokens (path : List PathStep) : Option Json → Checked (Option Json)
  | none => .ok none
  | some json =>
    if (BraceOptions.listedNames? json).isSome then .ok (some json)
    else Checked.fault path .noForm

/-- All arguments; keys that mean nothing are ignored. -/
def checkArguments : Option Json → Checked Arguments
  | none => Checked.fault [] .missing
  | some (.object members) =>
    (Checked.both (checkTree [.key "tree"] (Json.lookup "tree" members))
      (Checked.both (checkOption [.key "option"] (Json.lookup "option" members))
        (checkTokens [.key "tokens"] (Json.lookup "tokens" members)))).map
      fun (tree, option, tokens) => ⟨tree, option, tokens⟩
  | some json => Checked.fault [] (.wrongShape .object json.shape)

/-! ### The check -/

def Arguments.options (a : Arguments) : Json :=
  .object (Diagnostic.member? "option" a.option ++ Diagnostic.member? "tokens" a.tokens)

def Arguments.load (a : Arguments) (complaint : String → String) :
    Except DocumentError LoadedTree :=
  match a.tree with
  | .text s => Document.parse complaint s Document.unnamed
  | .value json => Document.load (some json) Document.unnamed

def answer (file : String) (ds : List Diagnostic) : Json :=
  .object (Summary.counts file ds ++ [("errors", Summary.list ds)])

/-- The check of a file that the arguments ask for: its name and its diagnostics. -/
def Arguments.check (a : Arguments) (complaint : String → String) :
    Except LintError (String × List Diagnostic) := do
  let options ← (BraceOptions.resolve (some a.options)).mapError .config
  let loaded ← (a.load complaint).mapError .document
  let diagnostics ← (Rule.run loaded.tree [options.rule]).mapError .tree
  return (loaded.file, diagnostics)

/-- The answer to a call. Of a tree that is given as a text and is not JSON, `complaint` says what is
wrong with it. -/
def call (complaint : String → String) (given : Option Json) : Except Error String := do
  let a ← (checkArguments given).mapError .arguments
  let (file, diagnostics) ← (a.check complaint).mapError .lint
  return (answer file diagnostics).pretty

/-- An answer in the form in which tools give their results. -/
def result (answer : String) : Json :=
  .object [("content", .array [.object [("type", .string "text"), ("text", .string answer)]])]

/-! ### Description -/

def described (description : String) : List (String × Json) :=
  [("description", .string description)]

def description : Json :=
  .object [
    ("name", .string "check_right_curly"),
    ("description", .string (
      "Check closing-brace placement in a Java syntax tree. Pass the tree exported by the " ++
      "parser front end (\x7b source, root \x7d) and optionally a brace policy and the construct kinds " ++
      "to check. Returns the diagnostics with line, 1-based column, message key and hint.")),
    ("inputSchema", .object [
      ("type", .string "object"),
      ("properties", .object [
        ("tree", .object (described (
          "Syntax tree: \x7b \"source\": string, \"root\": \x7b kind, line, column, " ++
          "children \x7d \x7d or the same as a JSON string"))),
        ("option", .object (("type", .string "string") ::
          described "same | alone | alone_or_empty | alone_or_singleline (default: same)")),
        ("tokens", .object (described (
          "Construct kinds, e.g. [\"LITERAL_IF\", \"LITERAL_ELSE\"] or " ++
          "\"CLASS_DEF,METHOD_DEF\"")))]),
      ("required", .array [.string "tree"])])]

theorem checkArguments_none : checkArguments none = .error [⟨[], .missing⟩] := rfl

end ClosingBrace.Tool
