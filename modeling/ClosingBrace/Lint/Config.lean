import ClosingBrace.Brace.Rule
import ClosingBrace.Json.Parser
import ClosingBrace.Tree.Document

/-!
# Configurations

A configuration lists rules by name. The entry of a rule is `false` to leave the rule out, a set of
options, or several sets, one instance of the rule for each. Checking a configuration looks at this
form only; the options are checked when the rules are made, and a rule that does not exist is
refused even when its entry is `false`.

## Main statements

* `instances_off`: a rule that is off makes no instance.
-/

namespace ClosingBrace

/-- What a configuration says about a rule. -/
inductive RuleEntry where
  | off
  | single (options : Json)
  | several (optionSets : List Json)

/-- The rules of a configuration, in order. -/
structure Config where
  rules : List (String × RuleEntry)

/-- Why a tree cannot be linted. -/
inductive LintError where
  | config (e : ConfigError)
  | document (e : DocumentError)
  | tree (e : Tree.Error)

def LintError.message : LintError → String
  | .config e => e.message
  | .document e => e.message
  | .tree e => e.message

namespace Config

def standard : Config := ⟨[(BraceOptions.ruleId, .single (.object []))]⟩

/-- The name of the configuration file of a directory. -/
def fileName : String := "brace-lint.config.json"

/-- The configuration of a single instance of the closing-brace rule. -/
def ofOptions (members : List (String × Json)) : Config :=
  ⟨[(BraceOptions.ruleId, .single (.object members))]⟩

/-! ### Checking -/

def droppedKey : String := "__proto__"

def keptMembers (members : List (String × Json)) : List (String × Json) :=
  members.filter fun member => member.1 != droppedKey

/-- The sets of options of a list, if all of its items are objects. -/
def optionSets? : List Json → Option (List Json)
  | [] => some []
  | .object members :: rest => (optionSets? rest).map (.object (keptMembers members) :: ·)
  | _ :: _ => none

/-- An entry, if it has one of the three forms. -/
def entry? : Json → Option RuleEntry
  | .bool false => some .off
  | .object members => some (.single (.object (keptMembers members)))
  | .array items => (optionSets? items).map .several
  | _ => none

/-- The entries of a configuration, each of them checked. -/
def checkEntries (path : List PathStep) :
    List (String × Json) → Checked (List (String × RuleEntry))
  | [] => .ok []
  | (id, json) :: rest =>
    let first : Checked RuleEntry :=
      match entry? json with
      | some entry => .ok entry
      | none => Checked.fault (path ++ [.key id]) .noForm
    (Checked.both first (checkEntries path rest)).map fun (entry, others) =>
      if id = droppedKey then others else (id, entry) :: others

def checkRules (path : List PathStep) : Option Json → Checked (List (String × RuleEntry))
  | none => Checked.fault path .missing
  | some (.object members) => checkEntries path members
  | some json => Checked.fault path (.wrongShape .object json.shape)

def check : Option Json → Checked Config
  | none => Checked.fault [] .missing
  | some (.object members) =>
    Checked.also ((checkRules [.key "rules"] (Json.lookup "rules" members)).map Config.mk)
      (BraceOptions.strayKeys ["rules"] members)
  | some json => Checked.fault [] (.wrongShape .object json.shape)

/-- The name of a configuration that comes from no file. -/
def unnamed : String := "config"

/-- The configuration that a value gives, rejected under the name of its source. -/
def parse (data : Option Json) (source : String) : Except ConfigError Config :=
  match check data with
  | .ok config => .ok config
  | .error found => .error ⟨source, .issues found⟩

/-- The configuration that is given as a text. Of a text that is not JSON, `complaint` says what is
wrong with it. -/
def parseText (complaint : String → String) (text : String) (source : String) :
    Except ConfigError Config :=
  match Json.parse? text with
  | some json => parse (some json) source
  | none => .error ⟨source, .unreadable (complaint text)⟩

/-! ### Unchecked configurations -/

/-- An entry as it is, of whatever form. -/
def uncheckedEntry : Json → RuleEntry
  | .bool false => .off
  | .array items => .several items
  | json => .single json

/-- The configuration that a value gives without any check. -/
def ofUnchecked (json : Json) : Config :=
  match json.get? "rules" with
  | some (.object members) => ⟨members.map fun (id, entry) => (id, uncheckedEntry entry)⟩
  | some (.array items) =>
    ⟨items.zipIdx.map fun (entry, index) => (toString index, uncheckedEntry entry)⟩
  | _ => ⟨[]⟩

def entryJson : RuleEntry → Json
  | .off => .bool false
  | .single options => options
  | .several optionSets => .array optionSets

def toJson (config : Config) : Json :=
  .object [("rules", .object (config.rules.map fun (id, entry) => (id, entryJson entry)))]

/-! ### Making rules -/

/-- The rules that exist, and how each is made from a set of options. -/
def makers : List (String × (Json → Except ConfigError Rule)) :=
  [(BraceOptions.ruleId, fun options => return (← BraceOptions.resolve (some options)).rule)]

def knownRules : List String := makers.map Prod.fst

def optionSetsOf : RuleEntry → List Json
  | .off => []
  | .single options => [options]
  | .several optionSets => optionSets

def instances (id : String) (entry : RuleEntry) : Except ConfigError (List Rule) :=
  match makers.find? fun maker => maker.1 == id with
  | some (_, make) => (optionSetsOf entry).mapM make
  | none => .error ⟨id, .unknownRule knownRules⟩

/-- All rules of a configuration, in order. -/
def createRules (config : Config) : Except ConfigError (List Rule) := do
  return (← config.rules.mapM fun (id, entry) => instances id entry).flatten

/-! ### Linting -/

def lint (t : Tree) (config : Config) : Except LintError (List Diagnostic) := do
  let rules ← config.createRules.mapError .config
  (Rule.run t rules).mapError .tree

theorem instances_off {id : String} (h : id ∈ knownRules) : instances id .off = .ok [] := by
  obtain rfl : id = BraceOptions.ruleId := by simpa [knownRules, makers] using h
  simp [instances, makers, optionSetsOf, pure, Except.pure]

end Config

/-- The result of linting a document. -/
structure FileResult where
  file : String
  source : String
  diagnostics : List Diagnostic

/-- The result for a document that is given as a text. -/
def lintText (complaint : String → String) (text name : String) (rules : List Rule) :
    Except LintError FileResult := do
  let loaded ← (Document.parse complaint text name).mapError .document
  let diagnostics ← (Rule.run loaded.tree rules).mapError .tree
  return ⟨loaded.file, loaded.source, diagnostics⟩

end ClosingBrace
