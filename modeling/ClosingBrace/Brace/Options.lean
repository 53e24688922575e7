import ClosingBrace.Brace.Construct
import ClosingBrace.Brace.Policy
import ClosingBrace.Lint.ConfigError
import ClosingBrace.Lint.Diagnostic
import ClosingBrace.Text.Parts

/-!
# Options of the closing-brace rule

The options name a policy, the kinds of constructs to check and a severity; each may be left out.
Kinds are listed as an array of names or as one text with commas between the names. Blanks around
names do not matter, empty names are dropped, and a kind named twice counts once, where it was named
first. Any other key is an issue.

## Main statements

* `resolve_none`: without input every option has its default.
* `resolve_null`: `null` is as good as no input.
-/

namespace ClosingBrace

/-- What the closing-brace rule is to check. -/
structure BraceOptions where
  policy : Policy
  kinds : List Kind
  severity : Severity
deriving DecidableEq

namespace BraceOptions

/-- The name of the rule, under which its options are rejected. -/
def ruleId : String := "right-curly"

/-! ### Checking the parts -/

/-- The policy; it may be left out. -/
def checkPolicy (path : List PathStep) : Option Json → Checked (Option Policy)
  | none => .ok none
  | some (.string s) =>
    match Policy.read? s with
    | some policy => .ok (some policy)
    | none => Checked.fault path (.unknownPolicy s (Policy.all.map Policy.name))
  | some json => Checked.fault path (.wrongShape .string json.shape)

/-- The names in a list of kinds, without blanks around them and without empty ones. -/
def tokenNames (listed : List String) : List String :=
  (listed.map Text.trim).filter fun name => !name.isEmpty

def construct? (name : String) : Option Kind :=
  match Kind.ofName? name with
  | some kind => if kind.isConstruct then some kind else none
  | none => none

def constructNames : List String := Kind.constructs.map Kind.name

/-- The constructs of the names, or an issue for every name that is none. -/
def checkNames (path : List PathStep) (names : List String) : Checked (List Kind) :=
  if names.isEmpty then Checked.fault path .noTokens
  else
    match names.filter fun name => (construct? name).isNone with
    | [] => .ok (names.filterMap construct?)
    | unacceptable =>
      .error (unacceptable.map fun name => ⟨path, .unacceptableToken name constructNames⟩)

/-- The strings of a list of values, if all of them are strings. -/
def strings? : List Json → Option (List String)
  | [] => some []
  | .string s :: rest => (strings? rest).map (s :: ·)
  | _ :: _ => none

/-- The names listed by a value, if it has one of the two forms. -/
def listedNames? : Json → Option (List String)
  | .string s => some (Text.parts ',' s)
  | .array items => strings? items
  | _ => none

/-- The kinds to check; they may be left out. -/
def checkKinds (path : List PathStep) : Option Json → Checked (Option (List Kind))
  | none => .ok none
  | some json =>
    match listedNames? json with
    | some listed => (checkNames path (tokenNames listed)).map some
    | none => Checked.fault path .noForm

/-- The words for the severities that a rule may have. -/
def severityWords : List String := ["error", "warning"]

/-- The severity; it may be left out. -/
def checkSeverity (path : List PathStep) : Option Json → Checked (Option Severity)
  | none => .ok none
  | some (.string s) =>
    if severityWords.contains s then .ok (some (Severity.ofLabel s))
    else Checked.fault path (.otherWord severityWords s)
  | some json => Checked.fault path (.notWord severityWords json.shape)

def knownKeys : List String := ["option", "tokens", "severity"]

def strayKeys (known : List String) (members : List (String × Json)) : List Issue :=
  match (members.map Prod.fst).filter fun key => !known.contains key with
  | [] => []
  | keys => [⟨[], .unknownKeys keys⟩]

def withDefaults (policy : Option Policy) (kinds : Option (List Kind))
    (severity : Option Severity) : BraceOptions :=
  ⟨policy.getD .same, (kinds.getD Kind.defaultConstructs).eraseDups, severity.getD .error⟩

def checkMembers (members : List (String × Json)) : Checked BraceOptions :=
  let parts :=
    Checked.both (checkPolicy [.key "option"] (Json.lookup "option" members))
      (Checked.both (checkKinds [.key "tokens"] (Json.lookup "tokens" members))
        (checkSeverity [.key "severity"] (Json.lookup "severity" members)))
  Checked.also (parts.map fun (policy, kinds, severity) => withDefaults policy kinds severity)
    (strayKeys knownKeys members)

/-- Options given by a value; none at all, or `null`, leaves out everything. -/
def check : Option Json → Checked BraceOptions
  | none => checkMembers []
  | some .null => checkMembers []
  | some (.object members) => checkMembers members
  | some json => Checked.fault [] (.wrongShape .object json.shape)

def resolve (input : Option Json) : Except ConfigError BraceOptions :=
  match check input with
  | .ok options => .ok options
  | .error found => .error ⟨ruleId, .issues found⟩

/-! ### Laws -/

theorem resolve_none :
    resolve none = .ok ⟨.same, Kind.defaultConstructs, .error⟩ := rfl

theorem resolve_null : resolve (some .null) = resolve none := rfl

end BraceOptions
end ClosingBrace
