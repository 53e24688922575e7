import ClosingBrace.Text.Blank
import ClosingBrace.Text.LetterCase
import ClosingBrace.Text.Parts

/-!
# Command-line arguments

An argument is a switch, a flag that takes the next argument as its value, or a target. A lone dash
is a target, the standard input; every other argument that starts with a dash has to be a flag, and
no such argument can be a value. Lists of patterns add up, all other flags count as last given. The
first argument that fits nowhere is refused.

## Main statements

* `readFrom_target`, `readFrom_switch`, `readFrom_value`: what each kind of argument does.
-/

namespace ClosingBrace.Command

/-- The form of the output. -/
inductive Format where
  | text
  | json
deriving DecidableEq

def Format.word : Format → String
  | .text => "text"
  | .json => "json"

/-- What the arguments ask for. -/
structure Arguments where
  help : Bool := false
  targets : List String := []
  format : Format := .text
  /-- The policy, as given. -/
  option : Option String := none
  /-- The kinds to check, as given. -/
  tokens : Option String := none
  config : Option String := none
  includes : List String := []
  excludes : List String := []
  useGitignore : Bool := true
  color : Bool := true
deriving DecidableEq

/-- Why arguments are refused. -/
inductive UsageError where
  | missingValue (flag : String)
  | unknownFormat (given : String)
  | unknownFlag (given : String)
deriving DecidableEq

def UsageError.message : UsageError → String
  | .missingValue flag => "Missing value for " ++ flag
  | .unknownFormat given => "Unknown format \"" ++ given ++ "\", expected text or json"
  | .unknownFlag given => "Unknown flag " ++ given

/-! ### Kinds of arguments -/

/-- A flag without a value. -/
inductive Switch where
  | help
  | gitignore
  | noGitignore
  | noColor
deriving DecidableEq

/-- A flag with a value. -/
inductive ValueFlag where
  | format
  | option
  | tokens
  | config
  | includes
  | excludes
deriving DecidableEq

/-- What an argument is. -/
inductive Role where
  | switch (s : Switch)
  | value (f : ValueFlag)
  | target
  | unknown
deriving DecidableEq

/-- Whether an argument may be a value or a target: it is a lone dash or does not start with
one. -/
def isPlain (argument : String) : Bool :=
  argument == "-" || argument.toList.head? != some '-'

def switches : List (String × Switch) :=
  [("-h", .help), ("--help", .help), ("--no-gitignore", .noGitignore), ("--gitignore", .gitignore),
   ("--no-color", .noColor)]

def valueFlags : List (String × ValueFlag) :=
  [("--format", .format), ("-f", .format), ("--option", .option), ("-o", .option),
   ("--tokens", .tokens), ("-t", .tokens), ("--config", .config), ("-c", .config),
   ("--include", .includes), ("-I", .includes), ("--exclude", .excludes), ("-E", .excludes)]

/-- What an argument is, unless it is a value. -/
def roleOf (argument : String) : Role :=
  match switches.lookup argument with
  | some s => .switch s
  | none =>
    match valueFlags.lookup argument with
    | some f => .value f
    | none => if isPlain argument then .target else .unknown

/-! ### Effects of arguments -/

def patternList (value : String) : List String :=
  ((Text.parts ',' value).map Text.trim).filter fun pattern => !pattern.isEmpty

def Switch.apply (a : Arguments) : Switch → Arguments
  | .help => { a with help := true }
  | .gitignore => { a with useGitignore := true }
  | .noGitignore => { a with useGitignore := false }
  | .noColor => { a with color := false }

/-- The format that a word names, in any letter case. -/
def format? (word : String) : Except UsageError Format :=
  let small := Text.small word
  if small = Format.json.word then .ok .json
  else if small = Format.text.word then .ok .text
  else .error (.unknownFormat small)

def ValueFlag.apply (a : Arguments) (value : String) : ValueFlag → Except UsageError Arguments
  | .format => (format? value).map fun format => { a with format }
  | .option => .ok { a with option := some value }
  | .tokens => .ok { a with tokens := some value }
  | .config => .ok { a with config := some value }
  | .includes => .ok { a with includes := a.includes ++ patternList value }
  | .excludes => .ok { a with excludes := a.excludes ++ patternList value }

/-! ### Reading -/

def readFrom (a : Arguments) : List String → Except UsageError Arguments
  | [] => .ok a
  | argument :: rest =>
    match roleOf argument with
    | .switch s => readFrom (s.apply a) rest
    | .target => readFrom { a with targets := a.targets ++ [argument] } rest
    | .unknown => .error (.unknownFlag argument)
    | .value f =>
      match rest with
      | [] => .error (.missingValue argument)
      | value :: rest =>
        if isPlain value then
          match f.apply a value with
          | .ok a => readFrom a rest
          | .error e => .error e
        else .error (.missingValue argument)

/-- What a list of arguments asks for; an empty one asks for help. -/
def read (arguments : List String) : Except UsageError Arguments :=
  readFrom { help := arguments.isEmpty } arguments

def usage : String := "\n".intercalate [
  "Usage: brace-lint <file.ast.json>",
  "       cat file.ast.json | brace-lint -",
  "       brace-lint <directory>",
  "  - Checks closing-brace placement in syntax trees exported by the parser front end",
  "  - When a directory is given, scans recursively for *.ast.json",
  "Options:",
  "  --option, -o    Brace policy: same|alone|alone_or_empty|alone_or_singleline",
  "  --tokens, -t    Comma-separated construct kinds to check (e.g. LITERAL_IF,LITERAL_ELSE)",
  "  --config, -c    Configuration file (default: ./brace-lint.config.json when present)",
  "  --format, -f    Output format: text|json (default: text)",
  "  --include, -I   Glob(s) to include (repeatable or comma-separated)",
  "  --exclude, -E   Glob(s) to exclude (repeatable or comma-separated)",
  "  --no-gitignore  Do not respect .gitignore when scanning directories",
  "  --no-color      Plain text output"]

/-! ### Laws -/

theorem readFrom_target {argument : String} (h : roleOf argument = .target) (a : Arguments)
    (rest : List String) :
    readFrom a (argument :: rest) =
      readFrom { a with targets := a.targets ++ [argument] } rest := by
  rw [readFrom, h]

theorem readFrom_switch {argument : String} {s : Switch} (h : roleOf argument = .switch s)
    (a : Arguments) (rest : List String) :
    readFrom a (argument :: rest) = readFrom (s.apply a) rest := by
  rw [readFrom, h]

theorem readFrom_value {argument value : String} {f : ValueFlag} {a b : Arguments}
    (h : roleOf argument = .value f) (hvalue : isPlain value = true)
    (hb : f.apply a value = .ok b) (rest : List String) :
    readFrom a (argument :: value :: rest) = readFrom b rest := by
  rw [readFrom, h]
  simp [hvalue, hb]

end ClosingBrace.Command
