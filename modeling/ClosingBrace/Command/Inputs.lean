import ClosingBrace.Files.Surroundings
import ClosingBrace.Lint.Config

/-!
# Inputs of a run

The inputs of a run are its targets in order. A lone dash stands for the standard input and a
directory for the files that a search of it finds; any other target is read as it is named. The
searches come first. Then the inputs are read one after the other, each reading of the standard
input taking what has not been read before, and each input is checked for itself.

## Main statements

* `readFrom_append`: inputs are read on from where others end.
* `check_of_unreadable`: an input that cannot be read fails for that reason.
-/

namespace ClosingBrace.Command

/-- Why an input gives no result. -/
inductive InputError where
  | read (e : ReadError)
  | lint (e : LintError)

def InputError.message : InputError → String
  | .read e => e.message
  | .lint e => e.message

/-- What is checked under a name. -/
structure Input where
  name : String
  content : Except ReadError String

namespace Input

/-- The target that stands for the standard input. -/
def dash : String := "-"

def standardName : String := "<stdin>"

/-! ### Names -/

/-- The names that a target stands for. -/
def namesOf (s : Surroundings) (filter : Scan.Filter) (target : String) :
    Except String (List String) :=
  if target ≠ dash && s.isDirectory target then
    (s.search (filter.query (Path.resolve s.workingDirectory target))).map Scan.inOrder
  else .ok [target]

def namesOfAll (s : Surroundings) (filter : Scan.Filter) (targets : List String) :
    Except String (List String) :=
  return (← targets.mapM (namesOf s filter)).flatten

/-! ### Contents -/

/-- What is read under names, one after the other, when the standard input has been read `earlier`
times before. -/
def readFrom (s : Surroundings) : (earlier : Nat) → (names : List String) → List Input
  | _, [] => []
  | earlier, name :: rest =>
    if name = dash then ⟨standardName, s.inputText earlier⟩ :: readFrom s (earlier + 1) rest
    else ⟨name, s.text name⟩ :: readFrom s earlier rest

def check (complaint : String → String) (rules : List Rule) (input : Input) :
    Except InputError FileResult :=
  match input.content with
  | .ok text => (lintText complaint text input.name rules).mapError .lint
  | .error e => .error (.read e)

/-! ### Laws -/

theorem readFrom_append (s : Surroundings) (earlier : Nat) (first second : List String) :
    readFrom s earlier (first ++ second) =
      readFrom s earlier first ++ readFrom s (earlier + first.count dash) second := by
  induction first generalizing earlier with
  | nil => rfl
  | cons name rest ih =>
    rw [List.cons_append, readFrom, readFrom, List.count_cons]
    by_cases hname : name = dash
    · simp [hname, ih, Nat.add_assoc, Nat.add_comm 1]
    · simp [hname, ih]

theorem check_of_unreadable {complaint : String → String} {rules : List Rule} {input : Input}
    {e : ReadError} (h : input.content = .error e) :
    check complaint rules input = .error (.read e) := by
  simp [check, h]

end Input

end ClosingBrace.Command
