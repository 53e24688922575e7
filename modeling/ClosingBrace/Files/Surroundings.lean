import ClosingBrace.Files.Entry
import ClosingBrace.Scan
import ClosingBrace.Text.Utf8

/-!
# Surroundings

What a run of the tool meets outside itself: the working directory, what is told of the paths that
it asks about, what searches for files find, the standard input, and the words in which a text that
is not JSON is refused. Nothing is assumed of the answers. Contents are bytes and are read as UTF-8.

The standard input is read like any other input, as a whole; but whoever reads it again gets what
has come since. What a pipe holds is there for the first reading only (`StandardInput.ofPipe`).

## Main statements

* `text_eq_ok_iff`: the text at a path is that of its bytes.
* `ofPipe_succ`: a pipe that has been read is empty.
-/

namespace ClosingBrace

/-- Why something cannot be read. -/
inductive ReadError where
  /-- The path cannot be opened. -/
  | opening (e : SystemError) (path : String)
  /-- What is open cannot be read. -/
  | reading (e : SystemError)
  /-- Any other reason, in its own words. -/
  | other (reason : String)
deriving DecidableEq

def ReadError.message : ReadError → String
  | .opening e path => e.code ++ ": " ++ e.meaning ++ ", open '" ++ path ++ "'"
  | .reading e => e.code ++ ": " ++ e.meaning ++ ", read"
  | .other reason => reason

/-- What the readings of the standard input give, one after the other. -/
abbrev StandardInput : Type := Nat → Except ReadError (List UInt8)

/-- The standard input from a pipe: the first reading takes all that is in it. -/
def StandardInput.ofPipe (bytes : List UInt8) : StandardInput
  | 0 => .ok bytes
  | _ + 1 => .ok []

/-- What a run meets outside itself. -/
structure Surroundings where
  /-- The full name of the working directory. -/
  workingDirectory : String
  /-- Whether a path leads anywhere. -/
  has : String → Bool
  /-- Whether a path leads to a directory. -/
  isDirectory : String → Bool
  /-- What reading a path gives. -/
  read : String → Except ReadError (List UInt8)
  /-- The full names that a search finds, or why it fails. -/
  search : Scan.Query → Except String (List String)
  input : StandardInput
  /-- What is said of a text that is not JSON. -/
  complaint : String → String

namespace Surroundings

def text (s : Surroundings) (path : String) : Except ReadError String :=
  (s.read path).map Text.ofBytes

/-- The text that a reading of the standard input gives, after `earlier` readings of it. -/
def inputText (s : Surroundings) (earlier : Nat) : Except ReadError String :=
  (s.input earlier).map Text.ofBytes

/-! ### A directory and what is below it -/

/-- What a path leads to when nothing is known but the directory `top` with the full name `name`,
from which paths without a slash in front start. -/
def lookUp (name : String) (top : Entry) (path : String) : Except SystemError Entry :=
  let segments := Path.segments path
  let above := Path.segments name
  if path.isEmpty then .error .noEntry
  else if above.isPrefixOf segments then top.find (segments.drop above.length)
  else if Path.isAbsolute path then .error .noEntry
  else top.find segments

/-- The surroundings of which nothing is known but a working directory and what is below it. -/
def ofDirectory (name : String) (top : Entry) (search : Scan.Query → Except String (List String))
    (input : StandardInput) (complaint : String → String) : Surroundings where
  workingDirectory := name
  has path := (lookUp name top path).isOk
  isDirectory path :=
    match lookUp name top path with
    | .ok entry => entry.isDirectory
    | .error _ => false
  read path :=
    match lookUp name top path with
    | .ok (.file content) => content.mapError (.opening · path)
    | .ok (.directory _) => .error (.reading .isDirectory)
    | .error e => .error (.opening e path)
  search := search
  input := input
  complaint := complaint

/-! ### Laws -/

theorem text_eq_ok_iff {s : Surroundings} {path text : String} :
    s.text path = .ok text ↔ ∃ bytes, s.read path = .ok bytes ∧ text = Text.ofBytes bytes := by
  unfold Surroundings.text
  cases s.read path <;> simp [Except.map, eq_comm]

end Surroundings

theorem StandardInput.ofPipe_succ (bytes : List UInt8) (earlier : Nat) :
    ofPipe bytes (earlier + 1) = .ok [] := rfl

end ClosingBrace
