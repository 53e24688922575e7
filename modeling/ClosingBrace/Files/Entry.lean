import ClosingBrace.Files.Path

/-!
# Files and directories

A directory holds named entries, each a file or another directory. A path is walked one segment at a
time: whatever a further segment follows has to be a directory, and the segment above leads back to
where the walk came from.

## Main statements

* `walk_append`: a walk that arrives can be continued.
-/

namespace ClosingBrace

/-- An error of the system: its code, and what the code means. -/
structure SystemError where
  code : String
  meaning : String
deriving DecidableEq

namespace SystemError

def noEntry : SystemError := ⟨"ENOENT", "no such file or directory"⟩

def notDirectory : SystemError := ⟨"ENOTDIR", "not a directory"⟩

def isDirectory : SystemError := ⟨"EISDIR", "illegal operation on a directory"⟩

def accessDenied : SystemError := ⟨"EACCES", "permission denied"⟩

end SystemError

/-- What a name stands for. A file gives its bytes, or it cannot be opened. -/
inductive Entry where
  | file (content : Except SystemError (List UInt8))
  | directory (entries : List (String × Entry))

namespace Entry

def isDirectory : Entry → Bool
  | .file _ => false
  | .directory _ => true

/-! ### Walking -/

/-- Where a walk stands: an entry, and the directories above it, the nearest first. -/
structure Place where
  entry : Entry
  above : List Entry

def Place.step (place : Place) (segment : String) : Except SystemError Place :=
  match place.entry with
  | .file _ => .error .notDirectory
  | .directory entries =>
    if Path.stays segment then .ok place
    else if segment = Path.up then
      match place.above with
      | [] => .error .noEntry
      | parent :: above => .ok ⟨parent, above⟩
    else
      match entries.lookup segment with
      | some entry => .ok ⟨entry, place.entry :: place.above⟩
      | none => .error .noEntry

def Place.walk (place : Place) : List String → Except SystemError Place
  | [] => .ok place
  | segment :: rest =>
    match place.step segment with
    | .ok next => next.walk rest
    | .error e => .error e

/-- What segments lead to from a directory with nothing above it. -/
def find (top : Entry) (segments : List String) : Except SystemError Entry :=
  (Place.walk ⟨top, []⟩ segments).map Place.entry

/-! ### Laws -/

theorem walk_append (place : Place) (first second : List String) :
    place.walk (first ++ second) =
      match place.walk first with
      | .ok next => next.walk second
      | .error e => .error e := by
  induction first generalizing place with
  | nil => rfl
  | cons segment rest ih =>
    rw [List.cons_append, Place.walk, Place.walk]
    cases place.step segment with
    | ok next => exact ih next
    | error e => rfl

end Entry

end ClosingBrace
