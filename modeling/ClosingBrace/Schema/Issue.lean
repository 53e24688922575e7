import ClosingBrace.Json.Basic

/-!
# Issues found in data

Documents, options, configurations and tool arguments are data from outside. A check of such data
does not stop at the first fault: it reports an *issue* for every one, each with the path from the
whole value to the offending part. `Checked` is the result of a check, and `Checked.both` joins the
results of two parts.

## Main statements

* `both_eq_ok_iff`: a whole is accepted exactly when its parts are.
* `issues_both`: the issues of a whole are those of its parts, in order.
-/

namespace ClosingBrace

/-- One step of a path into a value. -/
inductive PathStep where
  | key (name : String)
  | index (place : Nat)
deriving DecidableEq

def PathStep.text : PathStep → String
  | .key name => name
  | .index place => toString place

/-- What is wrong with a part of a value. -/
inductive Fault where
  /-- A part that has to be there is not. -/
  | missing
  /-- The part is of another type. -/
  | wrongShape (expected received : Json.Shape)
  /-- The part has to be one of some words but is no string. -/
  | notWord (allowed : List String) (received : Json.Shape)
  /-- The part has to be one of some words but is another one. -/
  | otherWord (allowed : List String) (received : String)
  /-- A number has to be whole and finite. -/
  | notWhole
  /-- A number has to be greater than zero. -/
  | notPositive
  /-- A number must not be below zero. -/
  | belowZero
  /-- The part has none of the forms that it may have. -/
  | noForm
  /-- An object has keys that mean nothing. -/
  | unknownKeys (keys : List String)
  /-- A policy of that name does not exist. -/
  | unknownPolicy (given : String) (allowed : List String)
  /-- A list of token kinds is empty. -/
  | noTokens
  /-- A token kind is unknown or cannot be checked. -/
  | unacceptableToken (given : String) (allowed : List String)
deriving DecidableEq

def apostrophes (word : String) : String := "'" ++ word ++ "'"

def Fault.text : Fault → String
  | .missing => "Required"
  | .wrongShape expected received =>
    "Expected " ++ expected.name ++ ", received " ++ received.name
  | .notWord allowed received =>
    "Expected " ++ " | ".intercalate (allowed.map apostrophes) ++ ", received " ++ received.name
  | .otherWord allowed received =>
    "Invalid enum value. Expected " ++ " | ".intercalate (allowed.map apostrophes)
      ++ ", received " ++ apostrophes received
  | .notWhole => "Expected integer, received float"
  | .notPositive => "Number must be greater than 0"
  | .belowZero => "Number must be greater than or equal to 0"
  | .noForm => "Invalid input"
  | .unknownKeys keys =>
    "Unrecognized key(s) in object: " ++ ", ".intercalate (keys.map apostrophes)
  | .unknownPolicy given allowed =>
    "unknown option \"" ++ given ++ "\", expected one of " ++ ", ".intercalate allowed
  | .noTokens => "at least one token kind is required"
  | .unacceptableToken given allowed =>
    "token \"" ++ given ++ "\" is not acceptable, expected any of " ++ ", ".intercalate allowed

/-- A fault and where it is. -/
structure Issue where
  path : List PathStep
  fault : Fault
deriving DecidableEq

/-- The text of an issue; a fault of the whole value has no path in front. -/
def Issue.text (issue : Issue) : String :=
  if issue.path.isEmpty then issue.fault.text
  else ".".intercalate (issue.path.map PathStep.text) ++ ": " ++ issue.fault.text

def Issue.texts (issues : List Issue) : String := "; ".intercalate (issues.map Issue.text)

/-! ### Checks -/

/-- The result of a check: what was read, or every issue found. -/
abbrev Checked (α : Type) : Type := Except (List Issue) α

namespace Checked

def fault (path : List PathStep) (f : Fault) : Checked α := .error [⟨path, f⟩]

def issues : Checked α → List Issue
  | .ok _ => []
  | .error found => found

/-- The results of two checks, or the issues of the first followed by those of the second. -/
def both : Checked α → Checked β → Checked (α × β)
  | .ok a, .ok b => .ok (a, b)
  | .ok _, .error found => .error found
  | .error found, .ok _ => .error found
  | .error first, .error second => .error (first ++ second)

def also (check : Checked α) (further : List Issue) : Checked α :=
  match check, further with
  | check, [] => check
  | .ok _, further => .error further
  | .error found, further => .error (found ++ further)

/-! ### Laws -/

theorem both_eq_ok_iff {x : Checked α} {y : Checked β} {a : α} {b : β} :
    both x y = .ok (a, b) ↔ x = .ok a ∧ y = .ok b := by
  cases x <;> cases y <;> simp [both]

theorem issues_both (x : Checked α) (y : Checked β) :
    (both x y).issues = x.issues ++ y.issues := by
  cases x <;> cases y <;> simp [both, issues]

end Checked
end ClosingBrace
