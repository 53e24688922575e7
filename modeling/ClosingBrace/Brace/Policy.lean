import ClosingBrace.Text.Blank
import ClosingBrace.Text.LetterCase

/-!
# Policies

A policy says where a closing brace belongs: on the line of what continues the statement, alone on
its line, or alone unless its block is empty or fits on one line.

## Main statements

* `read?_name`: a policy is read back from its name.
-/

namespace ClosingBrace

/-- Where closing braces belong. -/
inductive Policy where
  /-- On the line of the next part of the same statement. -/
  | same
  /-- Alone on its line. -/
  | alone
  /-- Alone on its line, unless the block is empty. -/
  | aloneOrEmpty
  /-- Alone on its line, unless the block stands on one line. -/
  | aloneOrSingleLine
deriving DecidableEq, Repr

namespace Policy

def name : Policy → String
  | .same => "SAME"
  | .alone => "ALONE"
  | .aloneOrEmpty => "ALONE_OR_EMPTY"
  | .aloneOrSingleLine => "ALONE_OR_SINGLELINE"

/-- All policies, in the order in which messages list them. -/
def all : List Policy := [.same, .alone, .aloneOrEmpty, .aloneOrSingleLine]

/-- The policy that a text names, whatever blanks surround the name and whatever its letter case. -/
def read? (text : String) : Option Policy :=
  let wanted := Text.capitals (Text.trim text)
  all.find? fun policy => policy.name == wanted

/-! ### Laws -/

theorem mem_all (policy : Policy) : policy ∈ all := by cases policy <;> decide

theorem read?_name_of_mem : ∀ policy ∈ all, read? policy.name = some policy := by decide +kernel

theorem read?_name (policy : Policy) : read? policy.name = some policy :=
  read?_name_of_mem policy (mem_all policy)

end Policy
end ClosingBrace
