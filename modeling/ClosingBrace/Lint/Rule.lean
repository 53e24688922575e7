import ClosingBrace.Lint.Diagnostic
import ClosingBrace.Tree.Navigation

/-!
# Rules and runs

A rule checks nodes of certain kinds and may report a diagnostic for each. A run visits all nodes in
pre-order and, at every node, all rules that ask for its kind, in their order; the diagnostics come
out in the order of their positions, those at the same position as they were found.

## Main statements

* `run_nil`: without rules nothing is visited, not even the root.
-/

namespace ClosingBrace

/-- A check of the nodes of certain kinds. -/
structure Rule where
  id : String
  kinds : List Kind
  check : Tree → Handle → Except Tree.Error (Option Diagnostic)

namespace Rule

/-- The checks that are due at a node: every checker that asks for the kind of the node, in
order. -/
def visitsAt (t : Tree) (kindsOf : α → List Kind) (checkers : List α) (h : Handle) :
    Except Tree.Error (List (α × Handle)) := do
  let kind ← t.kind h
  return (checkers.filter fun c => (kindsOf c).contains kind).map fun c => (c, h)

/-- All checks of a run, in the order in which they are made. -/
def visits (t : Tree) (kindsOf : α → List Kind) (checkers : List α) :
    Except Tree.Error (List (α × Handle)) := do
  return (← (← t.preorder).mapM fun h => visitsAt t kindsOf checkers h).flatten

/-- What the checks of a run report, in the order in which they are made. -/
def findings (t : Tree) (rules : List Rule) : Except Tree.Error (List Diagnostic) := do
  let due ← visits t Rule.kinds rules
  return (← due.mapM fun (rule, h) => rule.check t h).filterMap fun found => found

/-- The diagnostics of a tree, in the order of their positions. -/
def run (t : Tree) (rules : List Rule) : Except Tree.Error (List Diagnostic) := do
  if rules.isEmpty then return []
  else return (← findings t rules).mergeSort Diagnostic.notAfter

/-! ### Laws -/

theorem run_nil (t : Tree) : run t [] = .ok [] := rfl

end Rule

end ClosingBrace
