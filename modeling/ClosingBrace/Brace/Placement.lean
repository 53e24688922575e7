import ClosingBrace.Brace.Context
import ClosingBrace.Brace.Policy
import ClosingBrace.Text.Units

/-!
# Placement of a closing brace

The questions that a policy asks of a closing brace (is it alone on its line, is its block empty,
does its block stand on one line, is there a line break in front of it) and the verdict that the
policy draws from them. The first violation found is the verdict.

## Main statements

* `blankBefore_zero`: nothing but blanks stands before the first column.
* `verdict_other_eq`: only one policy looks at more than whether the brace is alone.
-/

namespace ClosingBrace

/-- What can be wrong with the place of a closing brace. -/
inductive Violation where
  | lineBreakBefore
  | lineSame
  | lineAlone
deriving DecidableEq, Repr

def Violation.name : Violation → String
  | .lineBreakBefore => "LINE_BREAK_BEFORE"
  | .lineSame => "LINE_SAME"
  | .lineAlone => "LINE_ALONE"

/-- Whether only blanks stand before a column of a line. A negative column counts from the end of
the line. -/
def blankBefore (column : Number) (line : String) : Bool :=
  let cs := line.toList
  Text.blankWithin (Text.cutPoint column.truncate (Text.widthOf cs)) cs

namespace BracedContext

/-- Whether the closing brace is on another line than what stands just before it: its previous
sibling, or else its parent. -/
def hasLineBreakBefore (t : Tree) (c : BracedContext) : Except Tree.Error Bool := do
  let before ← match ← t.previousSibling c.right with
    | some sibling => pure (some sibling)
    | none => t.parent c.right
  return !(← t.onSameLine (some c.right) before)

/-- Whether the closing brace is the inner one of an initializer in double braces. Such an
initializer ends with two braces and a terminator; the inner brace is excused when the token after
the terminator is on another line. -/
def isDoubleBrace (t : Tree) (c : BracedContext) : Except Tree.Error Bool := do
  let owner ← match ← t.parent c.right with
    | some block => t.parent block
    | none => pure none
  if (← t.isKind owner .instanceInit) && (← t.isKind c.next .rightCurly) then
    let terminator ← t.nextTokenAfter c.next
    let follower ← t.nextTokenAfter terminator
    return !(← t.onSameLine (some c.right) follower)
  else return false

/-- Whether the closing brace has its line to itself: nothing but blanks before it, and the next
token on another line. -/
def isAlone (t : Tree) (c : BracedContext) (rightLine : String) : Except Tree.Error Bool := do
  let apart ←
    if ← t.onSameLine (some c.right) c.next then c.isDoubleBrace t else pure true
  if apart then return blankBefore (← t.column c.right) rightLine else return false

/-- Whether nothing stands between the braces. In a type body the closing brace then is the next
sibling of the opening one; a list of statements then has it as its first child. -/
def isEmpty (t : Tree) (c : BracedContext) : Except Tree.Error Bool := do
  let inTypeBody ← t.isKind (← t.parent c.left) .typeBody
  let candidate ← if inTypeBody then t.nextSibling c.left else t.firstChild c.left
  return candidate = some c.right

/-- The first token from `h` on that is no else branch. Each step moves to a later node, so `steps`
is no limit when it is the number of nodes. -/
def skipElse (t : Tree) : (steps : Nat) → Option Handle → Except Tree.Error (Option Handle)
  | 0, h => return h
  | steps + 1, h => do
    if ← t.isKind h .elseBranch then skipElse t steps (← t.nextTokenAfter h) else return h

/-- The token that a block on one line must not share its line with: the next token that neither is
an else branch nor the condition of a do loop. -/
def follower (t : Tree) (c : BracedContext) : Except Tree.Error (Option Handle) := do
  let next ← skipElse t t.size c.next
  match next with
  | some h =>
    if (← t.kind h) = .doCondition then
      let last ← match ← t.parent h with
        | some loop => t.lastChild loop
        | none => pure none
      t.nextTokenAfter last
    else return some h
  | none => return none

/-- Whether the block stands on one line of its own. A semicolon may follow on that line. -/
def isSingleLine (t : Tree) (c : BracedContext) : Except Tree.Error Bool := do
  let follower ← c.follower t
  let beforeSemicolon ← t.isKind c.next .semicolon
  if ← t.onSameLine (some c.left) (some c.right) then
    return !(← t.onSameLine (some c.right) follower) || beforeSemicolon
  else return false

/-- Whether the closing brace should be alone on its line, and is not. -/
def violatesAlone (t : Tree) (policy : Policy) (c : BracedContext) (rightLine : String) :
    Except Tree.Error Bool := do
  if ← c.isAlone t rightLine then return false
  else
    match policy with
    | .alone => return true
    | .aloneOrEmpty => return !(← c.isEmpty t)
    | .aloneOrSingleLine => return !(← c.isSingleLine t)
    | .same => if c.ends then return !(← c.isSingleLine t) else return false

/-- Whether the closing brace of a block on several lines should start a line, and does not. -/
def lacksLineBreak (t : Tree) (c : BracedContext) : Except Tree.Error Bool := do
  if ← c.hasLineBreakBefore t then return false
  else return !(← t.onSameLine (some c.left) (some c.right))

/-- Whether the next part of the statement should be on the line of the closing brace, and is
not. -/
def leavesNextPart (t : Tree) (c : BracedContext) : Except Tree.Error Bool := do
  if c.ends then return false else return !(← t.onSameLine (some c.right) c.next)

/-- The verdict of a policy on a context, given the source line of the closing brace. -/
def verdict (t : Tree) (policy : Policy) (c : BracedContext) (rightLine : String) :
    Except Tree.Error (Option Violation) := do
  if policy = .same then
    if ← c.lacksLineBreak t then return some .lineBreakBefore
    if ← c.leavesNextPart t then return some .lineSame
  if ← c.violatesAlone t policy rightLine then return some .lineAlone
  return none

end BracedContext

/-! ### Laws -/

@[simp] theorem blankBefore_zero (line : String) : blankBefore 0 line = true := by
  have h : (0 : Number).truncate = 0 := by decide +kernel
  simp [blankBefore, h, Text.cutPoint, Text.blankWithin]

/-- Only one policy looks at more than whether the brace is alone. -/
theorem BracedContext.verdict_other_eq (t : Tree) {policy : Policy} (h : policy ≠ .same)
    (c : BracedContext) (rightLine : String) :
    c.verdict t policy rightLine =
      (do
        if ← c.violatesAlone t policy rightLine then return some .lineAlone
        else return none) := by
  unfold BracedContext.verdict
  simp only [h, if_false]

end ClosingBrace
