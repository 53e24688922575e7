import ClosingBrace.Tree.Basic

/-!
# Moving through a tree

Where a question has no answer, such as the first child of a leaf, the answer is absent, not an
error; an absent node has no kind and is on no line. Errors come from unknown handles only.

Every step down goes to a larger handle and every step up to a smaller one, so the number of nodes
bounds each of the recursions below.

## Main statements

* `onSameLine_none_left`, `onSameLine_none_right`: an absent node shares its line with no other.
* `nextTokenAfter_none`: nothing follows an absent node.
-/

namespace ClosingBrace.Tree

variable {α : Type}

def firstChild (t : Tree α) (h : Handle) : Except Error (Option Handle) :=
  return (← t.children h).head?

def lastChild (t : Tree α) (h : Handle) : Except Error (Option Handle) :=
  return (← t.children h).getLast?

/-- The last child of a node that may be absent. -/
def lastChild? (t : Tree α) (h : Option Handle) : Except Error (Option Handle) :=
  match h with
  | some h => t.lastChild h
  | none => return none

def findKind (t : Tree α) (kind : Kind) : List Handle → Except Error (Option Handle)
  | [] => return none
  | h :: rest => do
    if (← t.kind h) = kind then return some h else t.findKind kind rest

def findFirstChild (t : Tree α) (h : Handle) (kind : Kind) : Except Error (Option Handle) := do
  t.findKind kind (← t.children h)

def isKind (t : Tree α) (h : Option Handle) (kind : Kind) : Except Error Bool :=
  match h with
  | some h => return (← t.kind h) = kind
  | none => return false

/-- Whether two nodes are both present and on one line. -/
def onSameLine [BEq α] (t : Tree α) (a b : Option Handle) : Except Error Bool :=
  match a, b with
  | some a, some b => do
    let lineA ← t.line a
    let lineB ← t.line b
    return lineA == lineB
  | _, _ => return false

/-! ### The first token of a subtree -/

section FirstToken
variable [LT α] [DecidableLT α] [BEq α]

/-- Whether a node stands strictly before another in the source. -/
def isBefore (t : Tree α) (a b : Handle) : Except Error Bool := do
  let nodeA ← t.node a
  let nodeB ← t.node b
  return nodeA.line < nodeB.line || (nodeA.line == nodeB.line && nodeA.column < nodeB.column)

/-- The earlier of the best node so far and a further one; the best so far wins a tie. -/
def earlier (t : Tree α) (best candidate : Handle) : Except Error Handle := do
  if ← t.isBefore candidate best then return candidate else return best

/-- The earliest node of a subtree that is at most `depth` levels deep. -/
def firstNodeWithin (t : Tree α) : (depth : Nat) → Handle → Except Error Handle
  | 0, h => return h
  | depth + 1, h => do
    let candidates ← (← t.children h).mapM fun child => t.firstNodeWithin depth child
    candidates.foldlM t.earlier h

/-- The earliest node of the subtree of a node. An operator stands above its operands, so this need
not be the node itself. Of several earliest nodes it is the first in pre-order. -/
def firstNode (t : Tree α) (h : Handle) : Except Error Handle := t.firstNodeWithin t.size h

end FirstToken

/-! ### The token after a construct -/

/-- The next sibling of a node or of the nearest ancestor that has one, within `climb` levels. -/
def nextSubtreeWithin (t : Tree α) : (climb : Nat) → Option Handle → Except Error (Option Handle)
  | _, none => return none
  | 0, some _ => return none
  | climb + 1, some h => do
    match ← t.nextSibling h with
    | some next => return some next
    | none => t.nextSubtreeWithin climb (← t.parent h)

/-- The first token after a construct: the earliest node of the nearest subtree to its right. It is
absent at the end of the tree. -/
def nextTokenAfter [LT α] [DecidableLT α] [BEq α] (t : Tree α) (h : Option Handle) :
    Except Error (Option Handle) := do
  match ← t.nextSubtreeWithin (t.size + 1) h with
  | some next => return some (← t.firstNode next)
  | none => return none

/-! ### All nodes -/

/-- The pending nodes and everything below them, a node before its children: the first pending node
is taken and its children become pending in front of the others, at most `count` times. -/
def preorderFrom (t : Tree α) : (count : Nat) → (pending : List Handle) → Except Error (List Handle)
  | _, [] => return []
  | 0, _ :: _ => return []
  | count + 1, h :: rest => do
    let below ← t.children h
    return h :: (← t.preorderFrom count (below ++ rest))

/-- All nodes from the root, a node before its children and children in order. -/
def preorder (t : Tree α) : Except Error (List Handle) := do
  t.preorderFrom t.size [← t.root]

/-! ### Laws -/

@[simp] theorem isKind_none (t : Tree α) (kind : Kind) : t.isKind none kind = .ok false := rfl

@[simp] theorem onSameLine_none_left [BEq α] (t : Tree α) (b : Option Handle) :
    t.onSameLine none b = .ok false := rfl

@[simp] theorem onSameLine_none_right [BEq α] (t : Tree α) (a : Option Handle) :
    t.onSameLine a none = .ok false := by cases a <;> rfl

@[simp] theorem nextTokenAfter_none [LT α] [DecidableLT α] [BEq α] (t : Tree α) :
    t.nextTokenAfter none = .ok none := by
  simp [nextTokenAfter, nextSubtreeWithin, bind, Except.bind, pure, Except.pure]

end ClosingBrace.Tree
