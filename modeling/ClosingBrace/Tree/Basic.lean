import ClosingBrace.Number.Decimal
import ClosingBrace.Text.Lines
import ClosingBrace.Tree.Kind

/-!
# Syntax trees

A tree keeps its nodes in one array, in the order in which they were added, together with the lines
of the source that it describes. A node is named by its place in that array, its *handle*; parents
and children refer to each other by handles, and a node remembers its place among its siblings.
Reading a handle that the tree has not given out is an error.

Lines count from 1 and columns from 0, in UTF-16 code units. They are numbers, except in trees of
another type: `Tree Double` has nodes whose lines and columns nobody has checked.

## Main statements

* `node_eq_ok_iff`: which handles can be read.
* `addNode_root`, `addNode_child`: what adding a node does when it succeeds.
-/

namespace ClosingBrace

/-- The name of a node: its place in the order of addition. -/
abbrev Handle : Type := Nat

/-- A node of a tree. -/
structure Node (α : Type := Number) where
  kind : Kind
  line : α
  column : α
  /-- Absent for the root only. -/
  parent : Option Handle
  /-- The place among the children of the parent. -/
  index : Nat
  children : Array Handle
deriving Inhabited

/-- A syntax tree with the lines of its source. -/
structure Tree (α : Type := Number) where
  lines : Array String
  nodes : Array (Node α)
  root? : Option Handle
deriving Inhabited

namespace Tree

variable {α : Type}

/-- What can go wrong when a tree is built or read. -/
inductive Error where
  | duplicateRoot
  | noRoot
  | unknownHandle (handle : Number)
deriving DecidableEq

def Error.message : Error → String
  | .duplicateRoot => "Tree already has a root node"
  | .noRoot => "Tree has no root node"
  | .unknownHandle handle => "Unknown node handle " ++ handle.text

def empty (source : String) : Tree α := ⟨(Text.splitLines source).toArray, #[], none⟩

def size (t : Tree α) : Nat := t.nodes.size

/-! ### Reading -/

def root (t : Tree α) : Except Error Handle :=
  match t.root? with
  | some h => .ok h
  | none => .error .noRoot

def node (t : Tree α) (h : Handle) : Except Error (Node α) :=
  match t.nodes[h]? with
  | some n => .ok n
  | none => .error (.unknownHandle (.ofNat h))

/-- The handle that a number names, if the tree has given it out. -/
def resolve (t : Tree α) (x : Number) : Except Error Handle :=
  match x.toNat? with
  | some h => if h < t.size then .ok h else .error (.unknownHandle x)
  | none => .error (.unknownHandle x)

def kind (t : Tree α) (h : Handle) : Except Error Kind := return (← t.node h).kind

def line (t : Tree α) (h : Handle) : Except Error α := return (← t.node h).line

def column (t : Tree α) (h : Handle) : Except Error α := return (← t.node h).column

def parent (t : Tree α) (h : Handle) : Except Error (Option Handle) := return (← t.node h).parent

/-- The children of a node, in order. -/
def children (t : Tree α) (h : Handle) : Except Error (List Handle) :=
  return (← t.node h).children.toList

def previousSibling (t : Tree α) (h : Handle) : Except Error (Option Handle) := do
  let n ← t.node h
  match n.parent, n.index with
  | some p, index + 1 => return (← t.node p).children[index]?
  | _, _ => return none

def nextSibling (t : Tree α) (h : Handle) : Except Error (Option Handle) := do
  let n ← t.node h
  match n.parent with
  | some p => return (← t.node p).children[n.index + 1]?
  | none => return none

/-- The text of a source line, counted from 1; empty outside the source. -/
def sourceLine (t : Tree α) (line : Number) : String :=
  match (line - 1).toNat? with
  | some index => t.lines.getD index ""
  | none => ""

/-! ### Building -/

/-- Adds a node without looking whether its place is free: below `parent`, or as the root. -/
def attach (t : Tree α) (kind : Kind) (line column : α) (parent : Option Handle) :
    Tree α × Handle :=
  let h := t.size
  match parent with
  | none =>
    ({ t with nodes := t.nodes.push ⟨kind, line, column, none, 0, #[]⟩, root? := some h }, h)
  | some p =>
    let index := ((t.nodes[p]?).map (·.children.size)).getD 0
    let linked := t.nodes.modify p fun n => { n with children := n.children.push h }
    ({ t with nodes := linked.push ⟨kind, line, column, some p, index, #[]⟩ }, h)

/-- Adds a node as the last child of `parent`, or, without a parent, as the root. A second root and
an unknown parent are refused. -/
def addNode (t : Tree α) (kind : Kind) (line column : α) (parent : Option Handle) :
    Except Error (Tree α × Handle) :=
  match parent with
  | none =>
    if t.root?.isSome then .error .duplicateRoot else .ok (t.attach kind line column none)
  | some p => do
    let _ ← t.node p
    return t.attach kind line column (some p)

/-! ### Laws -/

theorem node_of_lt {t : Tree α} {h : Handle} (hh : h < t.nodes.size) :
    t.node h = .ok t.nodes[h] := by
  simp [node, Array.getElem?_eq_getElem hh]

theorem node_of_not_lt {t : Tree α} {h : Handle} (hh : ¬ h < t.size) :
    t.node h = .error (.unknownHandle (.ofNat h)) := by
  have : t.nodes[h]? = none := Array.getElem?_eq_none (Nat.le_of_not_lt hh)
  simp [node, this]

theorem node_eq_ok_iff {t : Tree α} {h : Handle} : (∃ n, t.node h = .ok n) ↔ h < t.size := by
  by_cases hh : h < t.size
  · exact ⟨fun _ => hh, fun _ => ⟨_, node_of_lt hh⟩⟩
  · simp [node_of_not_lt hh, hh]

theorem addNode_root {t : Tree α} (ht : t.root? = none) (kind : Kind) (line column : α) :
    t.addNode kind line column none = .ok (t.attach kind line column none) := by
  simp [addNode, ht]

theorem addNode_child {t : Tree α} {p : Handle} (hp : p < t.size) (kind : Kind)
    (line column : α) :
    t.addNode kind line column (some p) = .ok (t.attach kind line column (some p)) := by
  simp [addNode, node_of_lt hp, bind, Except.bind, pure, Except.pure]

@[simp] theorem attach_snd (t : Tree α) (kind : Kind) (line column : α)
    (parent : Option Handle) : (t.attach kind line column parent).2 = t.size := by
  cases parent <;> rfl

@[simp] theorem size_attach (t : Tree α) (kind : Kind) (line column : α)
    (parent : Option Handle) : (t.attach kind line column parent).1.size = t.size + 1 := by
  cases parent <;> simp [attach, size]

end Tree
end ClosingBrace
