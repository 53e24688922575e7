import ClosingBrace.Proofs.Outcome
import ClosingBrace.Proofs.Tree.Numbering

/-!
# Building with a stack

A draft of an outline may leave out the children of a node altogether. It is built with a stack: the
entry on top is added to the tree, and its children are pushed, the last one first, so that the
first child is on top next. The stack grows and shrinks while lists of children in the tree are only
partly filled, but what comes out is the tree of the outline that the draft stands for.

## Main statements

* `enter_pushAll`: the entries for the children of a node are worked off first, and plant them.
* `build_eq_ok`: building ends, nothing is refused, and the tree is that of the outline.
* `build_numbers_in_preorder`: how the nodes of the tree are numbered.
-/

namespace ClosingBrace

/-- An outline as it is handed in: a node without children may leave their list out. -/
inductive Draft where
  | node (kind : Kind) (line column : Number) (children : Option (List Draft))

namespace Draft

mutual

/-- The outline that a draft stands for. -/
def outline : Draft → Outline
  | .node kind line column none => .node kind line column []
  | .node kind line column (some children) => .node kind line column (outlines children)

def outlines : List Draft → List Outline
  | [] => []
  | d :: rest => d.outline :: outlines rest

end

theorem outline_node (kind : Kind) (line column : Number) (children : Option (List Draft)) :
    (node kind line column children).outline =
      .node kind line column (outlines (children.getD [])) := by
  cases children <;> simp [outline, outlines]

end Draft

namespace Tree

/-- A draft still to be added, below a node or as the root. -/
abbrev Pending : Type := Option Handle × Draft

/-- Pushes the children of a node on the stack, the last one first. -/
def pushAll (parent : Handle) (children : List Draft) (stack : List Pending) : List Pending :=
  children.foldr (fun d stack => (some parent, d) :: stack) stack

/-- The number of nodes that a stack stands for. -/
def pendingSize (stack : List Pending) : Nat := (stack.map (·.2.outline.size)).sum

theorem pendingSize_pushAll (parent : Handle) (children : List Draft) (stack : List Pending) :
    pendingSize (pushAll parent children stack) =
      Outline.sizes (Draft.outlines children) + pendingSize stack := by
  induction children with
  | nil => simp [pushAll, Draft.outlines, Outline.sizes]
  | cons d rest ih =>
      have hrest : pendingSize (pushAll parent (d :: rest) stack) =
          d.outline.size + pendingSize (pushAll parent rest stack) := by
        simp [pushAll, pendingSize]
      rw [hrest, ih, Draft.outlines, Outline.sizes, Nat.add_assoc]

/-- Adds the entry on top of the stack, pushes its children, and goes on while something is pending.
-/
def enter (t : Tree) : (stack : List Pending) → Except Error Tree
  | [] => .ok t
  | (parent, .node kind line column children) :: stack => do
    let (t, h) ← t.addNode kind line column parent
    enter t (pushAll h (children.getD []) stack)
termination_by stack => pendingSize stack
decreasing_by
  rw [pendingSize_pushAll]
  simp [pendingSize, Draft.outline_node, Outline.size]

def build (source : String) (d : Draft) : Except Error Tree := enter (empty source) [(none, d)]

/-! ## The stack at work -/

variable {t : Tree}

/-- An entry for which there is room is added, with its children on top of the stack. -/
theorem enter_cons {parent : Option Handle} (hroom : t.Room parent) (kind : Kind)
    (line column : Number) (children : Option (List Draft)) (stack : List Pending) :
    t.enter ((parent, .node kind line column children) :: stack) =
      (t.attach kind line column parent).1.enter
        (pushAll t.size (children.getD []) stack) := by
  rw [enter, hroom.addNode_eq, ok_bind, ← attach_snd t kind line column parent]

mutual

/-- The entry on top of the stack is worked off, with all that it brings, before those below it. -/
theorem enter_planted {t : Tree} {parent : Option Handle} (hroom : t.Room parent)
    (stack : List Pending) :
    ∀ d : Draft, t.enter ((parent, d) :: stack) = (t.plant parent d.outline).enter stack
  | .node kind line column none => by
      rw [enter_cons hroom, Draft.outline, plant, plantAll]
      rfl
  | .node kind line column (some children) => by
      have hlt : t.size < (t.attach kind line column parent).1.size := by simp
      rw [enter_cons hroom, Draft.outline, plant, attach_snd]
      exact enter_pushAll hlt stack children

/-- **What has been pushed for a node is planted below it** before anything else happens. -/
theorem enter_pushAll {t : Tree} {p : Handle} (hp : p < t.size) (stack : List Pending) :
    ∀ ds : List Draft,
      t.enter (pushAll p ds stack) = (t.plantAll p (Draft.outlines ds)).enter stack
  | [] => by
      rw [Draft.outlines, plantAll]
      rfl
  | d :: rest => by
      rw [Draft.outlines, plantAll]
      have hroom : t.Room (some p) := hp
      exact (enter_planted hroom (pushAll p rest stack) d).trans
        (enter_pushAll (hroom.plant d.outline) stack rest)

end

/-- **Building ends, and nothing is refused.** -/
theorem build_eq_ok (source : String) (d : Draft) :
    build source d = .ok (ofOutline source d.outline) := by
  rw [build, enter_planted (room_empty source), enter]
  rfl

/-! ## The numbers of the nodes -/

/-- The nodes of a tree are those of an outline, numbered in pre-order: node `h` is the top of part
`h` of the outline. -/
structure Numbers (t : Tree) (o : Outline) : Prop where
  /-- There is a node for every part. -/
  size_eq : t.size = o.size ∧ o.parts.length = o.size
  root : t.root = .ok 0 ∧ t.parent 0 = .ok none
  preorder_eq : t.preorder = .ok (List.range o.size)
  shown : ∀ h kind line column children, o.parts[h]? = some (.node kind line column children) →
    t.kind h = .ok kind ∧ t.line h = .ok line ∧ t.column h = .ok column
  parent_lt : ∀ h, 0 < h → h < t.size → ∃ p, t.parent h = .ok (some p) ∧ p < h
  /-- A subtree has an interval of handles, which is as long as the part is large. -/
  interval : ∀ h part, o.parts[h]? = some part → t.subtreeSize h = part.size ∧
    ∀ m, t.InSubtree h m ↔ h ≤ m ∧ m < h + t.subtreeSize h
  /-- Reading a subtree gives the part, and reading the whole tree the outline. -/
  readBack : ∀ h part, o.parts[h]? = some part → ∀ levels, part.size ≤ levels →
    t.outlineWithin levels h = some part
  readBack_root : ∀ r, t.root = .ok r → ∀ levels, t.size ≤ levels →
    t.outlineWithin levels r = some o

/-- Where an outline is, its top has an interval of handles below it. -/
theorem Holds.interval (ht : t.WellFormed) {first : Handle} {o : Outline}
    (hholds : t.Holds first o) : t.subtreeSize first = o.size ∧
      ∀ m, t.InSubtree first m ↔ first ≤ m ∧ m < first + t.subtreeSize first := by
  have hsize : t.subtreeSize first = o.size := by
    rw [ht.subtreeSize_eq_length hholds.listed, List.length_range']
  refine ⟨hsize, fun m => ?_⟩
  have hmem := hholds.listed.mem_iff ht (x := m)
  rw [List.mem_range'_1] at hmem
  rw [hsize, hmem]
  simp

/-- The tree of an outline has its nodes, in pre-order. -/
theorem numbers_ofOutline (source : String) (o : Outline) : (ofOutline source o).Numbers o := by
  have ht : (ofOutline source o).WellFormed := (reachable_ofOutline source o).wellFormed
  have hpos := size_ofOutline_pos source o
  have hpart : ∀ h part, o.parts[h]? = some part → (ofOutline source o).Holds h part := by
    intro h part hat
    have hholds := (holds_ofOutline source o).part hat
    rwa [Nat.zero_add] at hholds
  constructor
  case size_eq => exact ⟨size_ofOutline source o, o.length_parts⟩
  case root =>
    refine ⟨ht.root_eq_ok_iff.mpr ⟨hpos, rfl⟩, ?_⟩
    rw [parent_of_lt hpos, (ht.above?_eq_none_iff hpos).mpr rfl]
  case preorder_eq => exact ht.preorder_eq_ok (listed_ofOutline source o)
  case shown =>
    intro h kind line column children hat
    obtain ⟨hkind, hline, hcolumn, -⟩ := (hpart h _ hat).node_eq
    exact ⟨hkind, hline, hcolumn⟩
  case parent_lt =>
    intro h hh hlt
    obtain ⟨n, p, -, hn, hp, hparent, -⟩ := ht.linked.listed_once h hh hlt
    refine ⟨p, ?_, hparent⟩
    simp [Tree.parent, hn, hp, ok_bind, pure, Except.pure]
  case interval => exact fun h part hat => (hpart h part hat).interval ht
  case readBack =>
    intro h part hat levels hlevels
    exact (hpart h part hat).outlineWithin_eq hlevels
  case readBack_root =>
    intro r hr levels hlevels
    obtain ⟨-, rfl⟩ := ht.root_eq_ok_iff.mp hr
    rw [size_ofOutline] at hlevels
    exact (holds_ofOutline source o).outlineWithin_eq hlevels

/-- **Building numbers the nodes of a draft in pre-order and loses nothing of it.** It always ends,
and with the tree into which the outline is entered recursively. -/
theorem build_numbers_in_preorder (source : String) (d : Draft) :
    build source d = .ok (ofOutline source d.outline) ∧
      (ofOutline source d.outline).Numbers d.outline :=
  ⟨build_eq_ok source d, numbers_ofOutline source d.outline⟩

end Tree
end ClosingBrace
