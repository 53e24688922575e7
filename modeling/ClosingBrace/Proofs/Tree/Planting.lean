import ClosingBrace.Proofs.Tree.Arena
import ClosingBrace.Tree.Outline

/-!
# Planted outlines

Entering an outline into a tree is a run of additions, each of which finds room: for the root
because the tree is empty, and for every other node because its parent has just been added. So the
tree of an outline is one that additions lead to, and what the outline promises of its nodes, such
as the bounds on their positions, holds of the nodes of the tree.

## Main statements

* `Reachable.plant`, `reachable_ofOutline`: planting is a run of additions.
* `All.plant`, `all_ofOutline`: the positions of the tree are those of the outline.
-/

namespace ClosingBrace

/-! ## Properties of all nodes -/

mutual

/-- Every node of an outline has a line and a column of which `p` holds. -/
def Outline.All (p : Number → Number → Prop) : Outline → Prop
  | .node _ line column children => p line column ∧ Outline.AllOf p children

/-- Every node of several outlines has a line and a column of which `p` holds. -/
def Outline.AllOf (p : Number → Number → Prop) : List Outline → Prop
  | [] => True
  | o :: rest => o.All p ∧ Outline.AllOf p rest

end

mutual

/-- What two properties imply together holds of every node that has both. -/
theorem Outline.All.imp₂ {p q r : Number → Number → Prop}
    (h : ∀ line column, p line column → q line column → r line column) :
    ∀ o : Outline, o.All p → o.All q → o.All r
  | .node kind line column children, hp, hq => by
      rw [Outline.All] at hp hq ⊢
      exact ⟨h line column hp.1 hq.1, Outline.AllOf.imp₂ h children hp.2 hq.2⟩

theorem Outline.AllOf.imp₂ {p q r : Number → Number → Prop}
    (h : ∀ line column, p line column → q line column → r line column) :
    ∀ os : List Outline, Outline.AllOf p os → Outline.AllOf q os → Outline.AllOf r os
  | [], _, _ => trivial
  | o :: rest, hp, hq => by
      rw [Outline.AllOf] at hp hq ⊢
      exact ⟨Outline.All.imp₂ h o hp.1 hq.1, Outline.AllOf.imp₂ h rest hp.2 hq.2⟩

end

namespace Tree

variable {t : Tree} {p : Number → Number → Prop}

/-- Every node of a tree has a line and a column of which `p` holds. -/
def All (p : Number → Number → Prop) (t : Tree) : Prop :=
  ∀ h, h < t.size → p (t.lineAt h) (t.columnAt h)

/-- There is room for a root as long as there is none, and below every node. -/
def Room (t : Tree) : Option Handle → Prop
  | none => t.root? = none
  | some q => q < t.size

/-! ## Planting -/

theorem Room.lt_size {parent : Option Handle} (hroom : t.Room parent) :
    ∀ q ∈ parent, q < t.size := by
  rintro q ⟨⟩
  exact hroom

/-- Where there is room a node is added. -/
theorem Room.addNode_eq {parent : Option Handle} (hroom : t.Room parent) (kind : Kind)
    (line column : Number) :
    t.addNode kind line column parent = .ok (t.attach kind line column parent) := by
  cases parent with
  | none => exact addNode_root hroom kind line column
  | some q => exact addNode_child hroom kind line column

theorem Reachable.attach (ht : t.Reachable) {parent : Option Handle} (hroom : t.Room parent)
    (kind : Kind) (line column : Number) : (t.attach kind line column parent).1.Reachable :=
  ht.add (hroom.addNode_eq kind line column)

theorem All.attach (ht : t.All p) {parent : Option Handle} (hroom : t.Room parent) (kind : Kind)
    {line column : Number} (hp : p line column) : (t.attach kind line column parent).1.All p := by
  intro h hh
  rw [size_attach] at hh
  rw [lineAt_attach t kind line column hroom.lt_size,
    columnAt_attach t kind line column hroom.lt_size]
  split
  · exact hp
  · next hne => exact ht h (Nat.lt_of_le_of_ne (Nat.le_of_lt_succ hh) hne)

/-- A new node has room for children. -/
theorem room_attach (t : Tree) (kind : Kind) (line column : Number) (parent : Option Handle) :
    (t.attach kind line column parent).1.Room (some (t.attach kind line column parent).2) := by
  show (t.attach kind line column parent).2 < _
  rw [size_attach, attach_snd]
  exact Nat.lt_succ_self _

/-- The room below a node stays when more is planted. -/
theorem Room.plant {q : Handle} (hroom : t.Room (some q)) (o : Outline) :
    (t.plant (some q) o).Room (some q) := by
  show q < (t.plant (some q) o).size
  rw [size_plant]
  exact Nat.lt_add_right _ hroom

mutual

theorem Reachable.plant {t : Tree} (ht : t.Reachable) {parent : Option Handle}
    (hroom : t.Room parent) : ∀ o : Outline, (t.plant parent o).Reachable
  | .node kind line column children => by
      rw [Tree.plant]
      exact (ht.attach hroom kind line column).plantAll (room_attach _ _ _ _ _) children

theorem Reachable.plantAll {t : Tree} (ht : t.Reachable) {q : Handle} (hroom : t.Room (some q)) :
    ∀ os : List Outline, (t.plantAll q os).Reachable
  | [] => by
      rw [Tree.plantAll]
      exact ht
  | o :: rest => by
      rw [Tree.plantAll]
      exact (ht.plant hroom o).plantAll (hroom.plant o) rest

end

mutual

theorem All.plant {t : Tree} (ht : t.All p) {parent : Option Handle} (hroom : t.Room parent) :
    ∀ o : Outline, o.All p → (t.plant parent o).All p
  | .node kind line column children, ho => by
      rw [Outline.All] at ho
      rw [Tree.plant]
      exact (ht.attach hroom kind ho.1).plantAll (room_attach _ _ _ _ _) children ho.2

theorem All.plantAll {t : Tree} (ht : t.All p) {q : Handle} (hroom : t.Room (some q)) :
    ∀ os : List Outline, Outline.AllOf p os → (t.plantAll q os).All p
  | [], _ => by
      rw [Tree.plantAll]
      exact ht
  | o :: rest, hos => by
      rw [Outline.AllOf] at hos
      rw [Tree.plantAll]
      exact (ht.plant hroom o hos.1).plantAll (hroom.plant o) rest hos.2

end

/-- An empty tree has room for a root. -/
theorem room_empty (source : String) : (empty source).Room none := rfl

theorem reachable_ofOutline (source : String) (o : Outline) : (ofOutline source o).Reachable :=
  (Reachable.empty source).plant (room_empty source) o

/-- The tree of an outline has a root at least. -/
theorem size_ofOutline_pos (source : String) (o : Outline) : 0 < (ofOutline source o).size := by
  rw [size_ofOutline]
  cases o
  rw [Outline.size]
  exact Nat.lt_add_right _ Nat.one_pos

theorem all_ofOutline (source : String) {o : Outline} (ho : o.All p) : (ofOutline source o).All p :=
  All.plant (fun _ hh => absurd hh (Nat.not_lt_zero _)) (room_empty source) o ho

end Tree

end ClosingBrace
