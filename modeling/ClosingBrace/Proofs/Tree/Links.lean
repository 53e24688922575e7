import ClosingBrace.Proofs.Tree.Arena

/-!
# Moving along the links

In a well-formed tree every question about the links of a node has an answer, and the answer read
from one end of a link is the answer read from the other: the next sibling of `a` is `b` exactly
when the previous sibling of `b` is `a`, and a first or last child is a child with nothing before or
after it. Climbing from any node ends at the root.

## Main statements

* `mem_kids_iff`, `right?_eq_some_iff`, `left?_eq_some_iff`: each link from either end.
* `inSubtree_root`: every node is in the subtree of the root.
* `linked_replay`: all of this for the tree after any run of requests.
-/

namespace ClosingBrace.Tree

variable {α : Type} {t : Tree α}

/-- The nodes of a subtree: following parents from `h` leads to `a`, in any number of steps. -/
inductive InSubtree (t : Tree α) (a : Handle) : Handle → Prop
  | self : InSubtree t a a
  | step {p h : Handle} : InSubtree t a p → t.parent h = .ok (some p) → InSubtree t a h

/-! ## Parents and children -/

theorem WellFormed.mem_kids_iff (ht : t.WellFormed) {p c : Handle} :
    c ∈ t.kids p ↔ t.above? c = some p := by
  rw [List.mem_iff_getElem?]
  constructor
  · rintro ⟨i, hi⟩
    exact (ht.kids_iff.mp hi).1
  · intro hp
    exact ⟨t.place c, ht.kids_iff.mpr ⟨hp, rfl⟩⟩

/-- A child comes after its parent and is a node. -/
theorem WellFormed.lt_of_mem_kids (ht : t.WellFormed) {p c : Handle} (hc : c ∈ t.kids p) :
    p < c ∧ c < t.size := by
  have hp := ht.mem_kids_iff.mp hc
  exact ⟨ht.above?_lt hp, lt_of_above? hp⟩

theorem WellFormed.above?_eq_none_iff (ht : t.WellFormed) {h : Handle} (hh : h < t.size) :
    t.above? h = none ↔ h = 0 := by
  refine ⟨ht.root_of_above? hh, ?_⟩
  rintro rfl
  cases hp : t.above? 0 with
  | none => rfl
  | some p => exact absurd (ht.above?_lt hp) (Nat.not_lt_zero p)

theorem WellFormed.root_eq_ok_iff (ht : t.WellFormed) {r : Handle} :
    t.root = .ok r ↔ 0 < t.size ∧ r = 0 := by
  unfold root
  rw [ht.root_eq]
  by_cases hsize : t.size = 0
  · simp [hsize]
  · simp [hsize, Nat.pos_of_ne_zero hsize, eq_comm]

/-- **Every node is in the subtree of the root.** -/
theorem WellFormed.inSubtree_root (ht : t.WellFormed) {h : Handle} (hh : h < t.size) :
    t.InSubtree 0 h := by
  -- A parent has a smaller handle than its child, so the climb cannot go on for ever.
  induction h using Nat.strongRecOn with
  | _ h ih =>
      cases hp : t.above? h with
      | none =>
          rw [ht.root_of_above? hh hp]
          exact .self
      | some p =>
          have hlt := ht.above?_lt hp
          exact .step (ih p hlt (Nat.lt_trans hlt hh)) (parent_eq_some_iff.mpr hp)

/-- The nodes met on the way up from `h`, beginning with `h` itself, within `climb` levels. -/
def pathUp (t : Tree α) : (climb : Nat) → Handle → List Handle
  | 0, _ => []
  | climb + 1, h => h :: ((t.above? h).map (t.pathUp climb)).getD []

/-- A node is in the subtrees of the nodes on its way up, so this can be computed. -/
theorem WellFormed.mem_pathUp_iff (ht : t.WellFormed) {climb : Nat} {a h : Handle}
    (hclimb : h < climb) : a ∈ t.pathUp climb h ↔ t.InSubtree a h := by
  induction climb generalizing h with
  | zero => exact absurd hclimb (Nat.not_lt_zero h)
  | succ climb ih =>
      unfold pathUp
      rw [List.mem_cons]
      cases hp : t.above? h with
      | none =>
          have hself : t.InSubtree a h → a = h := by
            rintro (_ | ⟨-, hparent⟩)
            · rfl
            · rw [parent_eq_some_iff, hp] at hparent
              cases hparent
          simp only [Option.map_none, Option.getD_none, List.not_mem_nil, or_false]
          exact ⟨fun heq => heq ▸ .self, hself⟩
      | some p =>
          have hlt : p < climb := Nat.lt_of_lt_of_le (ht.above?_lt hp) (Nat.le_of_lt_succ hclimb)
          rw [Option.map_some, Option.getD_some, ih hlt]
          constructor
          · rintro (rfl | hap)
            · exact .self
            · exact .step hap (parent_eq_some_iff.mpr hp)
          · rintro (_ | ⟨hap, hparent⟩)
            · exact .inl rfl
            · rw [parent_eq_some_iff, hp] at hparent
              cases hparent
              exact .inr hap

/-! ## Siblings -/

theorem WellFormed.right?_eq_some_iff (ht : t.WellFormed) {a b : Handle} :
    t.right? a = some b ↔
      ∃ p, t.above? a = some p ∧ t.above? b = some p ∧ t.place b = t.place a + 1 := by
  unfold right?
  rw [Option.bind_eq_some_iff]
  simp only [ht.kids_iff]

theorem WellFormed.left?_eq_some_iff (ht : t.WellFormed) {a b : Handle} :
    t.left? b = some a ↔
      ∃ p, t.above? a = some p ∧ t.above? b = some p ∧ t.place b = t.place a + 1 := by
  unfold left?
  rw [Option.bind_eq_some_iff]
  constructor
  · rintro ⟨p, hb, hi⟩
    split at hi
    · cases hi
    · obtain ⟨ha, hplace⟩ := ht.kids_iff.mp hi
      exact ⟨p, ha, hb, by omega⟩
  · rintro ⟨p, ha, hb, hplace⟩
    refine ⟨p, hb, ?_⟩
    rw [if_neg (by omega), ht.kids_iff]
    exact ⟨ha, by omega⟩

theorem WellFormed.nextSibling_of_lt (ht : t.WellFormed) {h : Handle} (hh : h < t.size) :
    t.nextSibling h = .ok (t.right? h) := by
  have hn : t.nodes[h]? = some t.nodes[h] := Array.getElem?_eq_getElem hh
  simp only [nextSibling, node_of_lt hh, bind, Except.bind]
  unfold right?
  rw [above?_of_getElem? hn]
  cases hp : t.nodes[h].parent with
  | none => rfl
  | some p =>
      have hlt : p < t.size := Nat.lt_trans (ht.above?_lt ((above?_of_getElem? hn).trans hp)) hh
      have hm : t.nodes[p]? = some t.nodes[p] := Array.getElem?_eq_getElem hlt
      simp [node_of_lt hlt, kids_of_getElem? hm, place_of_getElem? hn, pure, Except.pure]

/-- In the list of children the next sibling comes next. -/
theorem WellFormed.nextSibling_of_children (ht : t.WellFormed) {p a : Handle} {cs : List Handle}
    {i : Nat} (hcs : t.children p = .ok cs) (ha : cs[i]? = some a) :
    t.nextSibling a = .ok cs[i + 1]? := by
  obtain ⟨-, rfl⟩ := children_eq_ok_iff.mp hcs
  obtain ⟨hp, hplace⟩ := ht.kids_iff.mp ha
  rw [ht.nextSibling_of_lt (lt_of_above? hp), right?, hp, hplace]
  rfl

theorem WellFormed.previousSibling_of_lt (ht : t.WellFormed) {h : Handle} (hh : h < t.size) :
    t.previousSibling h = .ok (t.left? h) := by
  have hn : t.nodes[h]? = some t.nodes[h] := Array.getElem?_eq_getElem hh
  simp only [previousSibling, node_of_lt hh, bind, Except.bind]
  unfold left?
  rw [above?_of_getElem? hn, place_of_getElem? hn]
  cases hp : t.nodes[h].parent with
  | none => rfl
  | some p =>
      have hlt : p < t.size := Nat.lt_trans (ht.above?_lt ((above?_of_getElem? hn).trans hp)) hh
      have hm : t.nodes[p]? = some t.nodes[p] := Array.getElem?_eq_getElem hlt
      cases hindex : t.nodes[h].index with
      | zero => simp [pure, Except.pure]
      | succ i => simp [node_of_lt hlt, kids_of_getElem? hm, pure, Except.pure]

theorem WellFormed.nextSibling_eq_some_iff (ht : t.WellFormed) {a b : Handle} :
    t.nextSibling a = .ok (some b) ↔ t.right? a = some b := by
  by_cases ha : a < t.size
  · rw [ht.nextSibling_of_lt ha]
    exact ⟨Except.ok.inj, congrArg _⟩
  · have hnone : t.right? a = none := by simp [right?, (links_of_not_lt ha).2]
    simp [nextSibling, node_of_not_lt ha, hnone, bind, Except.bind]

theorem WellFormed.previousSibling_eq_some_iff (ht : t.WellFormed) {a b : Handle} :
    t.previousSibling b = .ok (some a) ↔ t.left? b = some a := by
  by_cases hb : b < t.size
  · rw [ht.previousSibling_of_lt hb]
    exact ⟨Except.ok.inj, congrArg _⟩
  · have hnone : t.left? b = none := by simp [left?, (links_of_not_lt hb).2]
    simp [previousSibling, node_of_not_lt hb, hnone, bind, Except.bind]

/-! ## First and last children -/

theorem firstChild_of_lt {h : Handle} (hh : h < t.size) :
    t.firstChild h = .ok (t.kids h).head? := by
  simp [firstChild, children_of_lt hh, bind, Except.bind, pure, Except.pure]

theorem lastChild_of_lt {h : Handle} (hh : h < t.size) :
    t.lastChild h = .ok (t.kids h).getLast? := by
  simp [lastChild, children_of_lt hh, bind, Except.bind, pure, Except.pure]

theorem firstChild_of_children {h : Handle} {cs : List Handle} (hcs : t.children h = .ok cs) :
    t.firstChild h = .ok cs.head? := by
  simp [firstChild, hcs, bind, Except.bind, pure, Except.pure]

theorem lastChild_of_children {h : Handle} {cs : List Handle} (hcs : t.children h = .ok cs) :
    t.lastChild h = .ok cs.getLast? := by
  simp [lastChild, hcs, bind, Except.bind, pure, Except.pure]

theorem children_of_not_lt {h : Handle} (hh : ¬ h < t.size) :
    t.children h = .error (.unknownHandle (.ofNat h)) := by
  simp [children, node_of_not_lt hh, bind, Except.bind]

theorem lt_of_lastChild {h : Handle} {last : Option Handle} (hlast : t.lastChild h = .ok last) :
    h < t.size := by
  refine Decidable.byContradiction fun hh => ?_
  simp [lastChild, children_of_not_lt hh, bind, Except.bind] at hlast

/-- The first child is the child with nothing before it. -/
theorem WellFormed.head?_kids_iff (ht : t.WellFormed) {p c : Handle} :
    (t.kids p).head? = some c ↔ t.above? c = some p ∧ t.left? c = none := by
  rw [List.head?_eq_getElem?, ht.kids_iff]
  refine and_congr_right fun hp => ?_
  have hlist : (t.kids p)[t.place c]? = some c := ht.kids_iff.mpr ⟨hp, rfl⟩
  have hlt : t.place c < (t.kids p).length := (List.getElem?_eq_some_iff.mp hlist).1
  unfold left?
  rw [hp, Option.bind_some]
  split
  · next h0 => simp [h0]
  · next h0 =>
      refine ⟨fun h => absurd h h0, fun hnone => ?_⟩
      have hge := List.getElem?_eq_none_iff.mp hnone
      omega

/-- The last child is the child with nothing after it. -/
theorem WellFormed.getLast?_kids_iff (ht : t.WellFormed) {p c : Handle} :
    (t.kids p).getLast? = some c ↔ t.above? c = some p ∧ t.right? c = none := by
  rw [List.getLast?_eq_getElem?, ht.kids_iff]
  refine and_congr_right fun hp => ?_
  have hlist : (t.kids p)[t.place c]? = some c := ht.kids_iff.mpr ⟨hp, rfl⟩
  have hlt : t.place c < (t.kids p).length := (List.getElem?_eq_some_iff.mp hlist).1
  unfold right?
  rw [hp, Option.bind_some, List.getElem?_eq_none_iff]
  omega

theorem WellFormed.firstChild_eq_some_iff (ht : t.WellFormed) {p c : Handle} :
    t.firstChild p = .ok (some c) ↔ t.above? c = some p ∧ t.left? c = none := by
  by_cases hp : p < t.size
  · rw [firstChild_of_lt hp, ← ht.head?_kids_iff]
    exact ⟨Except.ok.inj, congrArg _⟩
  · have hne : t.above? c ≠ some p := by
      rw [Ne, ← ht.mem_kids_iff, (links_of_not_lt hp).1]
      exact List.not_mem_nil
    simp [firstChild, children_of_not_lt hp, hne, bind, Except.bind]

theorem WellFormed.lastChild_eq_some_iff (ht : t.WellFormed) {p c : Handle} :
    t.lastChild p = .ok (some c) ↔ t.above? c = some p ∧ t.right? c = none := by
  by_cases hp : p < t.size
  · rw [lastChild_of_lt hp, ← ht.getLast?_kids_iff]
    exact ⟨Except.ok.inj, congrArg _⟩
  · have hne : t.above? c ≠ some p := by
      rw [Ne, ← ht.mem_kids_iff, (links_of_not_lt hp).1]
      exact List.not_mem_nil
    simp [lastChild, children_of_not_lt hp, hne, bind, Except.bind]

/-! ## The whole invariant -/

/-- The links of a tree as reading the tree shows them. -/
structure Linked (t : Tree α) : Prop where
  /-- A tree has a root as soon as it has a node. -/
  root_iff : (∃ r, t.root = .ok r) ↔ 0 < t.size
  /-- The root is the first node and the only one without a parent. -/
  orphan_iff : ∀ r, t.root = .ok r → r = 0 ∧ ∀ h, t.parent h = .ok none ↔ h = r
  /-- Every other node has an earlier parent, which is the only node to list it, and lists it only
  at the place that the node remembers. -/
  listed_once : ∀ h, 0 < h → h < t.size → ∃ n p listed, t.node h = .ok n ∧ n.parent = some p ∧
    p < h ∧ t.children p = .ok listed ∧ listed[n.index]? = some h ∧
    ∀ q cs i, t.children q = .ok cs → cs[i]? = some h → q = p ∧ i = n.index
  /-- Children are nodes, and their handles grow. -/
  increasing : ∀ p cs, t.children p = .ok cs → cs.Pairwise (· < ·) ∧ ∀ c ∈ cs, p < c ∧ c < t.size
  /-- Following parents leads to the root. -/
  climbs : ∀ r h, t.root = .ok r → h < t.size → t.InSubtree r h

theorem WellFormed.linked (ht : t.WellFormed) : t.Linked where
  root_iff := by
    simp [ht.root_eq_ok_iff]
  orphan_iff := by
    intro r hr
    obtain ⟨hsize, rfl⟩ := ht.root_eq_ok_iff.mp hr
    refine ⟨rfl, fun h => ?_⟩
    rw [parent_eq_ok_iff]
    constructor
    · rintro ⟨hh, hnone⟩
      exact (ht.above?_eq_none_iff hh).mp hnone
    · rintro rfl
      exact ⟨hsize, (ht.above?_eq_none_iff hsize).mpr rfl⟩
  listed_once := by
    intro h hpos hh
    have hn : t.nodes[h]? = some t.nodes[h] := Array.getElem?_eq_getElem hh
    cases hp : t.above? h with
    | none => exact absurd (ht.root_of_above? hh hp) (Nat.ne_of_gt hpos)
    | some p =>
        have hlt := ht.above?_lt hp
        refine ⟨t.nodes[h], p, t.kids p, node_of_lt hh, ?_, hlt,
          children_of_lt (Nat.lt_trans hlt hh), ?_, ?_⟩
        · rw [← above?_of_getElem? hn, hp]
        · exact ht.kids_iff.mpr ⟨hp, place_of_getElem? hn⟩
        · intro q cs i hcs hi
          obtain ⟨-, rfl⟩ := children_eq_ok_iff.mp hcs
          obtain ⟨hq, hi⟩ := ht.kids_iff.mp hi
          rw [hp] at hq
          exact ⟨(Option.some.inj hq).symm, hi.symm.trans (place_of_getElem? hn)⟩
  increasing := by
    intro p cs hcs
    obtain ⟨-, rfl⟩ := children_eq_ok_iff.mp hcs
    exact ⟨ht.kids_sorted p, fun c hc => ht.lt_of_mem_kids hc⟩
  climbs := by
    intro r h hr hh
    obtain ⟨-, rfl⟩ := ht.root_eq_ok_iff.mp hr
    exact ht.inSubtree_root hh

/-- **Whatever is requested, the links agree**, and with them the ways to move between siblings: the
next sibling of `a` is `b` exactly when the previous sibling of `b` is `a`, both are then children
of one node, and the first and last child of a node are its children without a sibling before or
after. -/
theorem linked_replay (source : String) (requests : List Request) :
    (replay source requests).Linked ∧
    (∀ a b, (replay source requests).nextSibling a = .ok (some b) ↔
      (replay source requests).previousSibling b = .ok (some a)) ∧
    (∀ a b, (replay source requests).nextSibling a = .ok (some b) →
      ∃ p, (replay source requests).parent a = .ok (some p) ∧
        (replay source requests).parent b = .ok (some p)) ∧
    (∀ p c, (replay source requests).firstChild p = .ok (some c) ↔
      (replay source requests).parent c = .ok (some p) ∧
        (replay source requests).previousSibling c = .ok none) ∧
    (∀ p c, (replay source requests).lastChild p = .ok (some c) ↔
      (replay source requests).parent c = .ok (some p) ∧
        (replay source requests).nextSibling c = .ok none) := by
  have ht := (reachable_replay source requests).wellFormed
  generalize replay source requests = t at ht
  refine ⟨ht.linked, ?_, ?_, ?_, ?_⟩
  · intro a b
    rw [ht.nextSibling_eq_some_iff, ht.previousSibling_eq_some_iff, ht.right?_eq_some_iff,
      ht.left?_eq_some_iff]
  · intro a b hab
    rw [ht.nextSibling_eq_some_iff, ht.right?_eq_some_iff] at hab
    obtain ⟨p, ha, hb, -⟩ := hab
    exact ⟨p, parent_eq_some_iff.mpr ha, parent_eq_some_iff.mpr hb⟩
  · intro p c
    rw [ht.firstChild_eq_some_iff, parent_eq_some_iff]
    refine and_congr_right fun hc => ?_
    rw [ht.previousSibling_of_lt (lt_of_above? hc)]
    exact ⟨congrArg _, Except.ok.inj⟩
  · intro p c
    rw [ht.lastChild_eq_some_iff, parent_eq_some_iff]
    refine and_congr_right fun hc => ?_
    rw [ht.nextSibling_of_lt (lt_of_above? hc)]
    exact ⟨congrArg _, Except.ok.inj⟩

end ClosingBrace.Tree
