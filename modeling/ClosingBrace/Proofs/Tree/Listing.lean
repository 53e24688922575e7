import ClosingBrace.Proofs.Tree.Links

/-!
# Nodes in pre-order

`Listed t hs ns` says that `ns` lists the subtrees of the nodes `hs` one after the other, each node
before its children and the children in order. The relation follows the shape of the tree and knows
nothing of how a tree is walked; the walk, which keeps a list of pending nodes, is shown to produce
the listing of the root. In a well-formed tree that listing holds every node exactly once.

## Main statements

* `preorderFrom_eq_ok`: a walk that may take enough steps lists its pending nodes and stops.
* `Listed.mem_iff`, `Listed.nodup`: a listing has the nodes of the subtrees, none of them twice.
* `WellFormed.exists_preorder`: the listing of a whole tree.
* `SameLinks.wellFormed`, `SameLinks.preorder_eq`: what trees with the same links share.
-/

namespace ClosingBrace.Tree

variable {α : Type} {t : Tree α}

/-- `ns` lists the subtrees of `hs`, a node before its children and children in order. -/
inductive Listed (t : Tree α) : List Handle → List Handle → Prop
  | nil : Listed t [] []
  | cons {h : Handle} {cs rest inner later : List Handle} : t.children h = .ok cs →
      Listed t cs inner → Listed t rest later → Listed t (h :: rest) (h :: (inner ++ later))

/-! ## Joining and splitting -/

theorem Listed.append {as bs ms ns : List Handle} (ha : t.Listed as ms) (hb : t.Listed bs ns) :
    t.Listed (as ++ bs) (ms ++ ns) := by
  induction ha with
  | nil => exact hb
  | cons hcs hinner _ _ ih =>
      rw [List.cons_append, List.cons_append, List.append_assoc]
      exact .cons hcs hinner ih

/-- A single node is listed in front of its children. -/
theorem Listed.singleton {h : Handle} {cs inner : List Handle} (hcs : t.children h = .ok cs)
    (hinner : t.Listed cs inner) : t.Listed [h] (h :: inner) := by
  have hlisted := Listed.cons hcs hinner .nil
  rwa [List.append_nil] at hlisted

theorem Listed.of_singleton {h : Handle} {ns : List Handle} (hns : t.Listed [h] ns) :
    ∃ inner, ns = h :: inner ∧ h < t.size ∧ t.Listed (t.kids h) inner := by
  cases hns with
  | cons hcs hinner hlater =>
      cases hlater
      obtain ⟨hh, rfl⟩ := children_eq_ok_iff.mp hcs
      exact ⟨_, by rw [List.append_nil], hh, hinner⟩

/-- There is one listing at most. -/
theorem Listed.unique {hs ms ns : List Handle} (hm : t.Listed hs ms) (hn : t.Listed hs ns) :
    ms = ns := by
  induction hm generalizing ns with
  | nil => cases hn; rfl
  | cons hcs _ _ ihinner ihlater =>
      cases hn with
      | cons hcs' hinner' hlater' =>
          rw [hcs] at hcs'
          cases hcs'
          rw [ihinner hinner', ihlater hlater']

/-! ## The walk -/

/-- **A walk that may take enough steps lists its pending nodes.** It stops by itself: the number of
steps that it may take makes no difference once there are as many as nodes. -/
theorem preorderFrom_eq_ok {count : Nat} {hs ns : List Handle} (h : t.Listed hs ns)
    (hcount : ns.length ≤ count) : t.preorderFrom count hs = .ok ns := by
  induction count generalizing hs ns with
  | zero =>
      cases h with
      | nil => rfl
      | cons => simp at hcount
  | succ count ih =>
      cases h with
      | nil => rfl
      | cons hcs hinner hlater =>
          -- The children become pending in front of the others.
          have hpending := hinner.append hlater
          simp only [List.length_cons] at hcount
          simp [preorderFrom, hcs, ih hpending (by omega), bind, Except.bind, pure, Except.pure]

/-! ## What a listing holds -/

/-- Induction from the leaves to the root: children have larger handles than their parent, and no
handle reaches the size of the tree. -/
theorem WellFormed.induction_up (ht : t.WellFormed) {motive : Handle → Prop}
    (node : ∀ h, h < t.size → (∀ c ∈ t.kids h, motive c) → motive h) :
    ∀ h, h < t.size → motive h := by
  intro h hh
  induction hk : t.size - h using Nat.strongRecOn generalizing h with
  | _ k ih =>
      refine node h hh fun c hc => ?_
      obtain ⟨hlt, hcsize⟩ := ht.lt_of_mem_kids hc
      exact ih (t.size - c) (hk ▸ Nat.sub_lt_sub_left hh hlt) c hcsize rfl

/-- A forest has a listing if each of its trees has one. -/
theorem exists_listed_of_each {hs : List Handle} (hhs : ∀ h ∈ hs, ∃ ns, t.Listed [h] ns) :
    ∃ ns, t.Listed hs ns := by
  induction hs with
  | nil => exact ⟨[], .nil⟩
  | cons h hs ih =>
      obtain ⟨ms, hms⟩ := hhs h List.mem_cons_self
      obtain ⟨ns, hns⟩ := ih fun g hg => hhs g (List.mem_cons_of_mem _ hg)
      exact ⟨ms ++ ns, hms.append hns⟩

/-- Nodes have listings. -/
theorem WellFormed.exists_listed (ht : t.WellFormed) {hs : List Handle}
    (hhs : ∀ h ∈ hs, h < t.size) : ∃ ns, t.Listed hs ns := by
  refine exists_listed_of_each fun h hh => ?_
  -- There is no structural induction here: a tree is an array, not a term.
  refine ht.induction_up (motive := fun h => ∃ ns, t.Listed [h] ns) (fun h hlt ih => ?_) h
    (hhs h hh)
  obtain ⟨inner, hinner⟩ := exists_listed_of_each ih
  exact ⟨h :: inner, .singleton (children_of_lt hlt) hinner⟩

theorem InSubtree.trans {a b c : Handle} (hab : t.InSubtree a b) (hbc : t.InSubtree b c) :
    t.InSubtree a c := by
  induction hbc with
  | self => exact hab
  | step _ hp ih => exact .step ih hp

theorem InSubtree.of_above? {p h : Handle} (hp : t.above? h = some p) : t.InSubtree p h :=
  .step .self (parent_eq_some_iff.mpr hp)

/-- A subtree is its top and the subtrees of the children. -/
theorem WellFormed.inSubtree_iff (ht : t.WellFormed) {a h : Handle} :
    t.InSubtree a h ↔ h = a ∨ ∃ c ∈ t.kids a, t.InSubtree c h := by
  constructor
  · intro hah
    induction hah with
    | self => exact .inl rfl
    | @step p h hap hp ih =>
        have hlink := parent_eq_some_iff.mp hp
        rcases ih with rfl | ⟨c, hc, hcp⟩
        · exact .inr ⟨h, ht.mem_kids_iff.mpr hlink, .self⟩
        · exact .inr ⟨c, hc, .step hcp hp⟩
  · rintro (rfl | ⟨c, hc, hch⟩)
    · exact .self
    · exact (InSubtree.of_above? (ht.mem_kids_iff.mp hc)).trans hch

theorem WellFormed.le_of_inSubtree (ht : t.WellFormed) {a h : Handle} (hah : t.InSubtree a h) :
    a ≤ h := by
  induction hah with
  | self => exact Nat.le_refl _
  | step _ hp ih =>
      have hlt := ht.above?_lt (parent_eq_some_iff.mp hp)
      exact Nat.le_of_lt (Nat.lt_of_le_of_lt ih hlt)

theorem InSubtree.lt_size {a h : Handle} (hah : t.InSubtree a h) (ha : a < t.size) :
    h < t.size := by
  cases hah with
  | self => exact ha
  | step _ hp => exact lt_of_above? (parent_eq_some_iff.mp hp)

/-- The nodes above a node lie on one line: of two of them one is above the other. -/
theorem InSubtree.comparable {a b h : Handle} (ha : t.InSubtree a h) (hb : t.InSubtree b h) :
    t.InSubtree a b ∨ t.InSubtree b a := by
  induction ha with
  | self => exact .inr hb
  | step hap hp ih =>
      cases hb with
      | self => exact .inl (.step hap hp)
      | step hbq hq =>
          rw [hp] at hq
          cases hq
          exact ih hbq

/-- Different children have no node in common. -/
theorem WellFormed.disjoint_of_kids (ht : t.WellFormed) {p c d x : Handle} (hc : c ∈ t.kids p)
    (hd : d ∈ t.kids p) (hcx : t.InSubtree c x) (hdx : t.InSubtree d x) : c = d := by
  have hnot : ∀ {c d : Handle}, c ∈ t.kids p → d ∈ t.kids p → t.InSubtree c d → c = d := by
    intro c d hc hd hcd
    cases hcd with
    | self => rfl
    | step hcq hq =>
        -- The step before `d` is `p`, which cannot be below its own child.
        rw [parent_eq_some_iff, ht.mem_kids_iff.mp hd] at hq
        cases hq
        exact absurd (ht.le_of_inSubtree hcq) (Nat.not_le_of_lt (ht.lt_of_mem_kids hc).1)
  rcases hcx.comparable hdx with h | h
  · exact hnot hc hd h
  · exact (hnot hd hc h).symm

theorem Listed.mem_iff (ht : t.WellFormed) {hs ns : List Handle} (h : t.Listed hs ns) {x : Handle} :
    x ∈ ns ↔ ∃ a ∈ hs, t.InSubtree a x := by
  induction h with
  | nil => simp
  | @cons a cs rest inner later hcs _ _ ihinner ihlater =>
      obtain ⟨-, rfl⟩ := children_eq_ok_iff.mp hcs
      rw [List.mem_cons, List.mem_append, ihinner, ihlater, ← or_assoc, ← ht.inSubtree_iff]
      simp

/-- No node is listed twice if the subtrees have none in common. -/
theorem Listed.nodup (ht : t.WellFormed) {hs ns : List Handle} (h : t.Listed hs ns)
    (hapart : hs.Pairwise fun a b => ∀ x, t.InSubtree a x → ¬ t.InSubtree b x) : ns.Nodup := by
  induction h with
  | nil => exact List.nodup_nil
  | @cons a cs rest inner later hcs hinner hlater ihinner ihlater =>
      obtain ⟨-, rfl⟩ := children_eq_ok_iff.mp hcs
      obtain ⟨ha, hrest⟩ := List.pairwise_cons.mp hapart
      have hbelow {x : Handle} (hx : x ∈ inner) : a < x ∧ t.InSubtree a x := by
        obtain ⟨c, hc, hcx⟩ := (hinner.mem_iff ht).mp hx
        have hlt := (ht.lt_of_mem_kids hc).1
        exact ⟨Nat.lt_of_lt_of_le hlt (ht.le_of_inSubtree hcx),
          ht.inSubtree_iff.mpr (.inr ⟨c, hc, hcx⟩)⟩
      have hbeside {x : Handle} (hx : x ∈ later) : ¬ t.InSubtree a x := by
        obtain ⟨b, hb, hbx⟩ := (hlater.mem_iff ht).mp hx
        exact fun hax => ha b hb x hax hbx
      -- The top stands above `inner`, and `later` stands beside the whole subtree.
      rw [List.nodup_cons, List.nodup_append]
      refine ⟨?_, ihinner ?_, ihlater hrest, ?_⟩
      · rw [List.mem_append]
        rintro (hx | hx)
        · exact Nat.lt_irrefl a (hbelow hx).1
        · exact hbeside hx .self
      · refine List.Pairwise.imp_of_mem ?_ (ht.kids_sorted a)
        intro c d hc hd hlt x hcx hdx
        exact Nat.ne_of_lt hlt (ht.disjoint_of_kids hc hd hcx hdx)
      · rintro x hx y hy rfl
        exact hbeside hy (hbelow hx).2

/-! ## The whole tree -/

/-- **The listing of a tree with a root** holds every node exactly once, and walking the tree
produces it. -/
theorem WellFormed.exists_preorder (ht : t.WellFormed) (hsize : 0 < t.size) :
    ∃ order, t.Listed [0] order ∧ order.Perm (List.range t.size) ∧
      ∀ count, t.size ≤ count → t.preorderFrom count [0] = .ok order := by
  obtain ⟨order, horder⟩ : ∃ ns, t.Listed [0] ns := ht.exists_listed (by simpa using hsize)
  have hperm : order.Perm (List.range t.size) := by
    rw [List.perm_ext_iff_of_nodup (horder.nodup ht (List.pairwise_singleton _ _)) List.nodup_range]
    intro x
    rw [horder.mem_iff ht, List.mem_range]
    constructor
    · rintro ⟨a, ha, hax⟩
      rw [List.mem_singleton.mp ha] at hax
      exact hax.lt_size hsize
    · intro hx
      exact ⟨0, List.mem_cons_self, ht.inSubtree_root hx⟩
  refine ⟨order, horder, hperm, fun count hcount => preorderFrom_eq_ok horder ?_⟩
  rw [hperm.length_eq, List.length_range]
  exact hcount

theorem WellFormed.preorder_eq_ok (ht : t.WellFormed) {order : List Handle}
    (horder : t.Listed [0] order) : t.preorder = .ok order := by
  obtain ⟨-, -, hsize, -⟩ := horder.of_singleton
  obtain ⟨order', horder', -, hwalk⟩ := ht.exists_preorder hsize
  have hroot : t.root = .ok 0 := ht.root_eq_ok_iff.mpr ⟨hsize, rfl⟩
  rw [horder.unique horder']
  simp [preorder, hroot, hwalk t.size (Nat.le_refl _), bind, Except.bind]

/-! ## Trees with the same links -/

/-- The nodes of two trees hang together in the same way, whatever else they are. -/
structure SameLinks {β : Type} (t : Tree α) (u : Tree β) : Prop where
  root_eq : u.root? = t.root?
  size_eq : u.size = t.size
  kids_eq : ∀ h, u.kids h = t.kids h
  above?_eq : ∀ h, u.above? h = t.above? h
  place_eq : ∀ h, u.place h = t.place h

namespace SameLinks

variable {β : Type} {u : Tree β}

theorem refl (t : Tree α) : SameLinks t t :=
  ⟨rfl, rfl, fun _ => rfl, fun _ => rfl, fun _ => rfl⟩

theorem wellFormed (h : SameLinks t u) (ht : t.WellFormed) : u.WellFormed where
  root_eq := by
    rw [h.root_eq, h.size_eq]
    exact ht.root_eq
  above?_lt hp := by
    rw [h.above?_eq] at hp
    exact ht.above?_lt hp
  root_of_above? hh hp := by
    rw [h.size_eq] at hh
    rw [h.above?_eq] at hp
    exact ht.root_of_above? hh hp
  kids_iff := by
    simp only [h.kids_eq, h.above?_eq, h.place_eq]
    exact ht.kids_iff
  kids_sorted p := by
    rw [h.kids_eq]
    exact ht.kids_sorted p

theorem children_eq (h : SameLinks t u) (a : Handle) : u.children a = t.children a := by
  by_cases ha : a < t.size
  · rw [children_of_lt ha, children_of_lt (h.size_eq.symm ▸ ha), h.kids_eq]
  · rw [children_of_not_lt ha, children_of_not_lt (h.size_eq.symm ▸ ha)]

theorem inSubtree_iff (h : SameLinks t u) {a b : Handle} : u.InSubtree a b ↔ t.InSubtree a b := by
  constructor
  · intro hab
    induction hab with
    | self => exact .self
    | step _ hp ih =>
        rw [parent_eq_some_iff, h.above?_eq] at hp
        exact .step ih (parent_eq_some_iff.mpr hp)
  · intro hab
    induction hab with
    | self => exact .self
    | step _ hp ih =>
        rw [parent_eq_some_iff, ← h.above?_eq] at hp
        exact .step ih (parent_eq_some_iff.mpr hp)

theorem preorderFrom_eq (h : SameLinks t u) (count : Nat) (hs : List Handle) :
    u.preorderFrom count hs = t.preorderFrom count hs := by
  induction count generalizing hs with
  | zero => cases hs <;> rfl
  | succ count ih =>
      cases hs with
      | nil => rfl
      | cons a rest => simp only [preorderFrom, h.children_eq, ih]

theorem preorder_eq (h : SameLinks t u) : u.preorder = t.preorder := by
  unfold preorder root
  rw [h.root_eq]
  simp only [h.size_eq, h.preorderFrom_eq]

end SameLinks

end ClosingBrace.Tree
