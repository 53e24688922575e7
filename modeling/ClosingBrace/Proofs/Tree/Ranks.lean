import ClosingBrace.Proofs.Tree.Following
import Mathlib.Data.Set.Card

/-!
# Ranks in pre-order

The rank of a node is its place in pre-order. Pre-order keeps a subtree together, so the nodes of a
subtree are those whose ranks lie in an interval: it begins with the rank of the top and is as long
as the subtree is large. What is on the right of a node has the ranks from the end of its interval
on. So questions about a tree become questions about numbers.

## Main statements

* `Listed.exists_around`: a listing holds every subtree in one piece.
* `WellFormed.inSubtree_iff_rank`: a subtree is an interval of ranks.
* `WellFormed.leftOf_iff_rank`: what is on the right begins where the interval ends.
* `WellFormed.follows_iff_leftOf`: what follows a subtree in pre-order is on its right.
* `WellFormed.rank_eq_succ_iff`: neighbours in pre-order have neighbouring ranks.
-/

namespace ClosingBrace.Tree

variable {α : Type} {t : Tree α}

/-- The place of a node in pre-order. -/
def rank (t : Tree α) (h : Handle) : Nat :=
  match t.preorder with
  | .ok order => order.idxOf h
  | .error _ => 0

/-- The number of nodes in the subtree of a node, itself included. -/
noncomputable def subtreeSize (t : Tree α) (h : Handle) : Nat := {m | t.InSubtree h m}.ncard

/-! ## Left and right -/

/-- Children at different places have no node in common. -/
theorem WellFormed.not_inSubtree_of_place_lt (ht : t.WellFormed) {p c d x : Handle}
    (hc : t.above? c = some p) (hd : t.above? d = some p) (hlt : t.place c < t.place d)
    (hcx : t.InSubtree c x) : ¬ t.InSubtree d x := by
  intro hdx
  obtain rfl := ht.disjoint_of_kids (ht.mem_kids_iff.mpr hc) (ht.mem_kids_iff.mpr hd) hcx hdx
  exact Nat.lt_irrefl _ hlt

/-- What is on the left of a node is neither above nor below it. -/
theorem WellFormed.not_inSubtree_of_leftOf (ht : t.WellFormed) {a b : Handle}
    (hab : t.LeftOf a b) : ¬ t.InSubtree a b ∧ ¬ t.InSubtree b a := by
  obtain ⟨p, i, j, c, d, hc, hd, hij, hca, hdb⟩ := hab
  obtain ⟨hcp, rfl⟩ := ht.kids_iff.mp hc
  obtain ⟨hdp, rfl⟩ := ht.kids_iff.mp hd
  constructor
  · intro h
    exact ht.not_inSubtree_of_place_lt hcp hdp hij (hca.trans h) hdb
  · intro h
    exact ht.not_inSubtree_of_place_lt hcp hdp hij hca (hdb.trans h)

/-- Of two nodes only one can be on the left of the other. -/
theorem WellFormed.leftOf_asymm (ht : t.WellFormed) {a b : Handle} (hab : t.LeftOf a b) :
    ¬ t.LeftOf b a := by
  intro hba
  obtain ⟨p, i, j, c, d, hc, hd, hcd, hca, hdb⟩ := hab
  obtain ⟨q, k, l, e, f, he, hf, hef, heb, hfa⟩ := hba
  obtain ⟨hcp, rfl⟩ := ht.kids_iff.mp hc
  obtain ⟨hdp, rfl⟩ := ht.kids_iff.mp hd
  obtain ⟨heq, rfl⟩ := ht.kids_iff.mp he
  obtain ⟨hfq, rfl⟩ := ht.kids_iff.mp hf
  have hapart : c ≠ f := by
    rintro rfl
    rw [hcp] at hfq
    cases hfq
    obtain rfl := ht.disjoint_of_kids (ht.mem_kids_iff.mpr hdp) (ht.mem_kids_iff.mpr heq) hdb heb
    omega
  -- `c` and `f` are both above `a`, so one of them is above the parent of the other.
  rcases hca.comparable hfa with hcf | hfc
  · cases hcf with
    | self => exact hapart rfl
    | step hcq hparent =>
        rw [parent_eq_some_iff, hfq] at hparent
        cases hparent
        exact ht.not_inSubtree_of_place_lt hcp hdp hcd ((hcq.trans (.of_above? heq)).trans heb) hdb
  · cases hfc with
    | self => exact hapart rfl
    | step hfp hparent =>
        rw [parent_eq_some_iff, hcp] at hparent
        cases hparent
        exact ht.not_inSubtree_of_place_lt heq hfq hef heb ((hfp.trans (.of_above? hdp)).trans hdb)

/-! ## Subtrees in a listing -/

/-- **A listing holds every subtree in one piece.** -/
theorem Listed.exists_around {hs ns : List Handle} (h : t.Listed hs ns) {x : Handle}
    (hx : x ∈ ns) : ∃ before inner after, ns = before ++ inner ++ after ∧ t.Listed [x] inner := by
  induction h with
  | nil => cases hx
  | @cons a cs rest inner later hcs hinner hlater ihinner ihlater =>
      rw [List.mem_cons, List.mem_append] at hx
      rcases hx with rfl | hx | hx
      · exact ⟨[], x :: inner, later, rfl, .singleton hcs hinner⟩
      · obtain ⟨before, piece, after, rfl, hpiece⟩ := ihinner hx
        exact ⟨a :: before, piece, after ++ later, by simp, hpiece⟩
      · obtain ⟨before, piece, after, rfl, hpiece⟩ := ihlater hx
        exact ⟨a :: (inner ++ before), piece, after, by simp, hpiece⟩

/-- The size of a subtree is the length of its listing. -/
theorem WellFormed.subtreeSize_eq_length (ht : t.WellFormed) {h : Handle} {ns : List Handle}
    (hns : t.Listed [h] ns) : t.subtreeSize h = ns.length := by
  have hset : {m | t.InSubtree h m} = (ns.toFinset : Set Handle) := by
    ext m
    simp [hns.mem_iff ht]
  have hnodup := hns.nodup ht (List.pairwise_singleton _ _)
  rw [subtreeSize, hset, Set.ncard_coe_finset, List.toFinset_card_of_nodup hnodup]

/-! ## Ranks -/

/-- The nodes of a tree in pre-order, each once. -/
structure Ordered (t : Tree α) (order : List Handle) : Prop where
  preorder : t.preorder = .ok order
  listed : t.Listed [0] order
  nodup : order.Nodup
  mem_iff : ∀ h, h ∈ order ↔ h < t.size

theorem WellFormed.exists_ordered (ht : t.WellFormed) {h : Handle} (hh : h < t.size) :
    ∃ order, t.Ordered order := by
  obtain ⟨order, hlisted, hperm, -⟩ := ht.exists_preorder (Nat.zero_lt_of_lt hh)
  exact ⟨order, ht.preorder_eq_ok hlisted, hlisted, hperm.nodup_iff.mpr List.nodup_range,
    fun x => by rw [hperm.mem_iff, List.mem_range]⟩

variable {order : List Handle}

theorem Ordered.rank_eq (ho : t.Ordered order) (h : Handle) : t.rank h = order.idxOf h := by
  simp [rank, ho.preorder]

theorem Ordered.length_eq (ho : t.Ordered order) : order.length = t.size := by
  have hperm : order.Perm (List.range t.size) := by
    rw [List.perm_ext_iff_of_nodup ho.nodup List.nodup_range]
    simp [ho.mem_iff]
  simpa using hperm.length_eq

/-- A node stands in the order at its rank. -/
theorem Ordered.getElem?_rank (ho : t.Ordered order) {h : Handle} (hh : h < t.size) :
    order[t.rank h]? = some h := by
  rw [ho.rank_eq, List.getElem?_idxOf ((ho.mem_iff h).mpr hh)]

theorem Ordered.rank_eq_iff (ho : t.Ordered order) {h : Handle} (hh : h < t.size) {i : Nat} :
    t.rank h = i ↔ order[i]? = some h := by
  constructor
  · rintro rfl
    exact ho.getElem?_rank hh
  · intro hi
    obtain ⟨hlt, rfl⟩ := List.getElem?_eq_some_iff.mp hi
    rw [ho.rank_eq, ho.nodup.idxOf_getElem i hlt]

/-- What pre-order has in front of a node are the nodes of smaller ranks. -/
theorem Ordered.mem_before_iff {before after : List Handle} {h : Handle}
    (ho : t.Ordered (before ++ h :: after)) {m : Handle} :
    m ∈ before ↔ m < t.size ∧ t.rank m < t.rank h := by
  have hsize : h < t.size := (ho.mem_iff h).mp (by simp)
  have hrank : t.rank h = before.length := by
    rw [ho.rank_eq_iff hsize]
    simp
  rw [hrank]
  constructor
  · intro hm
    have hmsize : m < t.size := (ho.mem_iff m).mp (List.mem_append_left _ hm)
    obtain ⟨i, hi⟩ := List.getElem?_of_mem hm
    have hlt : i < before.length := (List.getElem?_eq_some_iff.mp hi).1
    have hrankm : t.rank m = i := by
      rw [ho.rank_eq_iff hmsize, List.getElem?_append_left hlt, hi]
    exact ⟨hmsize, hrankm ▸ hlt⟩
  · rintro ⟨hmsize, hlt⟩
    have hat := ho.getElem?_rank hmsize
    rw [List.getElem?_append_left hlt] at hat
    exact List.mem_of_getElem? hat

/-- Different nodes have different ranks. -/
theorem WellFormed.rank_inj (ht : t.WellFormed) {a b : Handle} (ha : a < t.size) (hb : b < t.size)
    (hab : t.rank a = t.rank b) : a = b := by
  obtain ⟨order, ho⟩ := ht.exists_ordered ha
  have hrank := ho.getElem?_rank ha
  rw [hab, ho.getElem?_rank hb] at hrank
  exact (Option.some.inj hrank).symm

theorem WellFormed.rank_eq_rank_iff (ht : t.WellFormed) {a b : Handle} (ha : a < t.size)
    (hb : b < t.size) : t.rank a = t.rank b ↔ a = b :=
  ⟨ht.rank_inj ha hb, congrArg t.rank⟩

theorem WellFormed.rank_lt_size (ht : t.WellFormed) {h : Handle} (hh : h < t.size) :
    t.rank h < t.size := by
  obtain ⟨order, ho⟩ := ht.exists_ordered hh
  rw [ho.rank_eq, ← ho.length_eq]
  exact List.idxOf_lt_length_of_mem ((ho.mem_iff h).mpr hh)

/-- Every number below the size of the tree is the rank of a node. -/
theorem WellFormed.exists_rank_eq (ht : t.WellFormed) {i : Nat} (hi : i < t.size) :
    ∃ h < t.size, t.rank h = i := by
  obtain ⟨order, ho⟩ := ht.exists_ordered hi
  have hlt : i < order.length := by rwa [ho.length_eq]
  have hget : order[i]? = some order[i] := List.getElem?_eq_getElem hlt
  have hmem := (ho.mem_iff _).mp (List.getElem_mem hlt)
  exact ⟨order[i], hmem, (ho.rank_eq_iff hmem).mpr hget⟩

/-- A node of a smaller rank is above the other or on its left. -/
theorem WellFormed.precedes_of_rank_lt (ht : t.WellFormed) {a b : Handle} (ha : a < t.size)
    (hb : b < t.size) (hlt : t.rank a < t.rank b) : t.Precedes a b := by
  obtain ⟨order, ho⟩ := ht.exists_ordered ha
  have hpairs := ho.listed.pairwise ht (List.pairwise_singleton _ _)
  obtain ⟨hi, hia⟩ := List.getElem?_eq_some_iff.mp (ho.getElem?_rank ha)
  obtain ⟨hj, hjb⟩ := List.getElem?_eq_some_iff.mp (ho.getElem?_rank hb)
  have hprecedes := List.pairwise_iff_getElem.mp hpairs _ _ hi hj hlt
  rwa [hia, hjb] at hprecedes

theorem WellFormed.rank_lt_of_leftOf (ht : t.WellFormed) {a b : Handle} (ha : a < t.size)
    (hb : b < t.size) (hab : t.LeftOf a b) : t.rank a < t.rank b := by
  obtain ⟨hbelow, habove⟩ := ht.not_inSubtree_of_leftOf hab
  rcases Nat.lt_trichotomy (t.rank a) (t.rank b) with hlt | heq | hgt
  · exact hlt
  · obtain rfl := ht.rank_inj ha hb heq
    exact absurd .self hbelow
  · rcases ht.precedes_of_rank_lt hb ha hgt with hba | hba
    · exact absurd hba habove
    · exact absurd hba (ht.leftOf_asymm hab)

/-- Pre-order has the subtree of a node in one piece, from the rank of the node on. -/
theorem Ordered.exists_around (ht : t.WellFormed) (ho : t.Ordered order) {h : Handle}
    (hh : h < t.size) : ∃ before piece after, order = before ++ (piece ++ after) ∧
      t.Listed [h] piece ∧ before.length = t.rank h ∧ piece.length = t.subtreeSize h := by
  obtain ⟨before, piece, after, horder, hpiece⟩ :=
    ho.listed.exists_around ((ho.mem_iff h).mpr hh)
  rw [List.append_assoc] at horder
  obtain ⟨inner, rfl, -, -⟩ := hpiece.of_singleton
  have hstart : t.rank h = before.length := by
    rw [ho.rank_eq_iff hh, horder]
    simp
  exact ⟨before, _, after, horder, hpiece, hstart.symm, (ht.subtreeSize_eq_length hpiece).symm⟩

/-- **A subtree is an interval of ranks.** -/
theorem WellFormed.inSubtree_iff_rank (ht : t.WellFormed) {h m : Handle} (hh : h < t.size)
    (hm : m < t.size) :
    t.InSubtree h m ↔ t.rank h ≤ t.rank m ∧ t.rank m < t.rank h + t.subtreeSize h := by
  obtain ⟨order, ho⟩ := ht.exists_ordered hh
  obtain ⟨before, piece, after, rfl, hpiece, hstart, hlength⟩ := ho.exists_around ht hh
  have hmem : t.InSubtree h m ↔ m ∈ piece := by
    simp [hpiece.mem_iff ht]
  rw [hmem, ← hstart, ← hlength]
  constructor
  · intro hin
    obtain ⟨i, hi⟩ := List.getElem?_of_mem hin
    have hlt := (List.getElem?_eq_some_iff.mp hi).1
    have hrank : t.rank m = before.length + i := by
      rw [ho.rank_eq_iff hm, List.getElem?_append_right (Nat.le_add_right _ _),
        Nat.add_sub_cancel_left, List.getElem?_append_left hlt, hi]
    omega
  · rintro ⟨hge, hlt⟩
    have hat := ho.getElem?_rank hm
    rw [List.getElem?_append_right hge, List.getElem?_append_left (by omega)] at hat
    exact List.mem_of_getElem? hat

/-- **What is on the right of a node** begins where its subtree ends. -/
theorem WellFormed.leftOf_iff_rank (ht : t.WellFormed) {h m : Handle} (hh : h < t.size)
    (hm : m < t.size) : t.LeftOf h m ↔ t.rank h + t.subtreeSize h ≤ t.rank m := by
  have hinterval := ht.inSubtree_iff_rank hh hm
  have hself := (ht.inSubtree_iff_rank hh hh).mp .self
  constructor
  · intro hleft
    have hlt := ht.rank_lt_of_leftOf hh hm hleft
    have hout := mt hinterval.mpr (ht.not_inSubtree_of_leftOf hleft).1
    omega
  · intro hge
    have hout : ¬ t.InSubtree h m := by
      rw [hinterval]
      omega
    exact (ht.precedes_of_rank_lt hh hm (by omega)).resolve_left hout

/-- What is above a node, or equal to it, or on its left comes no later in pre-order. -/
theorem WellFormed.rank_le_of_precedes (ht : t.WellFormed) {a b : Handle} (ha : a < t.size)
    (hb : b < t.size) (hab : t.Precedes a b) : t.rank a ≤ t.rank b := by
  rcases hab with hbelow | hleft
  · exact ((ht.inSubtree_iff_rank ha hb).mp hbelow).1
  · exact (ht.rank_lt_of_leftOf ha hb hleft).le

/-- What is on the right of something on the right is on the right. -/
theorem WellFormed.leftOf_trans (ht : t.WellFormed) {a b c : Handle} (ha : a < t.size)
    (hb : b < t.size) (hc : c < t.size) (hab : t.LeftOf a b) (hbc : t.LeftOf b c) :
    t.LeftOf a c := by
  rw [ht.leftOf_iff_rank ha hb] at hab
  rw [ht.leftOf_iff_rank hb hc] at hbc
  rw [ht.leftOf_iff_rank ha hc]
  omega

/-- **What follows a subtree in pre-order** is what is on its right. -/
theorem WellFormed.follows_iff_leftOf (ht : t.WellFormed) {h m : Handle} (hh : h < t.size)
    (hm : m < t.size) : t.Follows h m ↔ t.LeftOf h m := by
  refine ⟨fun hfollows => (ht.leftOf_of_follows hfollows).2, fun hleft => ?_⟩
  obtain ⟨order, ho⟩ := ht.exists_ordered hh
  obtain ⟨before, piece, after, rfl, hpiece, hstart, hlength⟩ := ho.exists_around ht hh
  obtain ⟨inner, rfl, -, -⟩ := hpiece.of_singleton
  have hrank := (ht.leftOf_iff_rank hh hm).mp hleft
  have hat := ho.getElem?_rank hm
  rw [List.getElem?_append_right (by omega), List.getElem?_append_right (by omega)] at hat
  refine ⟨before, inner ++ after, by rw [ho.preorder, List.cons_append], ?_,
    (ht.not_inSubtree_of_leftOf hleft).1⟩
  exact List.mem_append_right _ (List.mem_of_getElem? hat)

/-- The interval of a subtree ends within the tree. -/
theorem WellFormed.rank_add_subtreeSize_le (ht : t.WellFormed) {h : Handle} (hh : h < t.size) :
    t.rank h + t.subtreeSize h ≤ t.size := by
  obtain ⟨order, ho⟩ := ht.exists_ordered hh
  obtain ⟨before, piece, after, horder, -, hstart, hlength⟩ := ho.exists_around ht hh
  rw [← hstart, ← hlength, ← ho.length_eq, horder]
  simp

/-! ## Neighbours in pre-order -/

/-- `b` comes directly after `a` in pre-order. -/
def NextInPreorder (t : Tree α) (a b : Handle) : Prop :=
  ∃ before after, t.preorder = .ok (before ++ a :: b :: after)

/-- **Neighbours in pre-order have neighbouring ranks.** -/
theorem WellFormed.rank_eq_succ_iff (ht : t.WellFormed) {a b : Handle} (ha : a < t.size)
    (hb : b < t.size) : t.rank b = t.rank a + 1 ↔ t.NextInPreorder a b := by
  obtain ⟨order, ho⟩ := ht.exists_ordered ha
  constructor
  · intro hrank
    obtain ⟨before, piece, after, rfl, hpiece, hlength, -⟩ := ho.exists_around ht ha
    obtain ⟨inner, rfl, -, -⟩ := hpiece.of_singleton
    have hnext : (inner ++ after).head? = some b := by
      have hat := ho.getElem?_rank hb
      rw [hrank, ← hlength, List.getElem?_append_right (Nat.le_add_right _ _),
        Nat.add_sub_cancel_left] at hat
      rwa [List.head?_eq_getElem?]
    obtain ⟨rest, hrest⟩ := List.head?_eq_some_iff.mp hnext
    refine ⟨before, rest, ?_⟩
    rw [ho.preorder, List.cons_append, hrest]
  · rintro ⟨before, after, horder⟩
    obtain rfl := Except.ok.inj (ho.preorder.symm.trans horder)
    have hfirst : t.rank a = before.length := (ho.rank_eq_iff ha).mpr (by simp)
    have hsecond : t.rank b = before.length + 1 := (ho.rank_eq_iff hb).mpr (by simp)
    rw [hfirst, hsecond]

/-- The first child of a node comes directly after it. -/
theorem WellFormed.rank_of_head? (ht : t.WellFormed) {p f : Handle}
    (hf : (t.kids p).head? = some f) : t.rank f = t.rank p + 1 := by
  have hfp := (ht.head?_kids_iff.mp hf).1
  have hflt := lt_of_above? hfp
  have hp := Nat.lt_trans (ht.above?_lt hfp) hflt
  obtain ⟨order, ho⟩ := ht.exists_ordered hp
  obtain ⟨before, piece, after, rfl, hpiece, -, -⟩ := ho.exists_around ht hp
  obtain ⟨inner, rfl, -, hinner⟩ := hpiece.of_singleton
  obtain ⟨others, hkids⟩ := List.head?_eq_some_iff.mp hf
  rw [hkids] at hinner
  cases hinner with
  | cons _ _ _ => exact (ht.rank_eq_succ_iff hp hflt).mpr ⟨before, _, ho.preorder⟩

end ClosingBrace.Tree
