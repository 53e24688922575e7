import ClosingBrace.Proofs.Tree.Outlines
import ClosingBrace.Proofs.Tree.Tokens

/-!
# Numbering

An outline is entered in pre-order, so in its tree the handle of a node is its rank, and the handles
of a subtree follow one another without a gap. The token after a construct is the first one of the
subtree with which the numbers go on behind the construct; in a tree whose nodes were added in
another order, ranks take the place of handles.

## Main statements

* `listed_ofOutline`: the tree of an outline has its handles in pre-order.
* `rank_ofOutline`: in the tree of an outline handles are ranks.
* `nextTokenAfter_behind_interval`: the token after a node belongs to the number behind its subtree.
-/

namespace ClosingBrace.Tree

/-! ## Handles in the tree of an outline -/

variable (source : String) (o : Outline)

/-- The tree of an outline has its handles in pre-order. -/
theorem listed_ofOutline : (ofOutline source o).Listed [0] (List.range o.size) := by
  rw [List.range_eq_range']
  exact (holds_ofOutline source o).listed

/-- **In the tree of an outline handles are ranks.** -/
theorem rank_ofOutline {h : Handle} (hh : h < (ofOutline source o).size) :
    (ofOutline source o).rank h = h := by
  obtain ⟨order, ho⟩ := (reachable_ofOutline source o).wellFormed.exists_ordered hh
  obtain rfl := ho.listed.unique (listed_ofOutline source o)
  rw [ho.rank_eq_iff hh]
  rw [size_ofOutline] at hh
  simp [hh]

/-! ## The token after a construct -/

variable {t : Tree} {h : Handle}

/-- The nearest subtree on the right of a node has the rank at which the subtree of the node ends,
and it hangs below a node above that node. -/
theorem WellFormed.rank_of_isNextSubtree (ht : t.WellFormed) (hh : h < t.size) {e : Handle}
    (he : t.IsNextSubtree h (some e)) : t.rank e = t.rank h + t.subtreeSize h := by
  obtain ⟨hlt, hleft, hnearest⟩ := he
  have hstart := (ht.leftOf_iff_rank hh hlt).mp hleft
  -- The node at the end of the interval is on the right too, so it cannot come before `e`.
  obtain ⟨m, hm, hrank⟩ := ht.exists_rank_eq (hstart.trans_lt (ht.rank_lt_size hlt))
  have hmright := (ht.leftOf_iff_rank hh hm).mpr hrank.ge
  rcases hnearest m hmright with hbelow | hright
  · have hle := ((ht.inSubtree_iff_rank hlt hm).mp hbelow).1
    omega
  · have hlater := ht.rank_lt_of_leftOf hlt hm hright
    omega

/-- The next sibling of a node without children comes directly after the node. -/
theorem WellFormed.rank_of_right?_of_leaf (ht : t.WellFormed) {h s : Handle}
    (hs : t.right? h = some s) (hleaf : t.children h = .ok []) : t.rank s = t.rank h + 1 := by
  have hh := (children_eq_ok_iff.mp hleaf).1
  rw [ht.rank_of_isNextSubtree hh (ht.isNextSubtree_of_right? hs),
    ht.subtreeSize_eq_length (.singleton hleaf .nil), List.length_singleton]

/-- What stands where the subtree of a node ends hangs below a node above that node. -/
theorem WellFormed.exists_parent_above (ht : t.WellFormed) (hh : h < t.size) {e : Handle}
    (he : e < t.size) (hrank : t.rank e = t.rank h + t.subtreeSize h) :
    ∃ p, t.parent e = .ok (some p) ∧ p ≠ h ∧ t.InSubtree p h := by
  have hself := (ht.inSubtree_iff_rank hh hh).mp .self
  have hout : ¬ t.InSubtree h e := by
    rw [ht.inSubtree_iff_rank hh he]
    omega
  cases hp : t.above? e with
  | none =>
      -- The root comes before all nodes, but `e` comes after `h`.
      obtain rfl := ht.root_of_above? he hp
      have hle := ((ht.inSubtree_iff_rank he hh).mp (ht.inSubtree_root hh)).1
      omega
  | some p =>
      have hlt := Nat.lt_trans (ht.above?_lt hp) he
      have hne : p ≠ h := by
        rintro rfl
        exact hout (.of_above? hp)
      refine ⟨p, parent_eq_some_iff.mpr hp, hne, ?_⟩
      have hpe := (ht.inSubtree_iff_rank hlt he).mp (.of_above? hp)
      have hapart : t.rank p ≠ t.rank e :=
        fun h => Nat.ne_of_lt (ht.above?_lt hp) (ht.rank_inj hlt he h)
      -- A parent within the interval of `h` would have `e` in it as well.
      have hbefore : ¬ t.InSubtree h p := fun h => hout (h.trans (.of_above? hp))
      rw [ht.inSubtree_iff_rank hh hlt] at hbefore
      rw [ht.inSubtree_iff_rank hlt hh]
      omega

/-- What the token after a node is when `number` numbers the nodes of the tree: it is looked for
from the number on with which the subtree of the node ends. -/
structure FollowsInterval (t : Tree) (number : Handle → Nat) (h : Handle) : Prop where
  /-- There is no token exactly if the tree ends with the subtree. -/
  absent_iff : t.nextTokenAfter (some h) = .ok none ↔ number h + t.subtreeSize h = t.size
  /-- Otherwise the next number is that of a node below a node above, and the token is the first
  one of its subtree. -/
  present : number h + t.subtreeSize h ≠ t.size → ∃ e p f, e < t.size ∧
    number e = number h + t.subtreeSize h ∧ t.parent e = .ok (some p) ∧ p ≠ h ∧
    t.InSubtree p h ∧ t.firstNode e = .ok f ∧ t.nextTokenAfter (some h) = .ok (some f)
  /-- The token is neither above nor below the node, and its number is greater than all numbers of
  the subtree. -/
  apart : ∀ f, t.nextTokenAfter (some h) = .ok (some f) → f < t.size ∧ ¬ t.InSubtree h f ∧
    ¬ t.InSubtree f h ∧ ∀ m, t.InSubtree h m → number m < number f

/-- **The token after a node** in terms of ranks. -/
theorem WellFormed.followsInterval_rank (ht : t.WellFormed) (hh : h < t.size) :
    t.FollowsInterval t.rank h := by
  obtain ⟨found, hfound, hnext⟩ := ht.nextSubtreeWithin_yields hh (Nat.lt_succ_of_lt hh)
  have hend := ht.rank_add_subtreeSize_le hh
  cases found with
  | none =>
      have hnone : t.nextTokenAfter (some h) = .ok none := by
        simp [nextTokenAfter, hfound, ok_bind, pure, Except.pure]
      have hsum : t.rank h + t.subtreeSize h = t.size := by
        refine Nat.le_antisymm hend (Nat.le_of_not_lt fun hlt => ?_)
        obtain ⟨m, hm, hrank⟩ := ht.exists_rank_eq hlt
        exact hnext m ((ht.leftOf_iff_rank hh hm).mpr hrank.ge)
      constructor
      · simp [hnone, hsum]
      · intro hne
        exact absurd hsum hne
      · intro f hf
        rw [hnone] at hf
        cases hf
  | some e =>
      have he := hnext.1
      have hrank := ht.rank_of_isNextSubtree hh hnext
      obtain ⟨f, hf, hearliest⟩ := ht.firstNode_yields he
      have hsome : t.nextTokenAfter (some h) = .ok (some f) := by
        simp [nextTokenAfter, hfound, hf, ok_bind, pure, Except.pure]
      have hlt := ht.rank_lt_size he
      have hleft : t.LeftOf h f := hnext.2.1.below .self hearliest.mem
      constructor
      · rw [hsome]
        constructor
        · intro hnone
          cases hnone
        · intro hsum
          omega
      · intro _
        obtain ⟨p, hp, hne, habove⟩ := ht.exists_parent_above hh he hrank
        exact ⟨e, p, f, he, hrank, hp, hne, habove, hf, hsome⟩
      · intro g hg
        rw [hsome] at hg
        cases hg
        have hsides := ht.not_inSubtree_of_leftOf hleft
        refine ⟨hearliest.lt_size, hsides.1, hsides.2, fun m hm => ?_⟩
        exact ht.rank_lt_of_leftOf (hm.lt_size hh) hearliest.lt_size (hleft.below hm .self)

/-- Nodes may be numbered by anything that agrees with a numbering. -/
theorem FollowsInterval.congr {number number' : Handle → Nat} (hf : t.FollowsInterval number h)
    (hh : h < t.size) (hsame : ∀ m < t.size, number' m = number m) :
    t.FollowsInterval number' h where
  absent_iff := by
    rw [hsame h hh]
    exact hf.absent_iff
  present := by
    rw [hsame h hh]
    intro hne
    obtain ⟨e, p, f, he, hnumber, hrest⟩ := hf.present hne
    exact ⟨e, p, f, he, (hsame e he).trans hnumber, hrest⟩
  apart := by
    intro f hnext
    obtain ⟨hlt, hbelow, habove, hlater⟩ := hf.apart f hnext
    refine ⟨hlt, hbelow, habove, fun m hm => ?_⟩
    rw [hsame m (hm.lt_size hh), hsame f hlt]
    exact hlater m hm

/-- **The token after a construct** is the first one behind it. In the tree of an outline the handle
of a node and the size of its subtree add up to the handle behind the subtree; there the next token
is looked for, unless the tree ends. In every tree that additions lead to the same holds of ranks. -/
theorem nextTokenAfter_behind_interval :
    (∀ (source : String) (o : Outline) (h : Handle), h < (ofOutline source o).size →
      (ofOutline source o).FollowsInterval id h) ∧
    ∀ t : Tree, t.Reachable → ∀ h < t.size, t.FollowsInterval t.rank h := by
  constructor
  · intro source o h hh
    have ht := (reachable_ofOutline source o).wellFormed
    exact (ht.followsInterval_rank hh).congr hh fun m hm => (rank_ofOutline source o hm).symm
  · intro t ht h hh
    exact ht.wellFormed.followsInterval_rank hh

/-- An if statement and an assignment behind it, whose operator stands above the operands and right
of the first one: once as an outline, and once with the block filled after all else was added. -/
theorem nextTokenAfter_behind_interval_of_assignment :
    let t := ofOutline "if (a) \x7b\x7d\nb = c" (.node .compilationUnit 1 0 [
      .node .ifStatement 1 0 [.node .statementList 1 7 [.node .rightCurly 1 8 []]],
      .node .assign 2 2 [.node .identifier 2 0 [], .node .identifier 2 4 []]])
    let u := replay "if (a) \x7b\x7d\nb = c" [⟨.compilationUnit, 1, 0, none⟩,
      ⟨.ifStatement, 1, 0, some 0⟩, ⟨.assign, 2, 2, some 0⟩, ⟨.identifier, 2, 0, some 2⟩,
      ⟨.identifier, 2, 4, some 2⟩, ⟨.statementList, 1, 7, some 1⟩, ⟨.rightCurly, 1, 8, some 5⟩]
    (2 < t.size ∧ t.FollowsInterval id 2 ∧ t.nextTokenAfter (some 2) = .ok (some 5)) ∧
      u.Reachable ∧ 5 < u.size ∧ u.FollowsInterval u.rank 5 ∧
      u.nextTokenAfter (some 5) = .ok (some 3) := by
  intro t u
  have ht : 2 < t.size := by decide +kernel
  have hu : u.Reachable := reachable_replay _ _
  have hsize : 5 < u.size := by decide +kernel
  have hfollows := nextTokenAfter_behind_interval
  exact ⟨⟨ht, hfollows.1 _ _ 2 ht, by decide +kernel⟩, hu, hsize, hfollows.2 u hu 5 hsize,
    by decide +kernel⟩

end ClosingBrace.Tree
