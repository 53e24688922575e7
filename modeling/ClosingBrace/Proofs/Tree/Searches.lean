import ClosingBrace.Proofs.Tree.Ranks
import ClosingBrace.Proofs.Tree.Tokens

/-!
# Searches without a limit

The climb to the nearest subtree on the right and the descent to the first token of a subtree are
defined with a limit on their levels. Here both are described step by step as they go, and nothing
limits them. The climb follows parents to ever smaller handles and the descent follows children to
ever larger ones, so from every node both come to an end, and the limits cut nothing short.

## Main statements

* `exists_climbs`, `exists_descends`: both searches end, from every node.
* `nextTokenAfter_eq_ok_iff`: the token after a node is where the two searches lead.
* `nextTokenAfter_of_last`: a last child and its parent are followed by the same token.
-/

namespace ClosingBrace.Tree

variable {t : Tree} {h : Handle}

/-! ## The climb -/

/-- A climb from a node goes along a path, from each node to its parent, as long as there is no next
sibling. It ends with the next sibling of the last node on the path, or at the root with nothing. -/
inductive Climbs (t : Tree) : Handle → List Handle → Option Handle → Prop
  | beside {h s : Handle} : t.nextSibling h = .ok (some s) → Climbs t h [h] (some s)
  | top {h : Handle} : t.nextSibling h = .ok none → t.parent h = .ok none → Climbs t h [h] none
  | up {h p : Handle} {path : List Handle} {found : Option Handle} : t.nextSibling h = .ok none →
      t.parent h = .ok (some p) → Climbs t p path found → Climbs t h (h :: path) found

section Climb
variable {path : List Handle} {found : Option Handle}

/-- A climb goes to ever smaller handles. -/
theorem Climbs.decreasing (ht : t.WellFormed) (hclimb : t.Climbs h path found) :
    path.Pairwise (· > ·) ∧ ∀ a ∈ path, a ≤ h := by
  induction hclimb with
  | beside _ => simp
  | top _ _ => simp
  | @up h p path found _ hp _ ih =>
      obtain ⟨hpairs, hle⟩ := ih
      have hlt := ht.above?_lt (parent_eq_some_iff.mp hp)
      refine ⟨List.pairwise_cons.mpr ⟨fun a ha => Nat.lt_of_le_of_lt (hle a ha) hlt, hpairs⟩, ?_⟩
      intro a ha
      rcases List.mem_cons.mp ha with rfl | ha
      · exact Nat.le_refl _
      · exact Nat.le_of_lt (Nat.lt_of_le_of_lt (hle a ha) hlt)

/-- So it has no more levels than there are handles up to its start. -/
theorem Climbs.length_le (ht : t.WellFormed) (hclimb : t.Climbs h path found) :
    path.length ≤ h + 1 := by
  induction hclimb with
  | beside _ => simp
  | top _ _ => simp
  | @up h p path found _ hp _ ih =>
      exact Nat.succ_le_succ (Nat.le_trans ih (ht.above?_lt (parent_eq_some_iff.mp hp)))

/-- A limit that the climb does not reach makes no difference. -/
theorem Climbs.nextSubtreeWithin_eq (hclimb : t.Climbs h path found) {limit : Nat}
    (hlimit : path.length ≤ limit) : t.nextSubtreeWithin limit (some h) = .ok found := by
  induction hclimb generalizing limit with
  | beside hs =>
      obtain ⟨limit, rfl⟩ := Nat.exists_eq_add_of_le' hlimit
      simp only [List.length_singleton, nextSubtreeWithin, hs, ok_bind]
      rfl
  | top hs hp =>
      obtain ⟨limit, rfl⟩ := Nat.exists_eq_add_of_le' hlimit
      simp only [List.length_singleton, nextSubtreeWithin, hs, hp, ok_bind]
      cases limit <;> rfl
  | up hs hp _ ih =>
      cases limit with
      | zero => simp at hlimit
      | succ limit =>
          simp only [nextSubtreeWithin, hs, hp, ok_bind]
          exact ih (Nat.le_of_succ_le_succ hlimit)

/-- The definition of the token after a node has a limit that no climb reaches. -/
theorem Climbs.nextSubtreeWithin_size (ht : t.WellFormed) (hh : h < t.size)
    (hclimb : t.Climbs h path found) : t.nextSubtreeWithin (t.size + 1) (some h) = .ok found :=
  hclimb.nextSubtreeWithin_eq ((hclimb.length_le ht).trans (Nat.succ_le_succ (Nat.le_of_lt hh)))

/-- **Every climb ends.** -/
theorem WellFormed.exists_climbs (ht : t.WellFormed) (hh : h < t.size) :
    ∃ path found, t.Climbs h path found := by
  induction h using Nat.strongRecOn with
  | _ h ih =>
      have hs := ht.nextSibling_of_lt hh
      cases hright : t.right? h with
      | some s => exact ⟨[h], some s, .beside (hright ▸ hs)⟩
      | none =>
          rw [hright] at hs
          cases hp : t.above? h with
          | none => exact ⟨[h], none, .top hs (hp ▸ parent_of_lt hh)⟩
          | some p =>
              have hlt := ht.above?_lt hp
              obtain ⟨path, found, hclimb⟩ := ih p hlt (Nat.lt_trans hlt hh)
              exact ⟨h :: path, found, .up hs (parent_eq_some_iff.mpr hp) hclimb⟩

end Climb

/-! ## The descent -/

/-- A descent goes through subtrees from left to right and keeps the best node so far; in each
subtree it descends anew, from the top through the children, and what it finds there is the next
candidate. -/
inductive Descends (t : Tree) : List Handle → Handle → Handle → Prop
  | done {best : Handle} : Descends t [] best best
  | next {c best candidate better found : Handle} {cs rest : List Handle} :
      t.children c = .ok cs → Descends t cs c candidate → t.earlier best candidate = .ok better →
      Descends t rest better found → Descends t (c :: rest) best found

section Descent
variable {cs : List Handle} {best found : Handle}

/-- A descent finds one node at most. -/
theorem Descends.unique {other : Handle} (hf : t.Descends cs best found)
    (hg : t.Descends cs best other) : found = other := by
  induction hf generalizing other with
  | done =>
      cases hg
      rfl
  | next hcs _ hbetter _ ihbelow ihrest =>
      cases hg with
      | next hcs' hbelow' hbetter' hrest' =>
          rw [hcs] at hcs'
          cases hcs'
          obtain rfl := ihbelow hbelow'
          rw [hbetter] at hbetter'
          cases hbetter'
          exact ihrest hrest'

/-- To compare the candidates at the end is as good as on the way. -/
theorem descends_of_foldlM {fs : List Handle}
    (hfs : List.Forall₂ (fun c f => ∃ ds, t.children c = .ok ds ∧ t.Descends ds c f) cs fs)
    (hfold : fs.foldlM t.earlier best = .ok found) : t.Descends cs best found := by
  induction hfs generalizing best with
  | nil =>
      cases hfold
      exact .done
  | cons hc _ ih =>
      obtain ⟨ds, hds, hbelow⟩ := hc
      rw [List.foldlM_cons] at hfold
      obtain ⟨better, hbetter, hrest⟩ := bind_eq_ok_iff.mp hfold
      exact .next hds hbelow hbetter (ih hrest)

/-- What a search with a limit finds, a descent finds. -/
theorem WellFormed.descends_of_firstNodeWithin (ht : t.WellFormed) {limit : Nat} (hh : h < t.size)
    (hlimit : t.size ≤ limit + h) (hfound : t.firstNodeWithin limit h = .ok found) :
    t.Descends (t.kids h) h found := by
  induction limit generalizing h found with
  | zero => exact absurd hh (Nat.not_lt.mpr (Nat.zero_add h ▸ hlimit))
  | succ limit ih =>
      simp only [firstNodeWithin, children_of_lt hh, ok_bind] at hfound
      obtain ⟨fs, hfs, hfold⟩ := bind_eq_ok_iff.mp hfound
      refine descends_of_foldlM ?_ hfold
      have hfs := mapM_eq_ok_iff.mp hfs
      have hbelow := (List.forall₂_and_left _ _).mpr ⟨fun c hc => ht.lt_of_mem_kids hc, hfs⟩
      refine hbelow.imp ?_
      rintro c f ⟨⟨hlt, hc⟩, hf⟩
      refine ⟨t.kids c, children_of_lt hc, ih hc (hlimit.trans ?_) hf⟩
      rw [Nat.add_right_comm]
      exact Nat.add_le_add_left hlt limit

/-- **Every descent ends**, and a limit of as many levels as there are larger handles makes no
difference. -/
theorem WellFormed.exists_descends (ht : t.WellFormed) (hh : h < t.size) :
    ∃ found, t.Descends (t.kids h) h found ∧
      ∀ limit, t.size ≤ limit + h → t.firstNodeWithin limit h = .ok found := by
  obtain ⟨found, hfound, -⟩ := ht.firstNode_yields hh
  have hdescends := ht.descends_of_firstNodeWithin hh (Nat.le_add_right _ _) hfound
  refine ⟨found, hdescends, fun limit hlimit => ?_⟩
  obtain ⟨other, hother, -⟩ := ht.firstNodeWithin_yields hh hlimit
  rw [hother, hdescends.unique (ht.descends_of_firstNodeWithin hh hlimit hother)]

end Descent

/-! ## The token after a node -/

/-- The search for the token after a node climbs to a subtree on the right and descends into it. -/
inductive Seeks (t : Tree) (h : Handle) : Option Handle → Prop
  | absent {path : List Handle} : t.Climbs h path none → Seeks t h none
  | present {s f : Handle} {path cs : List Handle} : t.Climbs h path (some s) →
      t.children s = .ok cs → t.Descends cs s f → Seeks t h (some f)

/-- Every search ends. -/
theorem WellFormed.exists_seeks (ht : t.WellFormed) (hh : h < t.size) : ∃ x, t.Seeks h x := by
  obtain ⟨path, found, hclimb⟩ := ht.exists_climbs hh
  cases found with
  | none => exact ⟨none, .absent hclimb⟩
  | some s =>
      have hnext := ht.nextSubtreeWithin_yields hh (Nat.lt_succ_of_lt hh)
      obtain ⟨hs, -⟩ := hnext.of_ok (hclimb.nextSubtreeWithin_size ht hh)
      obtain ⟨f, hdescends, -⟩ := ht.exists_descends hs
      exact ⟨some f, .present hclimb (children_of_lt hs) hdescends⟩

theorem WellFormed.nextTokenAfter_of_seeks (ht : t.WellFormed) (hh : h < t.size)
    {x : Option Handle} (hx : t.Seeks h x) : t.nextTokenAfter (some h) = .ok x := by
  cases hx with
  | absent hclimb =>
      rw [nextTokenAfter, hclimb.nextSubtreeWithin_size ht hh]
      rfl
  | present hclimb hcs hdescends =>
      obtain ⟨hs, rfl⟩ := children_eq_ok_iff.mp hcs
      obtain ⟨f, hf, hfirst⟩ := ht.exists_descends hs
      obtain rfl := hf.unique hdescends
      rw [nextTokenAfter, hclimb.nextSubtreeWithin_size ht hh, ok_bind]
      simp only [firstNode, hfirst t.size (Nat.le_add_right _ _), ok_bind]
      rfl

/-- **The token after a node** is where the search without a limit leads. -/
theorem WellFormed.nextTokenAfter_eq_ok_iff (ht : t.WellFormed) (hh : h < t.size)
    {x : Option Handle} : t.nextTokenAfter (some h) = .ok x ↔ t.Seeks h x := by
  refine ⟨fun hx => ?_, ht.nextTokenAfter_of_seeks hh⟩
  obtain ⟨y, hy⟩ := ht.exists_seeks hh
  rw [ht.nextTokenAfter_of_seeks hh hy] at hx
  cases hx
  exact hy

/-- The token after a node is later in pre-order. -/
theorem WellFormed.rank_lt_of_nextTokenAfter (ht : t.WellFormed) (hh : h < t.size) {f : Handle}
    (hf : t.nextTokenAfter (some h) = .ok (some f)) : f < t.size ∧ t.rank h < t.rank f := by
  obtain ⟨hlt, hright⟩ := ht.leftOf_of_nextTokenAfter hh hf
  exact ⟨hlt, ht.rank_lt_of_leftOf hh hlt hright⟩

/-- **A last child and its parent are followed by the same token.** -/
theorem WellFormed.nextTokenAfter_of_last (ht : t.WellFormed) {p c : Handle}
    (hlast : t.lastChild p = .ok (some c)) :
    t.nextTokenAfter (some c) = t.nextTokenAfter (some p) := by
  obtain ⟨hp, hnone⟩ := ht.lastChild_eq_some_iff.mp hlast
  have hc := lt_of_above? hp
  have hlt := Nat.lt_trans (ht.above?_lt hp) hc
  -- Without a sibling on the right the climb goes on from the parent.
  have hup {path : List Handle} {found : Option Handle} (hclimb : t.Climbs p path found) :
      t.Climbs c (c :: path) found :=
    .up (hnone ▸ ht.nextSibling_of_lt hc) (parent_eq_some_iff.mpr hp) hclimb
  obtain ⟨x, hx⟩ := ht.exists_seeks hlt
  rw [ht.nextTokenAfter_of_seeks hlt hx]
  apply ht.nextTokenAfter_of_seeks hc
  cases hx with
  | absent hclimb => exact .absent (hup hclimb)
  | present hclimb hcs hdescends => exact .present (hup hclimb) hcs hdescends

end ClosingBrace.Tree
