import ClosingBrace.Proofs.Brace.Questions
import ClosingBrace.Proofs.Tree.Searches

/-!
# Skipping else branches

A block on one line must not share it with the next token that is no else branch. To find that token
a loop goes on from one else branch to the token after it, as often as needed. It may go up and
down in the tree and back and forth in the source, whatever the positions of the nodes are. But the
token after a node is always later in pre-order, so no else branch is passed twice, and the loop
ends in every tree and from every node.

## Main statements

* `Skips.increasing`, `Skips.length_le`: what one step and what the whole loop keeps.
* `exists_skips`: the loop ends, from every node.
* `searches_end`: the loop and all searches end that two questions about a brace start.
-/

namespace ClosingBrace

variable {t : Tree}

namespace Tree

/-! ## The loop -/

/-- The loop from a node that may be absent. It passes else branches and goes on from each to the
token after it; it stops at the first token that is no else branch, or behind the last one. -/
inductive Skips (t : Tree) : Option Handle → List Handle → Option Handle → Prop
  | stop {x : Option Handle} : t.isKind x .elseBranch = .ok false → Skips t x [] x
  | pass {e : Handle} {x stop : Option Handle} {passed : List Handle} :
      t.kind e = .ok .elseBranch → t.nextTokenAfter (some e) = .ok x → Skips t x passed stop →
      Skips t (some e) (e :: passed) stop

namespace Skips
variable {x stop : Option Handle} {passed : List Handle}

/-- What the loop passes are else branches. -/
theorem isElse (hskips : t.Skips x passed stop) : ∀ e ∈ passed, t.kind e = .ok .elseBranch := by
  induction hskips with
  | stop _ => simp
  | pass he _ _ ih =>
      intro e hmem
      rcases List.mem_cons.mp hmem with rfl | hmem
      · exact he
      · exact ih e hmem

/-- **Every step goes to a later node**, so the whole loop goes on in pre-order from its start. -/
theorem increasing (ht : t.WellFormed) (hskips : t.Skips x passed stop) :
    passed.Pairwise (t.rank · < t.rank ·) ∧ ∀ e ∈ passed, ∀ a ∈ x, t.rank a ≤ t.rank e := by
  induction hskips with
  | stop _ => simp
  | @pass e x stop passed he hx hrest ih =>
      obtain ⟨hpairs, hfrom⟩ := ih
      have hlater : ∀ b ∈ passed, t.rank e < t.rank b := by
        intro b hb
        cases hrest with
        | stop _ => cases hb
        | pass _ _ _ =>
            have hlt := (ht.rank_lt_of_nextTokenAfter (kind_eq_ok_iff.mp he).1 hx).2
            exact Nat.lt_of_lt_of_le hlt (hfrom b hb _ rfl)
      refine ⟨List.pairwise_cons.mpr ⟨hlater, hpairs⟩, ?_⟩
      rintro b hb _ ⟨⟩
      rcases List.mem_cons.mp hb with rfl | hb
      · exact Nat.le_refl _
      · exact Nat.le_of_lt (hlater b hb)

theorem nodup (ht : t.WellFormed) (hskips : t.Skips x passed stop) : passed.Nodup := by
  refine List.Pairwise.imp ?_ (hskips.increasing ht).1
  rintro a _ hlt rfl
  exact Nat.lt_irrefl _ hlt

/-- **The loop runs at most as often as there are else branches.** -/
theorem length_le (ht : t.WellFormed) (hskips : t.Skips x passed stop) :
    passed.length ≤ {e | t.kind e = .ok .elseBranch}.ncard := by
  have hfinite : {e | t.kind e = .ok .elseBranch}.Finite :=
    (Set.finite_lt_nat t.size).subset fun e he => (kind_eq_ok_iff.mp he).1
  have hsubset : (passed.toFinset : Set Handle) ⊆ {e | t.kind e = .ok .elseBranch} := by
    intro e he
    exact hskips.isElse e (by simpa using he)
  rw [← List.toFinset_card_of_nodup (hskips.nodup ht), ← Set.ncard_coe_finset]
  exact Set.ncard_le_ncard hsubset hfinite

/-- So it runs no more often than the tree has nodes. -/
theorem length_le_size (ht : t.WellFormed) (hskips : t.Skips x passed stop) :
    passed.length ≤ t.size := by
  have hsubset : passed ⊆ List.range t.size := by
    intro e he
    exact List.mem_range.mpr (kind_eq_ok_iff.mp (hskips.isElse e he)).1
  simpa using ((hskips.nodup ht).subperm hsubset).length_le

/-- A limit on the steps makes no difference if the loop does not reach it. -/
theorem skipElse_eq (hskips : t.Skips x passed stop) {steps : Nat}
    (hsteps : passed.length ≤ steps) : BracedContext.skipElse t steps x = .ok stop := by
  induction hskips generalizing steps with
  | stop hx =>
      cases steps with
      | zero => rfl
      | succ steps =>
          simp only [BracedContext.skipElse, hx, ok_bind]
          rfl
  | @pass e _ _ _ he hx _ ih =>
      cases steps with
      | zero => simp at hsteps
      | succ steps =>
          have helse : t.isKind (some e) .elseBranch = .ok true := by
            simp only [isKind, he, ok_bind]
            rfl
          simp only [BracedContext.skipElse, helse, hx, ok_bind, if_true]
          exact ih (Nat.le_of_succ_le_succ hsteps)

end Skips

/-- **The loop ends**, from every node. -/
theorem WellFormed.exists_skips (ht : t.WellFormed) {x : Option Handle} (hx : t.Known x) :
    ∃ passed stop, t.Skips x passed stop := by
  cases x with
  | none => exact ⟨[], none, .stop (isKind_none t _)⟩
  | some h =>
      have hh := hx h rfl
      -- What is left of pre-order behind the node grows shorter with every step.
      induction hleft : t.size - t.rank h using Nat.strongRecOn generalizing h with
      | _ left ih =>
          have hkind := kind_of_lt hh
          by_cases helse : t.kindAt h = .elseBranch
          · rw [helse] at hkind
            obtain ⟨next, hnext, hknown⟩ := ht.nextTokenAfter_known hx
            cases next with
            | none => exact ⟨[h], none, .pass hkind hnext (.stop (isKind_none t _))⟩
            | some f =>
                obtain ⟨hf, hlt⟩ := ht.rank_lt_of_nextTokenAfter hh hnext
                have hshorter : t.size - t.rank f < left := by
                  have hend := ht.rank_lt_size hf
                  omega
                obtain ⟨passed, stop, hrest⟩ := ih _ hshorter f hknown hf rfl
                exact ⟨h :: passed, stop, .pass hkind hnext hrest⟩
          · refine ⟨[], some h, .stop ?_⟩
            simp only [isKind, hkind, ok_bind, helse]
            rfl

/-! ## Every search ends -/

/-- The searches that begin at a node end, and the limits of their definitions do not matter. -/
structure SearchesEnd (t : Tree) (h : Handle) : Prop where
  /-- The climb goes to ever smaller handles. -/
  climb : ∃ path found, t.Climbs h path found ∧ path.Pairwise (· > ·) ∧ path.length ≤ t.size ∧
    ∀ limit, path.length ≤ limit → t.nextSubtreeWithin limit (some h) = .ok found
  /-- The descent goes to ever larger ones. -/
  descent : ∃ cs found, t.children h = .ok cs ∧ (∀ c ∈ cs, h < c) ∧ t.Descends cs h found ∧
    ∀ limit, t.size ≤ limit + h → t.firstNodeWithin limit h = .ok found
  /-- Together they lead to a node that is later in pre-order, if to any. -/
  next : ∃ x, t.Seeks h x ∧ t.nextTokenAfter (some h) = .ok x ∧ ∀ f ∈ x, t.rank h < t.rank f

theorem WellFormed.searchesEnd (ht : t.WellFormed) {h : Handle} (hh : h < t.size) :
    t.SearchesEnd h where
  climb := by
    obtain ⟨path, found, hclimb⟩ := ht.exists_climbs hh
    exact ⟨path, found, hclimb, (hclimb.decreasing ht).1, (hclimb.length_le ht).trans hh,
      fun limit hlimit => hclimb.nextSubtreeWithin_eq hlimit⟩
  descent := by
    obtain ⟨found, hdescends, hlimit⟩ := ht.exists_descends hh
    exact ⟨t.kids h, found, children_of_lt hh, fun c hc => (ht.lt_of_mem_kids hc).1, hdescends,
      hlimit⟩
  next := by
    obtain ⟨x, hx⟩ := ht.exists_seeks hh
    have hnext := ht.nextTokenAfter_of_seeks hh hx
    refine ⟨x, hx, hnext, ?_⟩
    rintro f rfl
    exact (ht.rank_lt_of_nextTokenAfter hh hnext).2

end Tree

/-- **Everything ends that the questions about a brace start.** Let any nodes of a tree be taken for
the landmarks of a brace. The loop over the else branches passes each of them at most once, from one
to a later one in pre-order, and then stops. From every node of the tree the climb, the descent and
the two of them together end. So whether the block stands on one line and whether the brace is the
inner one of two is always decided. -/
theorem searches_end (ht : t.Reachable) {c : BracedContext} (hleft : c.left < t.size)
    (hright : c.right < t.size) (hnext : t.Known c.next) :
    (∃ passed stop, t.Skips c.next passed stop ∧ passed.Pairwise (t.rank · < t.rank ·) ∧
      passed.length ≤ {e | t.kind e = .ok .elseBranch}.ncard ∧ passed.length ≤ t.size ∧
      ∀ steps, passed.length ≤ steps → BracedContext.skipElse t steps c.next = .ok stop) ∧
    (∀ h < t.size, t.SearchesEnd h) ∧
    (∃ single, c.isSingleLine t = .ok single) ∧ ∃ double, c.isDoubleBrace t = .ok double := by
  have hwf := ht.wellFormed
  refine ⟨?_, fun h hh => hwf.searchesEnd hh, ?_⟩
  · obtain ⟨passed, stop, hskips⟩ := hwf.exists_skips hnext
    exact ⟨passed, stop, hskips, (hskips.increasing hwf).1, hskips.length_le hwf,
      hskips.length_le_size hwf, fun steps hsteps => hskips.skipElse_eq hsteps⟩
  · -- Alike trees decide both in the same way, and a tree is like itself.
    have hself : c.Related t.Same c := ⟨⟨hleft, rfl⟩, ⟨hright, rfl⟩, hnext.rel_self, rfl⟩
    exact ⟨(BracedContext.isSingleLine_alike hwf.alike_self hself).exists_ok,
      (BracedContext.isDoubleBrace_alike hwf.alike_self hself).exists_ok⟩

/-- Landmarks that belong to no construct, in a tree whose nodes were added from the outside to the
inside. The loop goes from an else branch within the if statement to an else branch with a smaller
handle, and from there to the condition of a do loop, which stands left of the loop. -/
theorem searches_end_of_odd_shape :
    let t := Tree.replay "if (a) else\nelse\nwhile do" [⟨.compilationUnit, 1, 0, none⟩,
      ⟨.ifStatement, 1, 0, some 0⟩, ⟨.elseBranch, 2, 0, some 0⟩, ⟨.doStatement, 3, 6, some 0⟩,
      ⟨.elseBranch, 1, 7, some 1⟩, ⟨.doCondition, 3, 0, some 3⟩, ⟨.statementList, 3, 8, some 3⟩]
    let c : BracedContext := ⟨1, 6, some 4, true⟩
    t.Reachable ∧ c.left < t.size ∧ c.right < t.size ∧ t.Known c.next ∧
      t.Skips c.next [4, 2] (some 5) ∧
      (∃ passed stop, t.Skips c.next passed stop ∧ passed.Pairwise (t.rank · < t.rank ·) ∧
        passed.length ≤ {e | t.kind e = .ok .elseBranch}.ncard ∧ passed.length ≤ t.size ∧
        ∀ steps, passed.length ≤ steps → BracedContext.skipElse t steps c.next = .ok stop) ∧
      (∀ h < t.size, t.SearchesEnd h) ∧
      (∃ single, c.isSingleLine t = .ok single) ∧ ∃ double, c.isDoubleBrace t = .ok double := by
  intro t c
  have ht : t.Reachable := Tree.reachable_replay _ _
  have hleft : c.left < t.size := by decide +kernel
  have hright : c.right < t.size := by decide +kernel
  have hnext : t.Known c.next := Tree.known_some (by decide +kernel)
  have hskips : t.Skips c.next [4, 2] (some 5) := by
    refine .pass (by decide +kernel) (x := some 2) (by decide +kernel) ?_
    refine .pass (by decide +kernel) (x := some 5) (by decide +kernel) ?_
    exact .stop (by decide +kernel)
  exact ⟨ht, hleft, hright, hnext, hskips, searches_end ht hleft hright hnext⟩

end ClosingBrace
