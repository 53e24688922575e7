import ClosingBrace.Proofs.Tree.Ranks
import ClosingBrace.Proofs.Tree.Unchecked

/-!
# The first token of a subtree in pre-order

The search for the first token of a subtree keeps the best node so far and lets it win a tie. What
it finds is told here by positions and pre-order alone: no node of the subtree stands before it in
the source, and those that come before it in pre-order stand strictly behind it. There is one such
node only, and it is the top of the subtree if nothing below stands before the top.

All this is so where lines and columns are numbers. A node at NaN stands neither before nor behind
any other, so it hides what is below it from the nodes above.

## Main statements

* `IsEarliest.leads`, `Leads.unique`: the earliest node of a subtree leads it, and no other does.
* `firstNode_leads`: the search finds the one node that leads the subtree.
* `firstNode_misses_below_nan`: it misses an earlier node below a node at NaN.
-/

namespace ClosingBrace.Tree

/-! ## The leading node -/

section Leads
variable {α : Type} [Inhabited α] [LT α] [BEq α] {t : Tree α} {n f g : Handle}

/-- The node `f` leads the subtree of `n`: it is the earliest of its nodes, and of several earliest
ones the first in pre-order. -/
structure Leads (t : Tree α) (n f : Handle) : Prop where
  inSubtree : t.InSubtree n f
  least : ∀ m, t.InSubtree n m → ¬ t.IsBefore m f
  first : ∃ before after, t.preorder = .ok (before ++ f :: after) ∧
    ∀ m ∈ before, t.InSubtree n m → t.IsBefore f m
  /-- The top of the subtree leads it if nothing below stands before the top. -/
  top : (∀ m, t.InSubtree n m → ¬ t.IsBefore m n) → f = n

/-- One node at most leads a subtree. -/
theorem Leads.unique (ht : t.WellFormed) (hn : n < t.size) (hf : t.Leads n f)
    (hg : t.Leads n g) : g = f := by
  obtain ⟨order, ho⟩ := ht.exists_ordered hn
  have hsize {a : Handle} (ha : t.Leads n a) : a < t.size := ha.inSubtree.lt_size hn
  -- Neither of two leading nodes can be in front of the other, as no node stands before either.
  have hle {a b : Handle} (ha : t.Leads n a) (hb : t.Leads n b) : t.rank b ≤ t.rank a := by
    obtain ⟨before, after, horder, hfirst⟩ := hb.first
    obtain rfl := Except.ok.inj (ho.preorder.symm.trans horder)
    apply Nat.le_of_not_lt
    intro hlt
    have hmem : a ∈ before := ho.mem_before_iff.mpr ⟨hsize ha, hlt⟩
    exact ha.least b hb.inSubtree (hfirst a hmem ha.inSubtree)
  exact ht.rank_inj (hsize hg) (hsize hf) (Nat.le_antisymm (hle hf hg) (hle hg hf))

end Leads

/-- The earliest node of a subtree leads it. -/
theorem IsEarliest.leads {t : Tree} {n f : Handle} (ht : t.WellFormed) (hn : n < t.size)
    (hf : t.IsEarliest (t.InSubtree n) f) : t.Leads n f where
  inSubtree := hf.mem
  least m hm := by
    rw [isBefore_iff_position]
    exact not_lt.mpr (hf.position_le hm)
  first := by
    obtain ⟨order, ho⟩ := ht.exists_ordered hn
    obtain ⟨before, after, rfl⟩ := List.append_of_mem ((ho.mem_iff f).mpr hf.lt_size)
    refine ⟨before, after, ho.preorder, ?_⟩
    intro m hm hbelow
    rw [isBefore_iff_position]
    obtain ⟨hmsize, hlt⟩ := ho.mem_before_iff.mp hm
    rcases hf.least m hbelow with hbefore | ⟨-, hprecedes⟩
    · exact hbefore
    · -- On a tie `f` would come first, but pre-order has `m` in front of it.
      have hle := ht.rank_le_of_precedes hf.lt_size hmsize hprecedes
      exact absurd hlt (Nat.not_lt.mpr hle)
  top hleast := by
    rcases hf.least n .self with hbefore | ⟨-, hprecedes⟩
    · exact absurd (isBefore_iff_position.mpr hbefore) (hleast f hf.mem)
    · -- The top comes first in its subtree, so `f` cannot come before it.
      have hle := ht.rank_le_of_precedes hf.lt_size hn hprecedes
      have hge := ht.rank_le_of_precedes hn hf.lt_size (.inl hf.mem)
      exact ht.rank_inj hf.lt_size hn (Nat.le_antisymm hle hge)

/-! ## What the search finds -/

variable {t : Tree Double} {n f : Handle}

/-- What leads a subtree with numbers for lines and columns does so whatever the other lines and
columns are. -/
theorem HasNumbers.leads_of_numbered (hnumbers : t.HasNumbers n) (hf : t.numbered.Leads n f) :
    t.Leads n f := by
  have hlinks := sameLinks_numbered t
  obtain ⟨hbelow, hleast, ⟨before, after, horder, hfirst⟩, htop⟩ := hf
  rw [hlinks.inSubtree_iff] at hbelow
  rw [hlinks.preorder_eq] at horder
  refine ⟨hbelow, ?_, ⟨before, after, horder, ?_⟩, ?_⟩
  · intro m hm
    rw [← hnumbers.isBefore_numbered hm hbelow]
    exact hleast m (hlinks.inSubtree_iff.mpr hm)
  · intro m hmem hm
    rw [← hnumbers.isBefore_numbered hbelow hm]
    exact hfirst m hmem (hlinks.inSubtree_iff.mpr hm)
  · intro hnone
    refine htop fun m hm => ?_
    rw [hlinks.inSubtree_iff] at hm
    rw [hnumbers.isBefore_numbered hm .self]
    exact hnone m hm

/-- **The search for the first token finds a node of the subtree**, in every tree that additions
lead to, whatever the positions of its nodes are; **and it is the one that leads the subtree**,
unless a line or a column in the subtree is NaN. -/
theorem firstNode_leads (ht : t.Reachable) (hn : n < t.size) :
    ∃ f, t.firstNode n = .ok f ∧ t.InSubtree n f ∧
      (t.HasNumbers n → t.Leads n f ∧ ∀ g, t.Leads n g → g = f) := by
  have hwf := ht.wellFormed
  have hlinks := sameLinks_numbered t
  obtain ⟨f, hfound, hbelow⟩ := hwf.firstNode_inSubtree hn
  refine ⟨f, hfound, hbelow, ?_⟩
  intro hnumbers
  have hn' : n < t.numbered.size := hlinks.size_eq.symm ▸ hn
  have hwf' := hlinks.wellFormed hwf
  rw [hnumbers.firstNode_eq hwf hn] at hfound
  have hearliest := (hwf'.firstNode_yields hn').of_ok hfound
  have hleads := hnumbers.leads_of_numbered (hearliest.leads hwf' hn')
  exact ⟨hleads, fun g hg => hleads.unique hwf hn hg⟩

/-- An operator that stands behind its first operand, in a tree whose root is at NaN. Two nodes of
its subtree are the earliest, and the one that was added last comes first in pre-order. -/
theorem firstNode_leads_of_late_operand :
    let t : Tree Double := replay "" [⟨.compilationUnit, .nan, 9, none⟩, ⟨.assign, 1, 5, some 0⟩,
      ⟨.dot, 1, 3, some 1⟩, ⟨.identifier, 1, 2, some 1⟩, ⟨.identifier, 1, 2, some 2⟩]
    t.Reachable ∧ 1 < t.size ∧ t.HasNumbers 1 ∧ t.preorder = .ok [0, 1, 2, 4, 3] ∧
      t.firstNode 1 = .ok 4 ∧ t.Leads 1 4 ∧ ∀ g, t.Leads 1 g → g = 4 := by
  intro t
  have ht : t.Reachable := reachable_replay _ _
  have hsize : 1 < t.size := by decide +kernel
  have horder : t.preorder = .ok [0, 1, 2, 4, 3] := by decide +kernel
  have hfour : t.firstNode 1 = .ok 4 := by decide +kernel
  have hall : ∀ m < t.size, 1 ≤ m → (t.lineAt m).isNumber ∧ (t.columnAt m).isNumber := by
    decide +kernel
  have hnumbers : t.HasNumbers 1 := fun m hm =>
    hall m (hm.lt_size hsize) (ht.wellFormed.le_of_inSubtree hm)
  obtain ⟨f, hfound, -, hleads⟩ := firstNode_leads ht hsize
  obtain rfl := Except.ok.inj (hfour.symm.trans hfound)
  obtain ⟨hleads, hunique⟩ := hleads hnumbers
  exact ⟨ht, hsize, hnumbers, horder, hfour, hleads, hunique⟩

/-- A node at NaN between the root and a node that stands before the root. -/
theorem firstNode_misses_below_nan :
    let t : Tree Double := replay "" [⟨.statementList, 5, 0, none⟩,
      ⟨.statementList, .nan, 0, some 0⟩, ⟨.statementList, 1, 0, some 1⟩]
    t.Reachable ∧ 0 < t.size ∧ t.firstNode 0 = .ok 0 ∧ t.InSubtree 0 2 ∧ t.IsBefore 2 0 ∧
      ¬ t.Leads 0 0 := by
  intro t
  have ht : t.Reachable := reachable_replay _ _
  have hbelow : t.InSubtree 0 2 := ht.wellFormed.inSubtree_root (by decide +kernel)
  have hbefore : t.IsBefore 2 0 := by decide +kernel
  exact ⟨ht, by decide +kernel, by decide +kernel, hbelow, hbefore,
    fun hleads => hleads.least 2 hbelow hbefore⟩

end ClosingBrace.Tree
