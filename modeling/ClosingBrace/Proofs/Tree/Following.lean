import ClosingBrace.Proofs.Outcome
import ClosingBrace.Proofs.Tree.Listing

/-!
# What stands to the right of a node

Two different nodes are either above one another, or they stand side by side: each is in the subtree
of a child of one node, and the children tell which of the two is on the left. In pre-order the
nodes that follow a whole subtree are those to the right of its top. The nearest subtree on the
right, which is found by climbing, has all of them in itself or on its own right.

## Main statements

* `Listed.pairwise`: pre-order goes from above to below and from left to right.
* `nextSubtreeWithin_yields`: what climbing finds, and why nothing is missed.
-/

namespace ClosingBrace.Tree

variable {α : Type} {t : Tree α}

/-- Of two children of one node, the subtree of the first holds `a` and that of the second `b`. -/
def LeftOf (t : Tree α) (a b : Handle) : Prop :=
  ∃ (p : Handle) (i j : Nat) (c d : Handle), (t.kids p)[i]? = some c ∧
    (t.kids p)[j]? = some d ∧ i < j ∧ t.InSubtree c a ∧ t.InSubtree d b

/-- `a` is above `b`, or equal to it, or on its left. -/
def Precedes (t : Tree α) (a b : Handle) : Prop := t.InSubtree a b ∨ t.LeftOf a b

/-- To be on the left is shared by everything below. -/
theorem LeftOf.below {a b x y : Handle} (hab : t.LeftOf a b) (hax : t.InSubtree a x)
    (hby : t.InSubtree b y) : t.LeftOf x y := by
  obtain ⟨p, i, j, c, d, hc, hd, hij, hca, hdb⟩ := hab
  exact ⟨p, i, j, c, d, hc, hd, hij, hca.trans hax, hdb.trans hby⟩

/-! ## Pre-order -/

/-- Different children of one node stand side by side. -/
theorem pairwise_kids_leftOf (p : Handle) :
    (t.kids p).Pairwise fun c d => ∀ x y, t.InSubtree c x → t.InSubtree d y → t.LeftOf x y := by
  rw [List.pairwise_iff_getElem]
  intro i j hi hj hij x y hx hy
  exact ⟨p, i, j, _, _, List.getElem?_eq_getElem hi, List.getElem?_eq_getElem hj, hij, hx, hy⟩

/-- **Pre-order** goes from above to below and from left to right. -/
theorem Listed.pairwise (ht : t.WellFormed) {hs ns : List Handle} (h : t.Listed hs ns)
    (hbeside : hs.Pairwise fun a b => ∀ x y, t.InSubtree a x → t.InSubtree b y → t.LeftOf x y) :
    ns.Pairwise t.Precedes := by
  induction h with
  | nil => exact List.Pairwise.nil
  | @cons a cs rest inner later hcs hinner hlater ihinner ihlater =>
      obtain ⟨-, rfl⟩ := children_eq_ok_iff.mp hcs
      obtain ⟨ha, hrest⟩ := List.pairwise_cons.mp hbeside
      have hbelow {x : Handle} (hx : x ∈ inner) : t.InSubtree a x :=
        ht.inSubtree_iff.mpr (.inr ((hinner.mem_iff ht).mp hx))
      have hright {x y : Handle} (hax : t.InSubtree a x) (hy : y ∈ later) : t.LeftOf x y := by
        obtain ⟨b, hb, hby⟩ := (hlater.mem_iff ht).mp hy
        exact ha b hb x y hax hby
      rw [List.pairwise_cons, List.pairwise_append]
      refine ⟨?_, ihinner (pairwise_kids_leftOf a), ihlater hrest, ?_⟩
      · intro x hx
        rcases List.mem_append.mp hx with hx | hx
        · exact .inl (hbelow hx)
        · exact .inr (hright .self hx)
      · intro x hx y hy
        exact .inr (hright (hbelow hx) hy)

/-- `m` comes after the whole subtree of `h` when the nodes are taken in pre-order. -/
def Follows (t : Tree α) (h m : Handle) : Prop :=
  ∃ before after, t.preorder = .ok (before ++ h :: after) ∧ m ∈ after ∧ ¬ t.InSubtree h m

/-- What follows a subtree is on its right. -/
theorem WellFormed.leftOf_of_follows (ht : t.WellFormed) {h m : Handle} (hm : t.Follows h m) :
    m < t.size ∧ t.LeftOf h m := by
  obtain ⟨before, after, horder, hmem, hbelow⟩ := hm
  have hsize : 0 < t.size := by
    refine Nat.pos_of_ne_zero fun hzero => ?_
    have hroot : t.root = .error .noRoot := by simp [root, ht.root_eq, hzero]
    simp [preorder, hroot, bind, Except.bind] at horder
  obtain ⟨order, hlisted, hperm, -⟩ := ht.exists_preorder hsize
  rw [ht.preorder_eq_ok hlisted] at horder
  cases horder
  constructor
  · have hmem' : m ∈ before ++ h :: after :=
      List.mem_append_right _ (List.mem_cons_of_mem _ hmem)
    rwa [hperm.mem_iff, List.mem_range] at hmem'
  · have hpairs := hlisted.pairwise ht (List.pairwise_singleton _ _)
    rw [List.pairwise_append] at hpairs
    exact ((List.pairwise_cons.mp hpairs.2.1).1 m hmem).resolve_left hbelow

/-! ## The nearest subtree on the right -/

/-- What the nearest subtree on the right of a node is: it is on the right, and whatever else is on
the right is in it or on its right. If it is absent, nothing is on the right. -/
def IsNextSubtree (t : Tree α) (h : Handle) : Option Handle → Prop
  | some s => s < t.size ∧ t.LeftOf h s ∧ ∀ m, t.LeftOf h m → t.InSubtree s m ∨ t.LeftOf s m
  | none => ∀ m, ¬ t.LeftOf h m

/-- What is on the right of a node is on the right of its parent, unless the two sides part at the
node itself. -/
theorem WellFormed.leftOf_cases (ht : t.WellFormed) {h p m : Handle} (hp : t.above? h = some p)
    (hm : t.LeftOf h m) :
    t.LeftOf p m ∨ ∃ (j : Nat) (d : Handle), t.place h < j ∧ (t.kids p)[j]? = some d ∧
      t.InSubtree d m := by
  obtain ⟨q, i, j, c, d, hc, hd, hij, hch, hdm⟩ := hm
  cases hch with
  | self =>
      obtain ⟨hq, rfl⟩ := ht.kids_iff.mp hc
      rw [hp] at hq
      cases hq
      exact .inr ⟨j, d, hij, hd, hdm⟩
  | step hcp hparent =>
      rw [parent_eq_some_iff, hp] at hparent
      cases hparent
      exact .inl ⟨q, i, j, c, d, hc, hd, hij, hcp, hdm⟩

theorem WellFormed.isNextSubtree_of_right? (ht : t.WellFormed) {h s : Handle}
    (hs : t.right? h = some s) : t.IsNextSubtree h (some s) := by
  obtain ⟨p, hp, hsp, hplace⟩ := ht.right?_eq_some_iff.mp hs
  have hh : (t.kids p)[t.place h]? = some h := ht.kids_iff.mpr ⟨hp, rfl⟩
  have hlisted : (t.kids p)[t.place s]? = some s := ht.kids_iff.mpr ⟨hsp, rfl⟩
  refine ⟨lt_of_above? hsp, ⟨p, _, _, h, s, hh, hlisted, by omega, .self, .self⟩, ?_⟩
  intro m hm
  rcases ht.leftOf_cases hp hm with ⟨q, i, j, c, d, hc, hd, hij, hcp, hdm⟩ | ⟨j, d, hj, hd, hdm⟩
  · -- The sides part above the parent, which has the sibling below it too.
    exact .inr ⟨q, i, j, c, d, hc, hd, hij, .step hcp (parent_eq_some_iff.mpr hsp), hdm⟩
  · by_cases hjs : j = t.place s
    · rw [hjs, hlisted] at hd
      cases hd
      exact .inl hdm
    · exact .inr ⟨p, _, j, s, d, hlisted, hd, by omega, .self, hdm⟩

/-- Without a sibling on the right, the same things are on the right of a node and of its parent. -/
theorem WellFormed.leftOf_iff_of_right?_eq_none (ht : t.WellFormed) {h p m : Handle}
    (hp : t.above? h = some p) (hnone : t.right? h = none) : t.LeftOf h m ↔ t.LeftOf p m := by
  constructor
  · intro hm
    refine (ht.leftOf_cases hp hm).resolve_right ?_
    rintro ⟨j, d, hj, hd, -⟩
    unfold right? at hnone
    rw [hp, Option.bind_some, List.getElem?_eq_none_iff] at hnone
    have hlt := (List.getElem?_eq_some_iff.mp hd).1
    omega
  · intro hm
    exact hm.below (.of_above? hp) .self

/-- **Climbing finds the nearest subtree on the right.** It climbs to smaller handles, so a climb of
more levels than the handle says is not cut short. -/
theorem WellFormed.nextSubtreeWithin_yields (ht : t.WellFormed) {climb : Nat} {h : Handle}
    (hh : h < t.size) (hclimb : h < climb) :
    Yields (t.nextSubtreeWithin climb (some h)) (t.IsNextSubtree h) := by
  induction climb generalizing h with
  | zero => exact absurd hclimb (Nat.not_lt_zero h)
  | succ climb ih =>
      simp only [nextSubtreeWithin, ht.nextSibling_of_lt hh, parent_of_lt hh]
      cases hs : t.right? h with
      | some s => exact .ok (ht.isNextSubtree_of_right? hs)
      | none =>
          cases hp : t.above? h with
          | none =>
              refine ⟨none, by cases climb <;> rfl, fun m hm => ?_⟩
              obtain ⟨q, i, j, c, d, hc, -, -, hch, -⟩ := hm
              -- The node is the root, which is below no child.
              rw [ht.root_of_above? hh hp] at hch
              have hlt := (ht.kids_getElem?_lt hc).1
              exact absurd (Nat.lt_of_lt_of_le hlt (ht.le_of_inSubtree hch)) (Nat.not_lt_zero q)
          | some p =>
              have hlt := ht.above?_lt hp
              -- The parent has the same nodes on its right, so its answer is the one sought.
              obtain ⟨found, hfound, hnext⟩ :=
                ih (Nat.lt_trans hlt hh) (Nat.lt_of_lt_of_le hlt (Nat.le_of_lt_succ hclimb))
              refine ⟨found, hfound, ?_⟩
              cases found with
              | none =>
                  intro m hm
                  exact hnext m ((ht.leftOf_iff_of_right?_eq_none hp hs).mp hm)
              | some s =>
                  obtain ⟨hlts, hps, hrest⟩ := hnext
                  refine ⟨hlts, (ht.leftOf_iff_of_right?_eq_none hp hs).mpr hps, fun m hm => ?_⟩
                  exact hrest m ((ht.leftOf_iff_of_right?_eq_none hp hs).mp hm)

end ClosingBrace.Tree
