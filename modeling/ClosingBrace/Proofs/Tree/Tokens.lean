import ClosingBrace.Proofs.Number.Rounding
import ClosingBrace.Proofs.Tree.Following
import Mathlib.Data.Prod.Lex

/-!
# Tokens and their positions

The first token of a subtree is the earliest of its nodes, whatever the positions are: the search
goes through the children from left to right and keeps the best so far, so of several earliest nodes
the first in pre-order wins. The token after a construct is the first one of the nearest subtree on
the right. In a tree whose positions follow the order of its nodes that one token comes before
everything else that follows the construct.

## Main statements

* `firstNode_yields`: what the first token of a subtree is.
* `nextTokenAfter_yields`: what the token after a construct is.
* `SourceOrdered.position_le_of_isNextToken`: the token after a construct bounds all that follows.
-/

namespace ClosingBrace.Tree

/-! ## Positions -/

section Before
variable {α : Type} [Inhabited α] [LT α] [BEq α]

/-- A node stands strictly before another in the source: on an earlier line, or on the same line in
an earlier column. -/
def IsBefore (t : Tree α) (a b : Handle) : Prop :=
  t.lineAt a < t.lineAt b ∨ t.lineAt a == t.lineAt b ∧ t.columnAt a < t.columnAt b

instance [DecidableLT α] (t : Tree α) (a b : Handle) : Decidable (t.IsBefore a b) :=
  inferInstanceAs (Decidable (_ ∨ _ ∧ _))

theorem isBefore_eq [DecidableLT α] {t : Tree α} {a b : Handle} (ha : a < t.size)
    (hb : b < t.size) : t.isBefore a b = .ok (decide (t.IsBefore a b)) := by
  have hna : t.nodes[a]? = some t.nodes[a] := Array.getElem?_eq_getElem ha
  have hnb : t.nodes[b]? = some t.nodes[b] := Array.getElem?_eq_getElem hb
  simp [isBefore, IsBefore, lineAt, columnAt, node_of_lt ha, node_of_lt hb, hna, hnb, bind,
    Except.bind, pure, Except.pure]

end Before

variable {t : Tree}

/-- Where a node stands in the source: by line, and within a line by column. -/
def position (t : Tree) (h : Handle) : Number ×ₗ Number := toLex (t.lineAt h, t.columnAt h)

theorem isBefore_iff_position {a b : Handle} : t.IsBefore a b ↔ t.position a < t.position b := by
  rw [IsBefore, beq_iff_eq, position, position, Prod.Lex.toLex_lt_toLex]

theorem isBefore_of_lt {a b : Handle} (ha : a < t.size) (hb : b < t.size) :
    t.isBefore a b = .ok (decide (t.position a < t.position b)) := by
  simp only [isBefore_eq ha hb, isBefore_iff_position]

theorem lineAt_le_of_position_le {a b : Handle} (h : t.position a ≤ t.position b) :
    t.lineAt a ≤ t.lineAt b := by
  unfold position at h
  rw [Prod.Lex.toLex_le_toLex] at h
  rcases h with hlt | ⟨heq, -⟩
  · exact hlt.le
  · exact heq.le

/-! ## The first token of a subtree -/

/-- The earliest of some nodes; of several earliest ones it is the first in pre-order. -/
structure IsEarliest (t : Tree) (among : Handle → Prop) (f : Handle) : Prop where
  lt_size : f < t.size
  mem : among f
  least : ∀ m, among m →
    t.position f < t.position m ∨ t.position f = t.position m ∧ t.Precedes f m

theorem IsEarliest.position_le {among : Handle → Prop} {f m : Handle} (hf : t.IsEarliest among f)
    (hm : among m) : t.position f ≤ t.position m := by
  rcases hf.least m hm with hlt | ⟨heq, -⟩
  · exact hlt.le
  · exact heq.le

/-- The earlier one of two earliest nodes is the earliest of both groups, when the first group
precedes the second. -/
theorem earlier_yields {seen further : Handle → Prop} {best candidate : Handle}
    (hbest : t.IsEarliest seen best) (hcandidate : t.IsEarliest further candidate)
    (hsides : ∀ x y, seen x → further y → t.Precedes x y) :
    Yields (t.earlier best candidate) (t.IsEarliest fun m => seen m ∨ further m) := by
  unfold earlier
  rw [isBefore_of_lt hcandidate.lt_size hbest.lt_size]
  by_cases hlt : t.position candidate < t.position best
  · refine ⟨candidate, by simp [hlt, bind, Except.bind, pure, Except.pure],
      hcandidate.lt_size, .inr hcandidate.mem, ?_⟩
    rintro m (hm | hm)
    · exact .inl (hlt.trans_le (hbest.position_le hm))
    · exact hcandidate.least m hm
  · refine ⟨best, by simp [hlt, bind, Except.bind, pure, Except.pure],
      hbest.lt_size, .inl hbest.mem, ?_⟩
    rintro m (hm | hm)
    · exact hbest.least m hm
    · -- On a tie the best node so far wins, and it does precede what is further on.
      have hle := (not_lt.mp hlt).trans (hcandidate.position_le hm)
      rcases hle.lt_or_eq with hlt | heq
      · exact .inl hlt
      · exact .inr ⟨heq, hsides best m hbest.mem hm⟩

/-- Going through the earliest nodes of subtrees from left to right leads to the earliest of all. -/
theorem foldlM_earlier_yields {cs fs : List Handle}
    (hfs : List.Forall₂ (fun c f => t.IsEarliest (t.InSubtree c) f) cs fs)
    (hpairs : cs.Pairwise fun c d => ∀ x y, t.InSubtree c x → t.InSubtree d y → t.LeftOf x y)
    {seen : Handle → Prop} {best : Handle} (hbest : t.IsEarliest seen best)
    (hsides : ∀ c ∈ cs, ∀ x y, seen x → t.InSubtree c y → t.Precedes x y) :
    Yields (fs.foldlM t.earlier best)
      (t.IsEarliest fun m => seen m ∨ ∃ c ∈ cs, t.InSubtree c m) := by
  induction hfs generalizing seen best with
  | nil => exact .ok (by simpa using hbest)
  | @cons c f cs fs hf _ ih =>
      obtain ⟨hc, hpairs⟩ := List.pairwise_cons.mp hpairs
      rw [List.foldlM_cons]
      refine (earlier_yields hbest hf (hsides c List.mem_cons_self)).bind fun next hnext => ?_
      have hrest := ih hpairs hnext ?_
      · simpa only [List.mem_cons, exists_eq_or_imp, or_assoc] using hrest
      · rintro d hd x y (hx | hx) hy
        · exact hsides d (List.mem_cons_of_mem _ hd) x y hx hy
        · exact .inr (hc d hd x y hx hy)

theorem WellFormed.firstNodeWithin_yields (ht : t.WellFormed) {depth : Nat} {h : Handle}
    (hh : h < t.size) (hdepth : t.size ≤ depth + h) :
    Yields (t.firstNodeWithin depth h) (t.IsEarliest (t.InSubtree h)) := by
  induction depth generalizing h with
  | zero => exact absurd hh (Nat.not_lt.mpr (Nat.zero_add h ▸ hdepth))
  | succ depth ih =>
      have hchild : ∀ c ∈ t.kids h,
          Yields (t.firstNodeWithin depth c) (t.IsEarliest (t.InSubtree c)) := by
        intro c hc
        obtain ⟨hlt, hcsize⟩ := ht.lt_of_mem_kids hc
        refine ih hcsize (hdepth.trans ?_)
        rw [Nat.add_right_comm]
        exact Nat.add_le_add_left hlt depth
      -- The search begins with the node itself, which stands above everything that it meets.
      have hself : t.IsEarliest (· = h) h :=
        ⟨hh, rfl, fun m hm => .inr ⟨hm ▸ rfl, hm ▸ .inl .self⟩⟩
      simp only [firstNodeWithin, children_of_lt hh]
      refine (Yields.mapM hchild).bind fun fs hfs => ?_
      have hfold := foldlM_earlier_yields hfs (pairwise_kids_leftOf h) hself ?_
      · simpa only [← ht.inSubtree_iff] using hfold
      · rintro c hc x y rfl hy
        exact .inl (ht.inSubtree_iff.mpr (.inr ⟨c, hc, hy⟩))

/-- **The first token of a subtree** is its earliest node. -/
theorem WellFormed.firstNode_yields (ht : t.WellFormed) {h : Handle} (hh : h < t.size) :
    Yields (t.firstNode h) (t.IsEarliest (t.InSubtree h)) :=
  ht.firstNodeWithin_yields hh (Nat.le_add_right _ _)

/-! ## The token after a construct -/

/-- What the token after a node is: the first one of the nearest subtree on the right. -/
def IsNextToken (t : Tree) (h : Handle) : Option Handle → Prop
  | some f => ∃ s, t.IsNextSubtree h (some s) ∧ t.IsEarliest (t.InSubtree s) f
  | none => t.IsNextSubtree h none

/-- **The token after a node** can always be looked for, and is what it should be. -/
theorem WellFormed.nextTokenAfter_yields (ht : t.WellFormed) {h : Handle} (hh : h < t.size) :
    Yields (t.nextTokenAfter (some h)) (t.IsNextToken h) := by
  unfold nextTokenAfter
  refine (ht.nextSubtreeWithin_yields hh (Nat.lt_succ_of_lt hh)).bind fun next hnext => ?_
  cases next with
  | none => exact .ok hnext
  | some s =>
      refine (ht.firstNode_yields hnext.1).bind fun f hf => ?_
      exact .ok ⟨s, hnext, hf⟩

/-- The token after a node is on the right of everything below the node. -/
theorem IsNextToken.leftOf {h f x : Handle} (hf : t.IsNextToken h (some f))
    (hx : t.InSubtree h x) : t.LeftOf x f := by
  obtain ⟨s, ⟨-, hleft, -⟩, hearliest⟩ := hf
  exact hleft.below hx hearliest.mem

theorem WellFormed.leftOf_of_nextTokenAfter (ht : t.WellFormed) {h f : Handle} (hh : h < t.size)
    (hf : t.nextTokenAfter (some h) = .ok (some f)) : f < t.size ∧ t.LeftOf h f := by
  have htoken := (ht.nextTokenAfter_yields hh).of_ok hf
  have hright := htoken.leftOf .self
  obtain ⟨s, -, hearliest⟩ := htoken
  exact ⟨hearliest.lt_size, hright⟩

/-! ## Trees in source order -/

/-- Of two children of one node, everything below the first stands where everything below the
second does or before it. -/
def SourceOrdered (t : Tree) : Prop :=
  ∀ p cs, t.children p = .ok cs → cs.Pairwise fun c d =>
    ∀ x y, t.InSubtree c x → t.InSubtree d y → t.position x ≤ t.position y

/-- Whether everything below the first node stands where everything below the second does or before
it, by trying all pairs. -/
def inOrder (t : Tree) (c d : Handle) : Bool :=
  (List.range t.size).all fun x => (List.range t.size).all fun y =>
    !((t.pathUp t.size x).contains c && (t.pathUp t.size y).contains d) ||
      t.position x ≤ t.position y

/-- Whether a tree is source-ordered can be computed. -/
theorem WellFormed.sourceOrdered_of_inOrder (ht : t.WellFormed)
    (h : ∀ p < t.size, (t.kids p).Pairwise (t.inOrder · ·)) : t.SourceOrdered := by
  intro p cs hcs
  obtain ⟨hp, rfl⟩ := children_eq_ok_iff.mp hcs
  refine (h p hp).imp_of_mem ?_
  intro c d hc hd hcd x y hcx hdy
  have hx := hcx.lt_size (ht.lt_of_mem_kids hc).2
  have hy := hdy.lt_size (ht.lt_of_mem_kids hd).2
  unfold inOrder at hcd
  simp only [List.all_eq_true, List.mem_range] at hcd
  have hxy := hcd x hx y hy
  simp only [List.contains_iff_mem.mpr ((ht.mem_pathUp_iff hx).mpr hcx),
    List.contains_iff_mem.mpr ((ht.mem_pathUp_iff hy).mpr hdy)] at hxy
  exact of_decide_eq_true hxy

theorem SourceOrdered.position_le (hs : t.SourceOrdered) {a b : Handle} (hab : t.LeftOf a b) :
    t.position a ≤ t.position b := by
  obtain ⟨p, i, j, c, d, hc, hd, hij, hca, hdb⟩ := hab
  have hp : p < t.size := by
    refine Decidable.byContradiction fun hp => ?_
    rw [(links_of_not_lt hp).1] at hc
    cases hc
  have hpairs := List.pairwise_iff_getElem.mp (hs p _ (children_of_lt hp))
  obtain ⟨hi, rfl⟩ := List.getElem?_eq_some_iff.mp hc
  obtain ⟨hj, rfl⟩ := List.getElem?_eq_some_iff.mp hd
  exact hpairs i j hi hj hij a b hca hdb

/-- **One token bounds the rest**: nothing on the right of a node stands before its next token. -/
theorem SourceOrdered.position_le_of_isNextToken (hs : t.SourceOrdered) {h f m : Handle}
    (hf : t.IsNextToken h (some f)) (hm : t.LeftOf h m) : t.position f ≤ t.position m := by
  obtain ⟨s, ⟨-, -, hrest⟩, hearliest⟩ := hf
  -- Within the nearest subtree the token is the earliest; beyond it the order of the tree decides.
  rcases hrest m hm with hsm | hsm
  · exact hearliest.position_le hsm
  · exact hs.position_le (hsm.below hearliest.mem .self)

/-- What is below a node stands at or before its next token. -/
theorem SourceOrdered.le_position_of_isNextToken (hs : t.SourceOrdered) {h f x : Handle}
    (hf : t.IsNextToken h (some f)) (hx : t.InSubtree h x) : t.position x ≤ t.position f :=
  hs.position_le (hf.leftOf hx)

end ClosingBrace.Tree
