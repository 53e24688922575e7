import ClosingBrace.Number.Double
import ClosingBrace.Proofs.Tree.Tokens

/-!
# Trees with unchecked positions

Nobody checks the lines and columns of nodes that are added by hand, so some of them may be NaN. The
search for the first token asks nothing of a tree but its links and which node stands before which,
and it asks this of the nodes of one subtree only. So it never leaves the subtree; and where the
lines and columns of the subtree are numbers, it ends as in a tree that has numbers everywhere.

## Main statements

* `SameLinks.firstNode_both`: two trees that agree on a subtree have the same first token in it.
* `WellFormed.firstNode_inSubtree`: the first token of a subtree belongs to it.
* `HasNumbers.firstNode_eq`: NaN elsewhere in the tree makes no difference.
-/

namespace ClosingBrace.Tree

/-! ## The search in two trees -/

section Both
variable {α β : Type} [Inhabited α] [LT α] [DecidableLT α] [BEq α]
  [Inhabited β] [LT β] [DecidableLT β] [BEq β] {t : Tree α} {u : Tree β} {n : Handle}

/-- In two trees with the same links, in which the same nodes of a subtree stand before each other,
the search finds the same node of the subtree. -/
theorem SameLinks.firstNodeWithin_both (hlinks : SameLinks t u) (ht : t.WellFormed)
    (hn : n < t.size)
    (hbefore : ∀ a b, t.InSubtree n a → t.InSubtree n b → (u.IsBefore a b ↔ t.IsBefore a b))
    (depth : Nat) {h : Handle} (hh : t.InSubtree n h) :
    BothYield (fun a b => a = b ∧ t.InSubtree n a) (t.firstNodeWithin depth h)
      (u.firstNodeWithin depth h) := by
  have hearlier : ∀ best best' candidate candidate', (best = best' ∧ t.InSubtree n best) →
      (candidate = candidate' ∧ t.InSubtree n candidate) →
      BothYield (fun a b => a = b ∧ t.InSubtree n a) (t.earlier best candidate)
        (u.earlier best' candidate') := by
    rintro best _ candidate _ ⟨rfl, hbest⟩ ⟨rfl, hcandidate⟩
    have hb := hbest.lt_size hn
    have hc := hcandidate.lt_size hn
    simp only [earlier, isBefore_eq hc hb, isBefore_eq (hlinks.size_eq.symm ▸ hc)
      (hlinks.size_eq.symm ▸ hb), ok_bind, hbefore candidate best hcandidate hbest]
    apply BothYield.ite
    · exact fun _ => .ok ⟨rfl, hcandidate⟩
    · exact fun _ => .ok ⟨rfl, hbest⟩
  induction depth generalizing h with
  | zero => exact .ok ⟨rfl, hh⟩
  | succ depth ih =>
      have hchild : ∀ c d, (c = d ∧ c ∈ t.kids h) →
          BothYield (fun a b => a = b ∧ t.InSubtree n a) (t.firstNodeWithin depth c)
            (u.firstNodeWithin depth d) := by
        rintro c _ ⟨rfl, hc⟩
        exact ih (hh.trans (.of_above? (ht.mem_kids_iff.mp hc)))
      have hsame : List.Forall₂ (fun c d => c = d ∧ c ∈ t.kids h) (t.kids h) (t.kids h) :=
        List.forall₂_same.mpr fun c hc => ⟨rfl, hc⟩
      unfold firstNodeWithin
      rw [hlinks.children_eq, children_of_lt (hh.lt_size hn)]
      refine (BothYield.mapM hsame hchild).bind fun fs gs hfs => ?_
      exact BothYield.foldlM hfs hearlier ⟨rfl, hh⟩

/-- **Two trees that agree on a subtree** have the same first token in it. -/
theorem SameLinks.firstNode_both (hlinks : SameLinks t u) (ht : t.WellFormed) (hn : n < t.size)
    (hbefore : ∀ a b, t.InSubtree n a → t.InSubtree n b → (u.IsBefore a b ↔ t.IsBefore a b)) :
    BothYield (fun a b => a = b ∧ t.InSubtree n a) (t.firstNode n) (u.firstNode n) := by
  unfold firstNode
  rw [hlinks.size_eq]
  exact hlinks.firstNodeWithin_both ht hn hbefore t.size .self

end Both

/-- **The first token of a subtree belongs to it**, however positions compare. -/
theorem WellFormed.firstNode_inSubtree {α : Type} [Inhabited α] [LT α] [DecidableLT α] [BEq α]
    {t : Tree α} (ht : t.WellFormed) {n : Handle} (hn : n < t.size) :
    Yields (t.firstNode n) (t.InSubtree n) := by
  obtain ⟨f, _, hfound, -, -, hf⟩ :=
    (SameLinks.refl t).firstNode_both ht hn fun _ _ _ _ => Iff.rfl
  exact ⟨f, hfound, hf⟩

/-! ## Numbers in place of NaN -/

/-- The tree with zero in place of NaN. -/
def numbered (t : Tree Double) : Tree where
  lines := t.lines
  nodes := t.nodes.map fun n =>
    ⟨n.kind, n.line.value, n.column.value, n.parent, n.index, n.children⟩
  root? := t.root?

/-- The lines and columns of a subtree are numbers. -/
def HasNumbers (t : Tree Double) (n : Handle) : Prop :=
  ∀ m, t.InSubtree n m → (t.lineAt m).isNumber ∧ (t.columnAt m).isNumber

variable {t : Tree Double} {n : Handle}

theorem sameLinks_numbered (t : Tree Double) : SameLinks t t.numbered where
  root_eq := rfl
  size_eq := Array.size_map
  kids_eq h := by
    rw [kids, kids, numbered, Array.getElem?_map, Option.map_map]
    rfl
  above?_eq h := by
    rw [above?, above?, numbered, Array.getElem?_map, Option.bind_map]
    rfl
  place_eq h := by
    rw [place, place, numbered, Array.getElem?_map, Option.map_map]
    rfl

theorem lineAt_numbered (h : Handle) : t.numbered.lineAt h = (t.lineAt h).value := by
  rw [lineAt, lineAt, numbered, Array.getElem?_map]
  cases t.nodes[h]? <;> rfl

theorem columnAt_numbered (h : Handle) : t.numbered.columnAt h = (t.columnAt h).value := by
  rw [columnAt, columnAt, numbered, Array.getElem?_map]
  cases t.nodes[h]? <;> rfl

/-- Between nodes whose lines and columns are numbers the order is the same. -/
theorem HasNumbers.isBefore_numbered (hnumbers : t.HasNumbers n) {a b : Handle}
    (ha : t.InSubtree n a) (hb : t.InSubtree n b) :
    t.numbered.IsBefore a b ↔ t.IsBefore a b := by
  obtain ⟨hline, hcolumn⟩ := hnumbers a ha
  obtain ⟨hline', hcolumn'⟩ := hnumbers b hb
  simp only [IsBefore, lineAt_numbered, columnAt_numbered, Double.lt_iff, Double.beq_iff,
    beq_iff_eq, hline, hline', hcolumn, hcolumn', true_and]

/-- **NaN elsewhere in the tree makes no difference**: the first token of a subtree is that in the
tree with zero in place of NaN. -/
theorem HasNumbers.firstNode_eq (hnumbers : t.HasNumbers n) (ht : t.WellFormed) (hn : n < t.size) :
    t.firstNode n = t.numbered.firstNode n :=
  (((sameLinks_numbered t).firstNode_both ht hn fun _ _ => hnumbers.isBefore_numbered).mono
    fun _ _ h => h.1).eq

end ClosingBrace.Tree
