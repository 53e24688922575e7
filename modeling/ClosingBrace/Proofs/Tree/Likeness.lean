import ClosingBrace.Proofs.Tree.Answers

/-!
# Alike trees

Two trees are alike under a relation of their nodes when related nodes cannot be told apart by
moving through the trees and comparing what is met: they have the same kind and related children in
the same order, and of two pairs of related nodes one is on one line, or in source order, exactly
when the other is. Handles do not count, and neither do positions beyond such comparisons. Every
question about related nodes then has related answers.

## Main statements

* `Alike.parent`, `Alike.nextSibling`, `Alike.previousSibling`: related nodes have related links.
* `Alike.firstNode`, `Alike.nextTokenAfter`: they have related tokens.
* `Alike.preorder`: related nodes are met in the same order.
-/

namespace ClosingBrace.Tree

variable {R : Handle → Handle → Prop} {t u : Tree}

/-! ## Related lists -/

/-- In related lists, what stands in the same place is related. -/
theorem rel_getElem? {l m : List Handle} (h : List.Forall₂ R l m) (i : Nat) :
    Option.Rel R l[i]? m[i]? := by
  induction h generalizing i with
  | nil => exact .none
  | cons hab _ ih =>
      cases i with
      | zero => exact .some hab
      | succ i => exact ih i

theorem rel_head? {l m : List Handle} (h : List.Forall₂ R l m) :
    Option.Rel R l.head? m.head? := by
  rw [List.head?_eq_getElem?, List.head?_eq_getElem?]
  exact rel_getElem? h 0

theorem rel_getLast? {l m : List Handle} (h : List.Forall₂ R l m) :
    Option.Rel R l.getLast? m.getLast? := by
  rw [List.getLast?_eq_getElem?, List.getLast?_eq_getElem?, h.length_eq]
  exact rel_getElem? h _

/-! ## Alike trees -/

/-- Related nodes of the two trees cannot be told apart from within. -/
structure Alike (R : Handle → Handle → Prop) (t u : Tree) : Prop where
  left_wellFormed : t.WellFormed
  right_wellFormed : u.WellFormed
  size_eq : t.size = u.size
  lt_size : ∀ {a b}, R a b → a < t.size ∧ b < u.size
  /-- Every node of the first tree is related to one node of the second, and the other way round. -/
  exists_rel : ∀ {a}, a < t.size → ∃ b, R a b
  eq_iff : ∀ {a b a' b'}, R a b → R a' b' → (a = a' ↔ b = b')
  root : 0 < t.size → R 0 0
  kindAt_eq : ∀ {a b}, R a b → t.kindAt a = u.kindAt b
  kids : ∀ {a b}, R a b → List.Forall₂ R (t.kids a) (u.kids b)
  lineAt_eq_iff : ∀ {a b a' b'}, R a b → R a' b' →
    (t.lineAt a = t.lineAt a' ↔ u.lineAt b = u.lineAt b')
  position_lt_iff : ∀ {a b a' b'}, R a b → R a' b' →
    (t.position a < t.position a' ↔ u.position b < u.position b')

/-- The nodes of a tree, each related to itself. -/
def Same (t : Tree) (a b : Handle) : Prop := a < t.size ∧ a = b

theorem Known.rel_self {x : Option Handle} (hx : t.Known x) : Option.Rel t.Same x x := by
  cases x with
  | none => exact .none
  | some a => exact .some ⟨hx a rfl, rfl⟩

/-- Trees with the same links are alike, each node being related to itself, if their lines and
positions compare in the same way. -/
theorem WellFormed.alike_of_same (ht : t.WellFormed) (hu : u.WellFormed) (hsize : u.size = t.size)
    (hkind : ∀ a, a < t.size → u.kindAt a = t.kindAt a)
    (hkids : ∀ a, a < t.size → u.kids a = t.kids a)
    (hline : ∀ a b, a < t.size → b < t.size →
      (u.lineAt a = u.lineAt b ↔ t.lineAt a = t.lineAt b))
    (hposition : ∀ a b, a < t.size → b < t.size →
      (u.position a < u.position b ↔ t.position a < t.position b)) : Alike t.Same t u where
  left_wellFormed := ht
  right_wellFormed := hu
  size_eq := hsize.symm
  lt_size := by
    rintro a _ ⟨ha, rfl⟩
    exact ⟨ha, hsize.symm ▸ ha⟩
  exists_rel ha := ⟨_, ha, rfl⟩
  eq_iff := by
    rintro a _ a' _ ⟨-, rfl⟩ ⟨-, rfl⟩
    rfl
  root h := ⟨h, rfl⟩
  kindAt_eq := by
    rintro a _ ⟨ha, rfl⟩
    exact (hkind a ha).symm
  kids := by
    rintro a _ ⟨ha, rfl⟩
    rw [hkids a ha]
    exact List.forall₂_same.mpr fun c hc => ⟨(ht.lt_of_mem_kids hc).2, rfl⟩
  lineAt_eq_iff := by
    rintro a _ a' _ ⟨ha, rfl⟩ ⟨ha', rfl⟩
    exact (hline a a' ha ha').symm
  position_lt_iff := by
    rintro a _ a' _ ⟨ha, rfl⟩ ⟨ha', rfl⟩
    exact (hposition a a' ha ha').symm

/-- A well-formed tree is like itself. -/
theorem WellFormed.alike_self (ht : t.WellFormed) : Alike t.Same t t :=
  ht.alike_of_same ht rfl (fun _ _ => rfl) (fun _ _ => rfl) (fun _ _ _ _ => Iff.rfl)
    fun _ _ _ _ => Iff.rfl

namespace Alike
variable (h : Alike R t u) {a b a' b' : Handle} {x y x' y' : Option Handle}
include h

/-! ### Links -/

/-- A child of a node has its place among the children of the related node. -/
theorem child {p q : Handle} (hab : R a b) (hpq : R p q) (hp : t.above? a = some p) :
    u.above? b = some q ∧ u.place b = t.place a := by
  have hplace : (t.kids p)[t.place a]? = some a := h.left_wellFormed.kids_iff.mpr ⟨hp, rfl⟩
  have hrel := rel_getElem? (h.kids hpq) (t.place a)
  rw [hplace] at hrel
  generalize hb' : (u.kids q)[t.place a]? = found at hrel
  cases hrel with
  | some hab' =>
      rw [← (h.eq_iff hab hab').mp rfl] at hb'
      exact h.right_wellFormed.kids_iff.mp hb'

theorem above? (hab : R a b) : Option.Rel R (t.above? a) (u.above? b) := by
  obtain ⟨ha, hb⟩ := h.lt_size hab
  cases hp : t.above? a with
  | none =>
      -- Only the root has no parent, and roots are related to each other.
      have hroot := h.root (Nat.lt_of_le_of_lt (Nat.zero_le a) ha)
      have hb0 := (h.eq_iff hab hroot).mp (h.left_wellFormed.root_of_above? ha hp)
      rw [(h.right_wellFormed.above?_eq_none_iff hb).mpr hb0]
      exact .none
  | some p =>
      obtain ⟨q, hpq⟩ := h.exists_rel (h.left_wellFormed.known_above? ha p hp)
      rw [(h.child hab hpq hp).1]
      exact .some hpq

theorem right? (hab : R a b) : Option.Rel R (t.right? a) (u.right? b) := by
  have hrel := h.above? hab
  unfold Tree.right?
  cases hp : t.above? a with
  | none =>
      rw [hp] at hrel
      generalize u.above? b = above at hrel
      cases hrel
      exact .none
  | some p =>
      obtain ⟨q, hpq⟩ := h.exists_rel (h.left_wellFormed.known_above? (h.lt_size hab).1 p hp)
      obtain ⟨hq, hplace⟩ := h.child hab hpq hp
      rw [hq, hplace]
      exact rel_getElem? (h.kids hpq) _

theorem left? (hab : R a b) : Option.Rel R (t.left? a) (u.left? b) := by
  have hrel := h.above? hab
  unfold Tree.left?
  cases hp : t.above? a with
  | none =>
      rw [hp] at hrel
      generalize u.above? b = above at hrel
      cases hrel
      exact .none
  | some p =>
      obtain ⟨q, hpq⟩ := h.exists_rel (h.left_wellFormed.known_above? (h.lt_size hab).1 p hp)
      obtain ⟨hq, hplace⟩ := h.child hab hpq hp
      rw [hq, hplace, Option.bind_some, Option.bind_some]
      split
      · exact .none
      · exact rel_getElem? (h.kids hpq) _

/-! ### Reading related nodes -/

theorem kind (hab : R a b) : BothYield Eq (t.kind a) (u.kind b) := by
  obtain ⟨ha, hb⟩ := h.lt_size hab
  rw [kind_of_lt ha, kind_of_lt hb]
  exact .ok (h.kindAt_eq hab)

theorem children (hab : R a b) : BothYield (List.Forall₂ R) (t.children a) (u.children b) := by
  obtain ⟨ha, hb⟩ := h.lt_size hab
  rw [children_of_lt ha, children_of_lt hb]
  exact .ok (h.kids hab)

theorem parent (hab : R a b) : BothYield (Option.Rel R) (t.parent a) (u.parent b) := by
  obtain ⟨ha, hb⟩ := h.lt_size hab
  rw [parent_of_lt ha, parent_of_lt hb]
  exact .ok (h.above? hab)

theorem nextSibling (hab : R a b) :
    BothYield (Option.Rel R) (t.nextSibling a) (u.nextSibling b) := by
  obtain ⟨ha, hb⟩ := h.lt_size hab
  rw [h.left_wellFormed.nextSibling_of_lt ha, h.right_wellFormed.nextSibling_of_lt hb]
  exact .ok (h.right? hab)

theorem previousSibling (hab : R a b) :
    BothYield (Option.Rel R) (t.previousSibling a) (u.previousSibling b) := by
  obtain ⟨ha, hb⟩ := h.lt_size hab
  rw [h.left_wellFormed.previousSibling_of_lt ha, h.right_wellFormed.previousSibling_of_lt hb]
  exact .ok (h.left? hab)

theorem firstChild (hab : R a b) :
    BothYield (Option.Rel R) (t.firstChild a) (u.firstChild b) := by
  unfold Tree.firstChild
  refine (h.children hab).bind fun cs ds hcs => ?_
  exact .ok (rel_head? hcs)

theorem lastChild (hab : R a b) : BothYield (Option.Rel R) (t.lastChild a) (u.lastChild b) := by
  unfold Tree.lastChild
  refine (h.children hab).bind fun cs ds hcs => ?_
  exact .ok (rel_getLast? hcs)

theorem lastChild? (hxy : Option.Rel R x y) :
    BothYield (Option.Rel R) (t.lastChild? x) (u.lastChild? y) := by
  cases hxy with
  | none => exact .ok .none
  | some hab => exact h.lastChild hab

theorem findKind (kind : Kind) {cs ds : List Handle} (hcs : List.Forall₂ R cs ds) :
    BothYield (Option.Rel R) (t.findKind kind cs) (u.findKind kind ds) := by
  induction hcs with
  | nil => exact .ok .none
  | cons hab _ ih =>
      unfold Tree.findKind
      refine (h.kind hab).bind ?_
      rintro k _ rfl
      apply BothYield.ite
      · exact fun _ => .ok (.some hab)
      · exact fun _ => ih

theorem findFirstChild (hab : R a b) (kind : Kind) :
    BothYield (Option.Rel R) (t.findFirstChild a kind) (u.findFirstChild b kind) := by
  unfold Tree.findFirstChild
  exact (h.children hab).bind fun cs ds hcs => h.findKind kind hcs

/-! ### Comparing related nodes -/

theorem isKind (hxy : Option.Rel R x y) (kind : Kind) :
    BothYield Eq (t.isKind x kind) (u.isKind y kind) := by
  cases hxy with
  | none => exact .ok rfl
  | some hab =>
      unfold Tree.isKind
      refine (h.kind hab).bind ?_
      rintro k _ rfl
      exact .ok rfl

theorem onSameLine (hxy : Option.Rel R x y) (hxy' : Option.Rel R x' y') :
    BothYield Eq (t.onSameLine x x') (u.onSameLine y y') := by
  cases hxy with
  | none => exact .ok rfl
  | some hab =>
      cases hxy' with
      | none => exact .ok rfl
      | some hab' =>
          obtain ⟨ha, hb⟩ := h.lt_size hab
          obtain ⟨ha', hb'⟩ := h.lt_size hab'
          simp only [Tree.onSameLine, line_of_lt ha, line_of_lt hb, line_of_lt ha', line_of_lt hb',
            ok_bind, Bool.beq_eq_decide_eq]
          exact .ok (decide_eq_decide.mpr (h.lineAt_eq_iff hab hab'))

theorem earlier (hab : R a b) (hab' : R a' b') :
    BothYield R (t.earlier a a') (u.earlier b b') := by
  obtain ⟨ha, hb⟩ := h.lt_size hab
  obtain ⟨ha', hb'⟩ := h.lt_size hab'
  simp only [Tree.earlier, isBefore_of_lt ha' ha, isBefore_of_lt hb' hb, ok_bind,
    h.position_lt_iff hab' hab]
  apply BothYield.ite
  · exact fun _ => .ok hab'
  · exact fun _ => .ok hab

/-! ### Tokens -/

theorem firstNodeWithin (depth : Nat) (hab : R a b) :
    BothYield R (t.firstNodeWithin depth a) (u.firstNodeWithin depth b) := by
  induction depth generalizing a b with
  | zero => exact .ok hab
  | succ depth ih =>
      unfold Tree.firstNodeWithin
      refine (h.children hab).bind fun cs ds hcs => ?_
      refine (BothYield.mapM hcs fun _ _ hcd => ih hcd).bind fun fs gs hfs => ?_
      exact BothYield.foldlM hfs (fun _ _ _ _ hbest hcandidate => h.earlier hbest hcandidate) hab

theorem firstNode (hab : R a b) : BothYield R (t.firstNode a) (u.firstNode b) := by
  unfold Tree.firstNode
  rw [← h.size_eq]
  exact h.firstNodeWithin t.size hab

theorem nextSubtreeWithin (climb : Nat) (hxy : Option.Rel R x y) :
    BothYield (Option.Rel R) (t.nextSubtreeWithin climb x) (u.nextSubtreeWithin climb y) := by
  induction climb generalizing x y with
  | zero =>
      cases hxy with
      | none => exact .ok .none
      | some _ => exact .ok .none
  | succ climb ih =>
      cases hxy with
      | none => exact .ok .none
      | some hab =>
          unfold Tree.nextSubtreeWithin
          refine (h.nextSibling hab).bind fun next next' hnext => ?_
          cases hnext with
          | some hnext => exact .ok (.some hnext)
          | none => exact (h.parent hab).bind fun _ _ hparent => ih hparent

theorem nextTokenAfter (hxy : Option.Rel R x y) :
    BothYield (Option.Rel R) (t.nextTokenAfter x) (u.nextTokenAfter y) := by
  unfold Tree.nextTokenAfter
  rw [← h.size_eq]
  refine (h.nextSubtreeWithin _ hxy).bind fun next next' hnext => ?_
  cases hnext with
  | none => exact .ok .none
  | some hnext => exact (h.firstNode hnext).bind fun _ _ hfirst => .ok (.some hfirst)

/-! ### All nodes -/

theorem preorderFrom (count : Nat) {hs gs : List Handle} (hpending : List.Forall₂ R hs gs) :
    BothYield (List.Forall₂ R) (t.preorderFrom count hs) (u.preorderFrom count gs) := by
  induction count generalizing hs gs with
  | zero => cases hpending <;> exact .ok .nil
  | succ count ih =>
      cases hpending with
      | nil => exact .ok .nil
      | cons hab hrest =>
          unfold Tree.preorderFrom
          refine (h.children hab).bind fun cs ds hcs => ?_
          refine (ih (List.rel_append hcs hrest)).bind fun ns ms hns => ?_
          exact .ok (.cons hab hns)

/-- **Related nodes are met in the same order.** -/
theorem preorder (hsize : 0 < t.size) : BothYield (List.Forall₂ R) t.preorder u.preorder := by
  have hroot : t.root = .ok 0 := h.left_wellFormed.root_eq_ok_iff.mpr ⟨hsize, rfl⟩
  have hroot' : u.root = .ok 0 := h.right_wellFormed.root_eq_ok_iff.mpr ⟨h.size_eq ▸ hsize, rfl⟩
  simp only [Tree.preorder, hroot, hroot', ok_bind, ← h.size_eq]
  exact h.preorderFrom t.size (.cons (h.root hsize) .nil)

end Alike
end ClosingBrace.Tree
