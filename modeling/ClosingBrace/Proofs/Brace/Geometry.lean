import ClosingBrace.Proofs.Brace.Landmarks
import ClosingBrace.Proofs.Tree.Ranks

/-!
# How landmarks lie

The policies compare a closing brace with the next landmark and take for granted that the two do not
come from the same block. So it is, in every tree and for every node, also when a node is taken as a
construct of a kind that it does not have: the next landmark is neither a brace nor below the
opening one. It follows the construct when the brace ends it, and else it is a child of the
construct or its next sibling.

## Main statements

* `HasBlock.apart`, `HasTypeBody.apart`: the next landmark is apart from the braces.
* `extract_lies`: how the landmarks of a node lie, in all shapes.
-/

namespace ClosingBrace.Context

variable {t : Tree} {construct : Handle} {c : Context}

/-! ## Apart from the braces -/

/-- A node is apart from the braces if it is none of them and not below the opening one. -/
def Apart (t : Tree) (c : Context) (m : Handle) : Prop :=
  c.left ≠ some m ∧ c.right ≠ some m ∧ ∀ l, c.left = some l → ¬ t.InSubtree l m

/-- What is outside the construct is apart from its braces. -/
theorem apart_of_outside (hleft : ∀ l ∈ c.left, t.InSubtree construct l)
    (hright : ∀ r ∈ c.right, t.InSubtree construct r) {m : Handle}
    (hout : ¬ t.InSubtree construct m) : c.Apart t m := by
  refine ⟨fun hl => hout (hleft m hl), fun hr => hout (hright m hr), ?_⟩
  intro l hl hbelow
  exact hout ((hleft l hl).trans hbelow)

theorem Fits.right_below (hc : c.Fits t construct) : ∀ r ∈ c.right, t.InSubtree construct r := by
  intro r hr
  obtain ⟨b, hrb, hb⟩ := hc.right_grandchild r hr
  exact (Tree.InSubtree.of_above? hb).trans (.of_above? hrb)

theorem Fits.exists_parents (hc : c.Fits t construct) {r : Handle} (hr : c.right = some r) :
    ∃ b, t.parent r = .ok (some b) ∧ t.parent b = .ok (some construct) := by
  simpa only [Tree.parent_eq_some_iff] using hc.right_grandchild r hr

/-- What follows a construct is outside it. -/
theorem Fits.outside_of_ends (ht : t.WellFormed) (hh : construct < t.size)
    (hc : c.Fits t construct) (hends : c.ends = true) {m : Handle} (hm : c.next = some m) :
    ¬ t.InSubtree construct m := by
  have htoken := (ht.nextTokenAfter_yields hh).of_ok (hc.next_of_ends hends)
  rw [hm] at htoken
  exact (ht.not_inSubtree_of_leftOf (htoken.leftOf .self)).1

/-- The next sibling of a node is outside it. -/
theorem not_inSubtree_of_right? (ht : t.WellFormed) {m : Handle}
    (hm : t.right? construct = some m) : ¬ t.InSubtree construct m :=
  (ht.not_inSubtree_of_leftOf (ht.isNextSubtree_of_right? hm).2.1).1

/-- **The next landmark is apart from the block.** -/
theorem HasBlock.apart (ht : t.WellFormed) (hh : construct < t.size) (hc : c.HasBlock t construct)
    {m : Handle} (hm : c.next = some m) : c.Apart t m := by
  have hfits := hc.fits ht hh
  have hleft : ∀ l ∈ c.left, t.InSubtree construct l := fun l hl => .of_above? (hc.left_child l hl)
  cases hends : c.ends with
  | true => exact apart_of_outside hleft hfits.right_below (hfits.outside_of_ends ht hh hends hm)
  | false =>
      rcases hc.next_of_continued hends m hm with ⟨hchild, hne⟩ | hright
      · -- Another child has no node in common with the block.
        have hdisjoint : ∀ l ∈ c.left, ¬ t.InSubtree l m := by
          intro l hl hbelow
          have hlm := ht.disjoint_of_kids (ht.mem_kids_iff.mpr (hc.left_child l hl))
            (ht.mem_kids_iff.mpr hchild) hbelow .self
          exact hne (hlm ▸ hl)
        refine ⟨hne, fun hr => ?_, hdisjoint⟩
        obtain ⟨b, hb, hlast⟩ := hc.right_last m hr
        exact hdisjoint b hb (.of_above? (ht.lastChild_eq_some_iff.mp hlast).1)
      · exact apart_of_outside hleft hfits.right_below (not_inSubtree_of_right? ht hright)

/-- **The next landmark is apart from the body of a type.** -/
theorem HasTypeBody.apart (ht : t.WellFormed) (hh : construct < t.size)
    (hc : c.HasTypeBody t construct) {m : Handle} (hm : c.next = some m) : c.Apart t m := by
  have hfits := hc.fits ht hh
  refine apart_of_outside ?_ hfits.right_below (hfits.outside_of_ends ht hh hc.ends hm)
  intro l hl
  rcases hc.braces with ⟨-, hnone, -⟩ | ⟨body, hbody, hfirst, -⟩
  · rw [hnone] at hl
    cases hl
  · rw [hl] at hfirst
    exact (Tree.InSubtree.of_above? (ht.lastChild_eq_some_iff.mp hbody).1).trans
      (.of_above? (ht.firstChild_eq_some_iff.mp hfirst).1)

/-! ## All shapes -/

/-- How the landmarks of a node lie that is taken as a construct of a kind. -/
structure Lies (t : Tree) (construct : Handle) (kind : Kind) (c : Context) : Prop where
  /-- The closing brace is a child of a child. -/
  right : ∀ r, c.right = some r →
    ∃ b, t.parent r = .ok (some b) ∧ t.parent b = .ok (some construct)
  /-- Outside types the opening brace is a child and has the closing brace as its last child. -/
  block : kind ≠ .classDef → kind ≠ .annotationDef →
    (∀ l, c.left = some l → t.parent l = .ok (some construct)) ∧
    ∀ r, c.right = some r → ∃ l, c.left = some l ∧ t.lastChild l = .ok (some r)
  /-- In types the braces are the first and the last child of the last child. -/
  typeBody : kind = .classDef ∨ kind = .annotationDef →
    (t.lastChild construct = .ok none ∧ c.left = none ∧ c.right = none) ∨
    ∃ body, t.lastChild construct = .ok (some body) ∧ t.firstChild body = .ok c.left ∧
      t.lastChild body = .ok c.right
  apart : ∀ m, c.next = some m → c.Apart t m
  /-- When the brace ends the construct, the next landmark is the token behind it. -/
  ended : c.ends = true → t.nextTokenAfter (some construct) = .ok c.next ∧
    ∀ m, c.next = some m → ¬ t.InSubtree construct m
  /-- Otherwise it is a child or the next sibling. -/
  continued : c.ends = false → ∀ m, c.next = some m →
    t.parent m = .ok (some construct) ∨ t.nextSibling construct = .ok (some m)
  /-- Only a do loop without a condition lacks the part that has to follow. -/
  missing : c.ends = false → c.next = none → t.kind construct = .ok .doStatement ∧
    ∀ children, t.children construct = .ok children →
      ∀ b ∈ children, t.kind b ≠ .ok .doCondition

theorem category?_eq_typeBody_iff {kind : Kind} :
    kind.category? = some .typeBody ↔ kind = .classDef ∨ kind = .annotationDef := by
  cases kind <;> decide

theorem HasBlock.lies (ht : t.WellFormed) (hh : construct < t.size) (hc : c.HasBlock t construct)
    {kind : Kind} (hkind : kind.category? ≠ some .typeBody) : c.Lies t construct kind where
  right := fun _ hr => (hc.fits ht hh).exists_parents hr
  block := fun _ _ =>
    ⟨fun l hl => Tree.parent_eq_some_iff.mpr (hc.left_child l hl), hc.right_last⟩
  typeBody := fun h => absurd (category?_eq_typeBody_iff.mpr h) hkind
  apart := fun _ hm => hc.apart ht hh hm
  ended := fun hends => ⟨hc.next_of_ends hends,
    fun _ hm => (hc.fits ht hh).outside_of_ends ht hh hends hm⟩
  continued := by
    intro hends m hm
    rw [Tree.parent_eq_some_iff, ht.nextSibling_eq_some_iff]
    exact (hc.next_of_continued hends m hm).imp_left And.left
  missing := by
    intro hends hnone
    obtain ⟨hdo, hno⟩ := hc.missing_next hends hnone
    refine ⟨Tree.kind_eq_ok_iff.mpr ⟨hh, hdo⟩, ?_⟩
    intro children hchildren b hb
    obtain ⟨-, rfl⟩ := Tree.children_eq_ok_iff.mp hchildren
    rw [Ne, Tree.kind_eq_ok_iff]
    exact fun h => hno b hb h.2

theorem HasTypeBody.lies (ht : t.WellFormed) (hh : construct < t.size)
    (hc : c.HasTypeBody t construct) {kind : Kind} (hkind : kind.category? = some .typeBody) :
    c.Lies t construct kind where
  right := fun _ hr => (hc.fits ht hh).exists_parents hr
  block := by
    intro hclass hannotation
    rcases category?_eq_typeBody_iff.mp hkind with h | h
    · exact absurd h hclass
    · exact absurd h hannotation
  typeBody := fun _ => hc.braces
  apart := fun _ hm => hc.apart ht hh hm
  ended := fun hends => ⟨hc.next, fun _ hm => (hc.fits ht hh).outside_of_ends ht hh hends hm⟩
  continued := by simp [hc.ends]
  missing := by simp [hc.ends]

/-- **How landmarks lie.** Taken as a construct of any kind, every node of a tree has landmarks. The
closing brace is a child of a child, the last one of the block or of the body of a type; the next
landmark is apart from the braces, and it follows the construct or continues the statement. -/
theorem extract_lies (ht : t.Reachable) (hh : construct < t.size) {kind : Kind}
    {category : Category} (hcategory : kind.category? = some category) :
    ∃ c, extract t construct category = .ok c ∧ c.Lies t construct kind := by
  have hwf := ht.wellFormed
  by_cases htype : category = .typeBody
  · subst htype
    exact (ofTypeBody_yields hwf hh).mono fun c hc => hc.lies hwf hh hcategory
  · refine (extract_hasBlock hwf hh htype).mono fun c hc => hc.lies hwf hh ?_
    simpa [hcategory] using htype

/-- A do loop that lacks its condition, taken as a while loop: nothing follows the closing brace,
although it does not end the construct. -/
theorem extract_lies_of_open_do :
    let t := Tree.replay "do \x7b\x7d" [⟨.doStatement, 1, 0, none⟩, ⟨.statementList, 1, 3, some 0⟩,
      ⟨.rightCurly, 1, 4, some 1⟩]
    let c : Context := ⟨some 1, some 2, none, false⟩
    t.Reachable ∧ 0 < t.size ∧ Kind.category? .whileStatement = some .loop ∧
      extract t 0 .loop = .ok c ∧ c.Lies t 0 .whileStatement := by
  intro t c
  have ht : t.Reachable := Tree.reachable_replay _ _
  have hh : 0 < t.size := by decide +kernel
  have hcategory : Kind.category? .whileStatement = some .loop := rfl
  have hc : extract t 0 .loop = .ok c := by decide +kernel
  obtain ⟨found, hfound, hlies⟩ := extract_lies ht hh hcategory
  rw [hc] at hfound
  cases hfound
  exact ⟨ht, hh, hcategory, hc, hlies⟩

end ClosingBrace.Context
