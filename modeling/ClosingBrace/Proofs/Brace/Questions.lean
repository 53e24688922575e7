import ClosingBrace.Proofs.Brace.Landmarks
import ClosingBrace.Proofs.Brace.Likeness

/-!
# Questions about a closing brace

All policies draw their verdicts from the same five questions about a closing brace. The questions
always have answers, alike trees answer them in the same way, and once they are answered the verdict
is a matter of propositional logic.

## Main statements

* `exists_answers_alike`: every question has an answer, the same one in alike trees.
* `Answers.Hold.verdict_eq`: the verdict that follows from the answers.
-/

namespace ClosingBrace

variable {R : Handle → Handle → Prop} {t u : Tree} {construct : Handle}

namespace BracedContext

/-- Landmarks of a construct are related to themselves. -/
theorem Fits.related_self {c : BracedContext} (hc : c.Fits t construct) : c.Related t.Same c where
  left := ⟨hc.left_lt, rfl⟩
  right := ⟨hc.right_lt, rfl⟩
  next := hc.next_known.rel_self
  ends := rfl

/-! ## The answers -/

/-- Answers to the questions that policies ask of a closing brace. -/
structure Answers where
  alone : Bool
  empty : Bool
  singleLine : Bool
  lacksLineBreak : Bool
  leavesNextPart : Bool

/-- The answers are those that looking at the tree gives. -/
structure Answers.Hold (a : Answers) (t : Tree) (c : BracedContext) (rightLine : String) :
    Prop where
  alone : c.isAlone t rightLine = .ok a.alone
  empty : c.isEmpty t = .ok a.empty
  singleLine : c.isSingleLine t = .ok a.singleLine
  lacksLineBreak : c.lacksLineBreak t = .ok a.lacksLineBreak
  leavesNextPart : c.leavesNextPart t = .ok a.leavesNextPart

/-- **Every question has an answer**, and related braces of alike trees have the same answers. -/
theorem exists_answers_alike {c d : BracedContext} {rightLine rightLine' : String}
    (h : Tree.Alike R t u) (hcd : c.Related R d)
    (hblank : blankBefore (t.columnAt c.right) rightLine =
      blankBefore (u.columnAt d.right) rightLine') :
    ∃ a : Answers, a.Hold t c rightLine ∧ a.Hold u d rightLine' := by
  obtain ⟨alone, _, halone, halone', rfl⟩ := isAlone_alike h hcd hblank
  obtain ⟨empty, _, hempty, hempty', rfl⟩ := isEmpty_alike h hcd
  obtain ⟨single, _, hsingle, hsingle', rfl⟩ := isSingleLine_alike h hcd
  obtain ⟨lacks, _, hlacks, hlacks', rfl⟩ := lacksLineBreak_alike h hcd
  obtain ⟨leaves, _, hleaves, hleaves', rfl⟩ := leavesNextPart_alike h hcd
  exact ⟨⟨alone, empty, single, lacks, leaves⟩, ⟨halone, hempty, hsingle, hlacks, hleaves⟩,
    ⟨halone', hempty', hsingle', hlacks', hleaves'⟩⟩

/-- A tree is like itself, so the questions have answers in any one tree. -/
theorem Fits.exists_answers (ht : t.WellFormed) {c : BracedContext} (hc : c.Fits t construct)
    (rightLine : String) : ∃ a : Answers, a.Hold t c rightLine := by
  obtain ⟨a, ha, -⟩ : ∃ a : Answers, a.Hold t c rightLine ∧ a.Hold t c rightLine :=
    exists_answers_alike ht.alike_self hc.related_self rfl
  exact ⟨a, ha⟩

namespace Answers
variable {a : Answers} {c : BracedContext} {rightLine : String}

/-! ## The verdict -/

/-- Whether the brace should be alone on its line, and is not. -/
def violatesAlone (a : Answers) (ends : Bool) : Policy → Bool
  | .alone => !a.alone
  | .aloneOrEmpty => !a.alone && !a.empty
  | .aloneOrSingleLine => !a.alone && !a.singleLine
  | .same => ends && !a.alone && !a.singleLine

/-- The verdict that follows from the answers. -/
def verdict (a : Answers) (ends : Bool) (policy : Policy) : Option Violation :=
  if policy = .same ∧ a.lacksLineBreak then some .lineBreakBefore
  else if policy = .same ∧ a.leavesNextPart then some .lineSame
  else if a.violatesAlone ends policy then some .lineAlone
  else none

theorem Hold.violatesAlone_eq (ha : a.Hold t c rightLine) (policy : Policy) :
    c.violatesAlone t policy rightLine = .ok (a.violatesAlone c.ends policy) := by
  unfold BracedContext.violatesAlone
  simp only [ha.alone, ok_bind]
  cases halone : a.alone with
  | true => cases policy <;> simp [violatesAlone, halone, pure, Except.pure]
  | false =>
      cases policy with
      | alone => simp [violatesAlone, halone, pure, Except.pure]
      | aloneOrEmpty => simp [violatesAlone, halone, ha.empty, ok_bind, pure, Except.pure]
      | aloneOrSingleLine => simp [violatesAlone, halone, ha.singleLine, ok_bind, pure, Except.pure]
      | same =>
          cases hends : c.ends <;>
            simp [violatesAlone, halone, ha.singleLine, ok_bind, pure, Except.pure]

/-- **Verdicts follow from the answers.** -/
theorem Hold.verdict_eq (ha : a.Hold t c rightLine) (policy : Policy) :
    c.verdict t policy rightLine = .ok (a.verdict c.ends policy) := by
  by_cases hpolicy : policy = .same
  · subst hpolicy
    simp only [BracedContext.verdict, ha.lacksLineBreak, ha.leavesNextPart, ha.violatesAlone_eq,
      ok_bind, if_true]
    cases hlacks : a.lacksLineBreak <;> cases hleaves : a.leavesNextPart <;>
      cases halone : a.violatesAlone c.ends .same <;> simp [verdict, *, pure, Except.pure]
  · rw [verdict_other_eq t hpolicy, ha.violatesAlone_eq]
    cases halone : a.violatesAlone c.ends policy <;> simp [verdict, *, ok_bind, pure, Except.pure]

end Answers

/-- **Related braces have the same verdict** in alike trees. -/
theorem verdict_alike {c d : BracedContext} {rightLine rightLine' : String}
    (h : Tree.Alike R t u) (hcd : c.Related R d)
    (hblank : blankBefore (t.columnAt c.right) rightLine =
      blankBefore (u.columnAt d.right) rightLine') (policy : Policy) :
    BothYield Eq (c.verdict t policy rightLine) (d.verdict u policy rightLine') := by
  obtain ⟨a, hc, hd⟩ := exists_answers_alike h hcd hblank
  rw [hc.verdict_eq, hd.verdict_eq, hcd.ends]
  exact .ok rfl

end BracedContext
end ClosingBrace
