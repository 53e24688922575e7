import ClosingBrace.Brace.Placement
import ClosingBrace.Proofs.Tree.Likeness

/-!
# Landmarks in alike trees

At related nodes of alike trees the landmarks are related, and the questions about a closing brace
have the same answers. The one question that looks at the source text, whether only blanks stand
before the brace, needs the same answer to begin with.

## Main statements

* `Context.extract_alike`: related nodes have related landmarks.
* `isAlone_alike`, `isEmpty_alike`, `isSingleLine_alike`, `lacksLineBreak_alike`,
  `leavesNextPart_alike`: the questions that policies ask have the same answers.
-/

namespace ClosingBrace

variable {R : Handle → Handle → Prop} {t u : Tree} {a b : Handle}

namespace Context

/-- Related landmarks. -/
structure Related (R : Handle → Handle → Prop) (c d : Context) : Prop where
  left : Option.Rel R c.left d.left
  right : Option.Rel R c.right d.right
  next : Option.Rel R c.next d.next
  ends : c.ends = d.ends

variable {left right next left' right' next' : Option Handle}

/-! ## The five shapes -/

theorem ended_alike (h : Tree.Alike R t u) (hab : R a b) (hleft : Option.Rel R left left')
    (hright : Option.Rel R right right') :
    BothYield (Related R)
      (do return Context.mk left right (← t.nextTokenAfter (some a)) true)
      (do return Context.mk left' right' (← u.nextTokenAfter (some b)) true) := by
  refine (h.nextTokenAfter (.some hab)).bind fun next next' hnext => ?_
  exact .ok ⟨hleft, hright, hnext, rfl⟩

theorem continuedBy_alike (h : Tree.Alike R t u) (hab : R a b) (hleft : Option.Rel R left left')
    (hright : Option.Rel R right right') (hnext : Option.Rel R next next') :
    BothYield (Related R) (continuedBy t a left right next)
      (continuedBy u b left' right' next') := by
  cases hnext with
  | none => exact ended_alike h hab hleft hright
  | some hnext => exact .ok ⟨hleft, hright, .some hnext, rfl⟩

theorem tryBlock_alike (h : Tree.Alike R t u) (hab : R a b) :
    BothYield (Option.Rel R) (tryBlock t a) (tryBlock u b) := by
  unfold tryBlock
  refine (h.firstChild hab).bind fun head head' hhead => ?_
  cases hhead with
  | none => exact .ok .none
  | some hhead =>
      refine (h.kind hhead).bind ?_
      rintro kind _ rfl
      apply BothYield.ite
      · exact fun _ => h.nextSibling hhead
      · exact fun _ => .ok (.some hhead)

theorem ofTryPart_alike (h : Tree.Alike R t u) (hab : R a b) :
    BothYield (Related R) (ofTryPart t a) (ofTryPart u b) := by
  unfold ofTryPart
  refine (h.kind hab).bind ?_
  rintro kind _ rfl
  apply BothYield.ite
  · intro _
    refine (tryBlock_alike h hab).bind fun left left' hleft => ?_
    -- What is done with the part behind the block, whether there is one or not.
    extract_lets rest rest'
    have hrest : ∀ next next', Option.Rel R next next' →
        BothYield (Related R) (rest next) (rest' next') := by
      intro next next' hnext
      refine (h.lastChild? hleft).bind fun right right' hright => ?_
      exact continuedBy_alike h hab hleft hright hnext
    cases hleft with
    | none => exact hrest none none .none
    | some hblock => exact (h.nextSibling hblock).bind hrest
  · intro _
    refine (h.lastChild hab).bind fun left left' hleft => ?_
    refine (h.nextSibling hab).bind fun next next' hnext => ?_
    refine (h.lastChild? hleft).bind fun right right' hright => ?_
    exact continuedBy_alike h hab hleft hright hnext

theorem ofBranch_alike (h : Tree.Alike R t u) (hab : R a b) :
    BothYield (Related R) (ofBranch t a) (ofBranch u b) := by
  unfold ofBranch
  refine (h.findFirstChild hab .elseBranch).bind fun next next' hnext => ?_
  -- The body, before the else branch or last, is used in the same way.
  extract_lets rest rest'
  have hrest : ∀ left left', Option.Rel R left left' →
      BothYield (Related R) (rest left) (rest' left') := by
    intro left left' hleft
    refine (h.isKind hleft .statementList).bind ?_
    rintro listed _ rfl
    extract_lets close close'
    have hclose : ∀ right right', Option.Rel R right right' →
        BothYield (Related R) (close right) (close' right') := fun right right' hright =>
      continuedBy_alike h hab hleft hright hnext
    apply BothYield.ite
    · exact fun _ => (h.lastChild? hleft).bind hclose
    · exact fun _ => hclose none none .none
  cases hnext with
  | none => exact (h.lastChild hab).bind hrest
  | some hnext => exact (h.previousSibling hnext).bind hrest

theorem ofLoop_alike (h : Tree.Alike R t u) (hab : R a b) :
    BothYield (Related R) (ofLoop t a) (ofLoop u b) := by
  unfold ofLoop
  refine (h.findFirstChild hab .statementList).bind fun left left' hleft => ?_
  refine (h.lastChild? hleft).bind fun right right' hright => ?_
  refine (h.kind hab).bind ?_
  rintro kind _ rfl
  apply BothYield.ite
  · intro _
    refine (h.findFirstChild hab .doCondition).bind fun next next' hnext => ?_
    exact .ok ⟨hleft, hright, hnext, rfl⟩
  · exact fun _ => ended_alike h hab hleft hright

theorem ofTypeBody_alike (h : Tree.Alike R t u) (hab : R a b) :
    BothYield (Related R) (ofTypeBody t a) (ofTypeBody u b) := by
  unfold ofTypeBody
  refine (h.lastChild hab).bind fun body body' hbody => ?_
  extract_lets rest rest'
  have hrest : ∀ left left', Option.Rel R left left' →
      BothYield (Related R) (rest left) (rest' left') := by
    intro left left' hleft
    refine (h.lastChild? hbody).bind fun right right' hright => ?_
    exact ended_alike h hab hleft hright
  cases hbody with
  | none => exact hrest none none .none
  | some hbody => exact (h.firstChild hbody).bind hrest

theorem ofCodeBlock_alike (h : Tree.Alike R t u) (hab : R a b) :
    BothYield (Related R) (ofCodeBlock t a) (ofCodeBlock u b) := by
  unfold ofCodeBlock
  refine (h.findFirstChild hab .statementList).bind fun left left' hleft => ?_
  refine (h.lastChild? hleft).bind fun right right' hright => ?_
  exact ended_alike h hab hleft hright

/-- **Related nodes have related landmarks**, whatever shape they are taken for. -/
theorem extract_alike (h : Tree.Alike R t u) (hab : R a b) (category : Category) :
    BothYield (Related R) (extract t a category) (extract u b category) := by
  cases category with
  | tryPart => exact ofTryPart_alike h hab
  | branch => exact ofBranch_alike h hab
  | loop => exact ofLoop_alike h hab
  | typeBody => exact ofTypeBody_alike h hab
  | codeBlock => exact ofCodeBlock_alike h hab

end Context

/-! ## The questions about a closing brace -/

namespace BracedContext

/-- Related landmarks of which both braces are there. -/
structure Related (R : Handle → Handle → Prop) (c d : BracedContext) : Prop where
  left : R c.left d.left
  right : R c.right d.right
  next : Option.Rel R c.next d.next
  ends : c.ends = d.ends

variable {c d : BracedContext}

/-- Of related landmarks either both have braces or neither has. -/
theorem rel_braced? {c d : Context} (hcd : c.Related R d) :
    Option.Rel (Related R) c.braced? d.braced? := by
  obtain ⟨left, right, next, ends⟩ := c
  obtain ⟨left', right', next', ends'⟩ := d
  obtain ⟨hleft, hright, hnext, hends⟩ := hcd
  cases hleft with
  | none => exact .none
  | some hleft =>
      cases hright with
      | none => exact .none
      | some hright => exact .some ⟨hleft, hright, hnext, hends⟩

theorem hasLineBreakBefore_alike (h : Tree.Alike R t u) (hcd : c.Related R d) :
    BothYield Eq (c.hasLineBreakBefore t) (d.hasLineBreakBefore u) := by
  unfold hasLineBreakBefore
  refine (h.previousSibling hcd.right).bind fun sibling sibling' hsibling => ?_
  extract_lets rest rest'
  have hrest : ∀ before before', Option.Rel R before before' →
      BothYield Eq (rest before) (rest' before') := by
    intro before before' hbefore
    refine (h.onSameLine (.some hcd.right) hbefore).bind ?_
    rintro same _ rfl
    exact .ok rfl
  cases hsibling with
  | none => exact (h.parent hcd.right).bind hrest
  | some hsibling => exact hrest _ _ (.some hsibling)

theorem isDoubleBrace_alike (h : Tree.Alike R t u) (hcd : c.Related R d) :
    BothYield Eq (c.isDoubleBrace t) (d.isDoubleBrace u) := by
  unfold isDoubleBrace
  refine (h.parent hcd.right).bind fun block block' hblock => ?_
  extract_lets rest rest'
  have hrest : ∀ owner owner', Option.Rel R owner owner' →
      BothYield Eq (rest owner) (rest' owner') := by
    intro owner owner' howner
    refine (h.isKind howner .instanceInit).bind ?_
    rintro isInit _ rfl
    refine (h.isKind hcd.next .rightCurly).bind ?_
    rintro isBrace _ rfl
    apply BothYield.ite
    · intro _
      refine (h.nextTokenAfter hcd.next).bind fun terminator terminator' hterminator => ?_
      refine (h.nextTokenAfter hterminator).bind fun follower follower' hfollower => ?_
      refine (h.onSameLine (.some hcd.right) hfollower).bind ?_
      rintro same _ rfl
      exact .ok rfl
    · exact fun _ => .ok rfl
  cases hblock with
  | none => exact hrest none none .none
  | some hblock => exact (h.parent hblock).bind hrest

/-- The lines of the two braces and their columns count only for the blanks before them. -/
theorem isAlone_alike (h : Tree.Alike R t u) (hcd : c.Related R d) {rightLine rightLine' : String}
    (hblank : blankBefore (t.columnAt c.right) rightLine =
      blankBefore (u.columnAt d.right) rightLine') :
    BothYield Eq (c.isAlone t rightLine) (d.isAlone u rightLine') := by
  obtain ⟨hc, hd⟩ := h.lt_size hcd.right
  unfold isAlone
  refine (h.onSameLine (.some hcd.right) hcd.next).bind ?_
  rintro same _ rfl
  extract_lets rest rest'
  have hrest : ∀ apart apart', apart = apart' → BothYield Eq (rest apart) (rest' apart') := by
    rintro apart _ rfl
    apply BothYield.ite
    · intro _
      rw [Tree.column_of_lt hc, Tree.column_of_lt hd]
      exact .ok hblank
    · exact fun _ => .ok rfl
  apply BothYield.ite
  · exact fun _ => (isDoubleBrace_alike h hcd).bind hrest
  · exact fun _ => hrest true true rfl

theorem isEmpty_alike (h : Tree.Alike R t u) (hcd : c.Related R d) :
    BothYield Eq (c.isEmpty t) (d.isEmpty u) := by
  unfold isEmpty
  refine (h.parent hcd.left).bind fun parent parent' hparent => ?_
  refine (h.isKind hparent .typeBody).bind ?_
  rintro inTypeBody _ rfl
  extract_lets rest rest'
  have hrest : ∀ candidate candidate', Option.Rel R candidate candidate' →
      BothYield Eq (rest candidate) (rest' candidate') := by
    intro candidate candidate' hcandidate
    refine .ok (decide_eq_decide.mpr ?_)
    cases hcandidate with
    | none => simp
    | some hcandidate =>
        rw [Option.some.injEq, Option.some.injEq]
        exact h.eq_iff hcandidate hcd.right
  apply BothYield.ite
  · exact fun _ => (h.nextSibling hcd.left).bind hrest
  · exact fun _ => (h.firstChild hcd.left).bind hrest

theorem skipElse_alike (h : Tree.Alike R t u) (steps : Nat) {x y : Option Handle}
    (hxy : Option.Rel R x y) :
    BothYield (Option.Rel R) (skipElse t steps x) (skipElse u steps y) := by
  induction steps generalizing x y with
  | zero => exact .ok hxy
  | succ steps ih =>
      unfold skipElse
      refine (h.isKind hxy .elseBranch).bind ?_
      rintro isElse _ rfl
      apply BothYield.ite
      · exact fun _ => (h.nextTokenAfter hxy).bind fun _ _ hnext => ih hnext
      · exact fun _ => .ok hxy

theorem follower_alike (h : Tree.Alike R t u) (hcd : c.Related R d) :
    BothYield (Option.Rel R) (c.follower t) (d.follower u) := by
  unfold follower
  rw [← h.size_eq]
  refine (skipElse_alike h t.size hcd.next).bind fun next next' hnext => ?_
  cases hnext with
  | none => exact .ok .none
  | some hnext =>
      refine (h.kind hnext).bind ?_
      rintro kind _ rfl
      apply BothYield.ite
      · intro _
        refine (h.parent hnext).bind fun loop loop' hloop => ?_
        cases hloop with
        | none => exact h.nextTokenAfter .none
        | some hloop => exact (h.lastChild hloop).bind fun _ _ hlast => h.nextTokenAfter hlast
      · exact fun _ => .ok (.some hnext)

theorem isSingleLine_alike (h : Tree.Alike R t u) (hcd : c.Related R d) :
    BothYield Eq (c.isSingleLine t) (d.isSingleLine u) := by
  unfold isSingleLine
  refine (follower_alike h hcd).bind fun follower follower' hfollower => ?_
  refine (h.isKind hcd.next .semicolon).bind ?_
  rintro beforeSemicolon _ rfl
  refine (h.onSameLine (.some hcd.left) (.some hcd.right)).bind ?_
  rintro oneLine _ rfl
  apply BothYield.ite
  · intro _
    refine (h.onSameLine (.some hcd.right) hfollower).bind ?_
    rintro same _ rfl
    exact .ok rfl
  · exact fun _ => .ok rfl

theorem lacksLineBreak_alike (h : Tree.Alike R t u) (hcd : c.Related R d) :
    BothYield Eq (c.lacksLineBreak t) (d.lacksLineBreak u) := by
  unfold lacksLineBreak
  refine (hasLineBreakBefore_alike h hcd).bind ?_
  rintro broken _ rfl
  apply BothYield.ite
  · exact fun _ => .ok rfl
  · intro _
    refine (h.onSameLine (.some hcd.left) (.some hcd.right)).bind ?_
    rintro same _ rfl
    exact .ok rfl

theorem leavesNextPart_alike (h : Tree.Alike R t u) (hcd : c.Related R d) :
    BothYield Eq (c.leavesNextPart t) (d.leavesNextPart u) := by
  unfold leavesNextPart
  rw [← hcd.ends]
  apply BothYield.ite
  · exact fun _ => .ok rfl
  · intro _
    refine (h.onSameLine (.some hcd.right) hcd.next).bind ?_
    rintro same _ rfl
    exact .ok rfl

end BracedContext
end ClosingBrace
