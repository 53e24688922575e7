import ClosingBrace.Proofs.Brace.Geometry
import ClosingBrace.Proofs.Brace.LineBreaks
import ClosingBrace.Proofs.Brace.Strictness

/-!
# Initializers in double braces

The inner one of two closing braces is excused from being alone on its line. The question is put to
the node two levels above the brace and to the tokens behind the next landmark, not to the construct;
but the closing brace of a construct is always a child of its child, so what is excused are instance
initializers and nothing else. Such a brace passes every policy, but for the one that joins the
parts of a statement, which still wants a line break in front of it.

## Main statements

* `isDoubleBrace_yields`: when a brace is the inner one of two.
* `Hold.verdict_of_alone`: what is left to report on a brace that is alone.
* `double_brace_excuses`: which constructs are excused, from what, and when.
-/

namespace ClosingBrace

variable {t : Tree} {construct : Handle} {c : BracedContext}

/-- The token after the token after a node is on the right of the node. -/
theorem Tree.WellFormed.leftOf_of_nextTokens (ht : t.WellFormed) {m f : Handle}
    {terminator : Option Handle} (hm : m < t.size)
    (hterminator : t.nextTokenAfter (some m) = .ok terminator)
    (hf : t.nextTokenAfter terminator = .ok (some f)) : f < t.size ∧ t.LeftOf m f := by
  cases terminator with
  | none =>
      rw [nextTokenAfter_none] at hf
      cases hf
  | some e =>
      obtain ⟨he, hfirst⟩ := ht.leftOf_of_nextTokenAfter hm hterminator
      obtain ⟨hf, hsecond⟩ := ht.leftOf_of_nextTokenAfter he hf
      exact ⟨hf, ht.leftOf_trans hm he hf hfirst hsecond⟩

/-- The closing brace of a member ends it. -/
theorem Context.ends_of_codeBlock {context : Context}
    (hcontext : extract t construct .codeBlock = .ok context) : context.ends = true := by
  obtain ⟨left, -, h⟩ := bind_eq_ok_iff.mp hcontext
  obtain ⟨right, -, h⟩ := bind_eq_ok_iff.mp h
  obtain ⟨next, -, h⟩ := bind_eq_ok_iff.mp h
  cases h
  rfl

namespace BracedContext

/-- **A brace is the inner one of two** if it closes an instance initializer, another closing brace
comes next and what follows the token behind that one is on another line. -/
theorem isDoubleBrace_yields (ht : t.WellFormed) (hc : c.Fits t construct) :
    Yields (c.isDoubleBrace t) fun double => double = true ↔
      t.kindAt construct = .instanceInit ∧ (∃ next ∈ c.next, t.kindAt next = .rightCurly) ∧
        ∀ terminator follower, t.nextTokenAfter c.next = .ok terminator →
          t.nextTokenAfter terminator = .ok (some follower) →
            t.lineAt c.right ≠ t.lineAt follower := by
  obtain ⟨b, hb, hconstruct⟩ := hc.right_grandchild
  have howner := Tree.known_some (hc.construct_lt ht)
  obtain ⟨initializer, hinitializer, hinit⟩ := Tree.isKind_yields howner .instanceInit
  obtain ⟨brace, hbrace, hcurly⟩ := Tree.isKind_yields hc.next_known .rightCurly
  unfold isDoubleBrace
  simp only [Tree.parent_of_lt hc.right_lt, hb, ok_bind,
    Tree.parent_of_lt (Tree.lt_of_above? hconstruct), hconstruct, hinitializer, hbrace]
  have hinit' : initializer = true ↔ t.kindAt construct = .instanceInit := by simpa using hinit
  rw [← hinit', ← hcurly]
  by_cases hboth : (initializer && brace) = true
  · rw [if_pos hboth]
    obtain ⟨terminator, hterminator, hknown⟩ := ht.nextTokenAfter_known hc.next_known
    obtain ⟨follower, hfollower, hknown'⟩ := ht.nextTokenAfter_known hknown
    obtain ⟨same, hsame, hline⟩ := Tree.onSameLine_yields hc.right_known hknown'
    simp only [hterminator, hfollower, hsame, ok_bind]
    refine .ok ?_
    rw [Bool.and_eq_true] at hboth
    constructor
    · intro hapart
      refine ⟨hboth.1, hboth.2, fun x f hx hf heq => ?_⟩
      cases hx
      rw [hfollower] at hf
      cases hf
      rw [hline.mpr ⟨_, rfl, f, rfl, heq⟩] at hapart
      cases hapart
    · rintro ⟨-, -, hapart⟩
      cases same with
      | false => rfl
      | true =>
          obtain ⟨r, hr, f, hf, heq⟩ := hline.mp rfl
          cases hr
          cases hf
          exact absurd heq (hapart terminator f rfl hfollower)
  · rw [if_neg hboth]
    refine .ok ?_
    grind

/-! ## What is left to report -/

/-- A line break is lacking if what stands just before the brace is on its line and the opening
brace is not. -/
theorem lacksLineBreak_yields (ht : t.WellFormed) (hc : c.Fits t construct) :
    Yields (c.lacksLineBreak t) fun lacks => lacks = true ↔
      (∃ m ∈ (t.left? c.right).or (t.above? c.right), t.lineAt m = t.lineAt c.right) ∧
        t.lineAt c.left ≠ t.lineAt c.right := by
  obtain ⟨broken, hbroken, hbefore⟩ := hasLineBreakBefore_yields ht hc
  obtain ⟨same, hsame, hline⟩ := Tree.onSameLine_yields hc.left_known hc.right_known
  have hline' : same = true ↔ t.lineAt c.left = t.lineAt c.right := by simpa using hline
  unfold lacksLineBreak
  rw [hbroken, hsame, ok_bind]
  cases broken with
  | true =>
      refine .ok ?_
      grind
  | false =>
      refine .ok ?_
      grind

namespace Answers
variable {a : Answers}

/-- A brace that is alone can only be reported for what stands before it or comes next. -/
theorem verdict_of_alone (halone : a.alone = true) (ends : Bool) (policy : Policy) :
    a.verdict ends policy =
      if policy = .same ∧ a.lacksLineBreak then some .lineBreakBefore
      else if policy = .same ∧ a.leavesNextPart then some .lineSame
      else none := by
  have hfine : a.violatesAlone ends policy = false := by
    cases policy <;> simp [violatesAlone, halone]
  simp [verdict, hfine]

end Answers
end BracedContext

/-! ## Who is excused -/

/-- What stands just before a node: its previous sibling, or else its parent. -/
def Tree.StandsBefore (t : Tree) (m h : Handle) : Prop :=
  t.previousSibling h = .ok (some m) ∨ t.previousSibling h = .ok none ∧ t.parent h = .ok (some m)

theorem Tree.WellFormed.standsBefore_iff (ht : t.WellFormed) {m h : Handle} (hh : h < t.size) :
    t.StandsBefore m h ↔ m ∈ (t.left? h).or (t.above? h) := by
  simp [StandsBefore, ht.previousSibling_of_lt hh, parent_of_lt hh, Option.or_eq_some_iff]

/-- What the exception for initializers in double braces means at a construct with both braces, the
closing one at `line` and `column`: whether it is the inner one of two, and whether it is alone. -/
structure BracedContext.Excuses (t : Tree) (construct : Handle) (kind : Kind) (c : BracedContext)
    (line column : Number) (double alone : Bool) : Prop where
  /-- Only instance initializers are excused, and only when a closing brace outside comes next. -/
  initializer : double = true → kind = .instanceInit ∧
    ∃ next, c.next = some next ∧ t.kind next = .ok .rightCurly ∧ ¬ t.InSubtree construct next
  /-- For all other constructs the next landmark and the start of the line decide. -/
  others : kind ≠ .instanceInit → (alone = true ↔
    (∀ next, c.next = some next → t.line next ≠ .ok line) ∧
      OnlyBlanksBefore column (t.sourceLine line))
  /-- An excused brace that starts its line passes the policies that want it alone. -/
  passes : double = true → OnlyBlanksBefore column (t.sourceLine line) →
    ∀ policy, policy ≠ .same → Finding.analyze t policy construct = .ok none
  /-- The policy that joins the parts of a statement still wants a line break in front of it. -/
  joined : double = true → OnlyBlanksBefore column (t.sourceLine line) →
    ∃ found, Finding.analyze t .same construct = .ok found ∧
      (∀ f, found = some f → f.violation = .lineBreakBefore) ∧
      (found.isSome = true ↔
        (∃ m, t.StandsBefore m c.right ∧ t.line m = .ok line) ∧ t.line c.left ≠ .ok line)
  /-- An initializer is excused if nothing behind the next brace is on its line. -/
  excused : kind = .instanceInit → ∀ next, c.next = some next → t.kind next = .ok .rightCurly →
    (∀ m, t.Follows next m → t.line m ≠ .ok line) → double = true

/-- **The exception for initializers in double braces** excuses instance initializers that another
closing brace follows, and nothing else. A brace that is excused and starts its line passes every
policy, except that the one that joins the parts of a statement may want a line break in front of it;
and an initializer is excused whenever nothing behind the next brace is on its line. -/
theorem double_brace_excuses (ht : t.Reachable) {kind : Kind} {category : Category}
    {context : Context} (hkind : t.kind construct = .ok kind)
    (hcategory : kind.category? = some category)
    (hcontext : Context.extract t construct category = .ok context)
    (hbraced : context.braced? = some c) :
    ∃ line column double alone, t.line c.right = .ok line ∧ t.column c.right = .ok column ∧
      c.isDoubleBrace t = .ok double ∧ c.isAlone t (t.sourceLine line) = .ok alone ∧
      c.Excuses t construct kind line column double alone := by
  have hwf := ht.wellFormed
  obtain ⟨hh, hkindAt⟩ := Tree.kind_eq_ok_iff.mp hkind
  obtain ⟨-, -, hnextEq, hendsEq⟩ := Context.braced?_eq_some_iff.mp hbraced
  have hfits := (Context.extract_yields hwf hh category).of_ok hcontext
  have hc := hfits.braced hbraced
  obtain ⟨double, hdouble, hinner⟩ := BracedContext.isDoubleBrace_yields hwf hc
  obtain ⟨a, ha, hall⟩ := Finding.analyze_of_braces hwf hkind hcategory hcontext hbraced
  have halone := (BracedContext.isAlone_yields hwf hc _).of_ok ha.alone
  rw [hkindAt] at hinner
  rw [hdouble, Except.ok.injEq, blankBefore_iff] at halone
  have hlines {m : Handle} (hm : m < t.size) :
      t.line m = .ok (t.lineAt c.right) ↔ t.lineAt m = t.lineAt c.right := by
    rw [Tree.line_of_lt hm, Except.ok.injEq]
  have hends : kind = .instanceInit → context.ends = true := by
    rintro rfl
    cases hcategory
    exact Context.ends_of_codeBlock hcontext
  refine ⟨_, _, double, a.alone, Tree.line_of_lt hc.right_lt, Tree.column_of_lt hc.right_lt,
    hdouble, ha.alone, ?initializer, ?others, ?passes, ?joined, ?excused⟩
  case initializer =>
    intro hd
    obtain ⟨hinit, ⟨next, hnext, hcurly⟩, -⟩ := hinner.mp hd
    refine ⟨hinit, next, hnext, Tree.kind_eq_ok_iff.mpr ⟨hc.next_known next hnext, hcurly⟩, ?_⟩
    exact hfits.outside_of_ends hwf hh (hends hinit) (hnextEq.trans hnext)
  case others =>
    intro hne
    have hnot : ¬ double = true := fun hd => hne (hinner.mp hd).1
    rw [halone]
    refine and_congr_left fun _ => ⟨fun h next hnext hline => ?_, fun h => ?_⟩
    · exact hnot (h ⟨next, hnext, ((hlines (hc.next_known next hnext)).mp hline).symm⟩)
    · rintro ⟨next, hnext, heq⟩
      exact absurd ((hlines (hc.next_known next hnext)).mpr heq.symm) (h next hnext)
  case passes =>
    intro hd hblank policy hpolicy
    rw [hall, BracedContext.Answers.verdict_of_alone (halone.mpr ⟨fun _ => hd, hblank⟩)]
    simp [hpolicy]
  case joined =>
    intro hd hblank
    have hleaves := ha.leavesNextPart_of_ends (hendsEq.symm.trans (hends (hinner.mp hd).1))
    have hlacks : a.lacksLineBreak = true ↔
        (∃ m, t.StandsBefore m c.right ∧ t.line m = .ok (t.lineAt c.right)) ∧
          t.line c.left ≠ .ok (t.lineAt c.right) := by
      rw [(BracedContext.lacksLineBreak_yields hwf hc).of_ok ha.lacksLineBreak]
      refine and_congr (exists_congr fun m => ?_) (not_congr (hlines hc.left_lt)).symm
      rw [hwf.standsBefore_iff hc.right_lt]
      exact and_congr_right fun hm => (hlines (hwf.known_before hc.right_lt m hm)).symm
    refine ⟨_, hall .same, ?_⟩
    rw [BracedContext.Answers.verdict_of_alone (halone.mpr ⟨fun _ => hd, hblank⟩), hleaves,
      ← hlacks]
    cases a.lacksLineBreak <;> simp
  case excused =>
    intro hinit next hnext hcurly hoff
    obtain ⟨hlt, hcurly⟩ := Tree.kind_eq_ok_iff.mp hcurly
    refine hinner.mpr ⟨hinit, ⟨next, hnext, hcurly⟩, fun terminator f hterminator hf heq => ?_⟩
    rw [hnext] at hterminator
    obtain ⟨hflt, hleft⟩ := hwf.leftOf_of_nextTokens hlt hterminator hf
    exact hoff f ((hwf.follows_iff_leftOf hlt hflt).mpr hleft) ((hlines hflt).mpr heq.symm)

/-- An anonymous class that is filled by an initializer. The two closing braces and the semicolon
share a line, and the next statement is on another one. -/
theorem double_brace_excuses_in_anonymous_class :
    let t := Tree.replay "new A() \x7b\x7b\n  f();\n\x7d\x7d;\na" [⟨.compilationUnit, 1, 0, none⟩,
      ⟨.newExpression, 1, 0, some 0⟩, ⟨.semicolon, 3, 2, some 0⟩, ⟨.identifier, 4, 0, some 0⟩,
      ⟨.typeBody, 1, 8, some 1⟩, ⟨.leftCurly, 1, 8, some 4⟩, ⟨.instanceInit, 1, 9, some 4⟩,
      ⟨.rightCurly, 3, 1, some 4⟩, ⟨.statementList, 1, 9, some 6⟩, ⟨.methodCall, 2, 3, some 8⟩,
      ⟨.rightCurly, 3, 0, some 8⟩]
    let context : Context := ⟨some 8, some 10, some 7, true⟩
    let c : BracedContext := ⟨8, 10, some 7, true⟩
    t.Reachable ∧ t.kind 6 = .ok .instanceInit ∧
      Kind.category? .instanceInit = some .codeBlock ∧
      Context.extract t 6 .codeBlock = .ok context ∧ context.braced? = some c ∧
      t.onSameLine (some 10) (some 7) = .ok true ∧ c.Excuses t 6 .instanceInit 3 0 true true := by
  intro t context c
  have ht : t.Reachable := Tree.reachable_replay _ _
  have hkind : t.kind 6 = .ok .instanceInit := by decide +kernel
  have hcontext : Context.extract t 6 .codeBlock = .ok context := by decide +kernel
  obtain ⟨line, column, double, alone, hline, hcolumn, hdouble, halone, hexcuses⟩ :=
    double_brace_excuses ht hkind rfl hcontext (c := c) rfl
  obtain rfl : 3 = line := by
    have h : t.line 10 = .ok 3 := by decide +kernel
    exact Except.ok.inj (h.symm.trans hline)
  obtain rfl : 0 = column := by
    have h : t.column 10 = .ok 0 := by decide +kernel
    exact Except.ok.inj (h.symm.trans hcolumn)
  obtain rfl : true = double := by
    have h : c.isDoubleBrace t = .ok true := by decide +kernel
    exact Except.ok.inj (h.symm.trans hdouble)
  obtain rfl : true = alone := by
    have h : c.isAlone t (t.sourceLine 3) = .ok true := by decide +kernel
    exact Except.ok.inj (h.symm.trans halone)
  exact ⟨ht, hkind, rfl, hcontext, rfl, by decide +kernel, hexcuses⟩

end ClosingBrace
