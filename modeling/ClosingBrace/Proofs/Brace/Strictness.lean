import ClosingBrace.Proofs.Brace.Verdicts
import ClosingBrace.Proofs.Lint.Selection

/-!
# Strict and lenient policies

All policies draw their verdicts from the same answers, so they can be compared: whatever a lenient
policy wants alone on its line, a stricter one wants alone as well. What holds at every node holds
of whole runs, because sorting keeps one list a sub-sequence of another.

## Main statements

* `Policy.MoreLenient`: which policies differ in their excuses only.
* `Finding.analyze_of_moreLenient`: what a lenient policy wants alone, a stricter one wants alone.
* `policies_by_strictness`: how the policies compare, over whole runs and at a construct.
-/

namespace ClosingBrace

variable {t : Tree} {construct : Handle}

namespace BracedContext.Answers
variable {a : Answers} {c : BracedContext} {rightLine : String}

/-! ## Verdicts compared -/

theorem verdict_of_ne_same {policy : Policy} (hpolicy : policy ≠ .same) {ends : Bool} :
    a.verdict ends policy = if a.violatesAlone ends policy then some .lineAlone else none := by
  simp [verdict, hpolicy]

theorem violatesAlone_of_verdict {policy : Policy} {ends : Bool}
    (h : a.verdict ends policy = some .lineAlone) : a.violatesAlone ends policy = true := by
  unfold verdict at h
  grind

theorem violatesAlone_of_isSome_verdict {policy : Policy} (hpolicy : policy ≠ .same) {ends : Bool}
    (h : (a.verdict ends policy).isSome = true) : a.violatesAlone ends policy = true := by
  rw [verdict_of_ne_same hpolicy] at h
  split at h
  · assumption
  · cases h

/-- Nothing but the answers to the first two questions keeps a verdict on whether the brace is alone
from being the last word. -/
theorem isSome_verdict_of_violatesAlone {policy : Policy} {ends : Bool}
    (h : a.violatesAlone ends policy = true) : (a.verdict ends policy).isSome = true := by
  unfold verdict
  grind

theorem verdict_ne_lineSame {ends : Bool} (h : a.leavesNextPart = false) (policy : Policy) :
    a.verdict ends policy ≠ some .lineSame := by
  unfold verdict
  grind

theorem verdict_ne_lineBreakBefore {ends : Bool} (h : a.lacksLineBreak = false) (policy : Policy) :
    a.verdict ends policy ≠ some .lineBreakBefore := by
  unfold verdict
  grind

/-- A brace that another part has to follow need not be alone. -/
theorem verdict_same_ne_lineAlone : a.verdict false .same ≠ some .lineAlone := by
  intro h
  cases violatesAlone_of_verdict h

/-- A brace that ends its construct has to be alone whenever its block is not on one line. -/
theorem violatesAlone_same_eq :
    a.violatesAlone true .same = a.violatesAlone true .aloneOrSingleLine := by
  simp [violatesAlone]

/-- A brace that ends its construct leaves no next part behind. -/
theorem Hold.leavesNextPart_of_ends (ha : a.Hold t c rightLine) (hends : c.ends = true) :
    a.leavesNextPart = false := by
  have hleaves := ha.leavesNextPart
  rw [BracedContext.leavesNextPart, if_pos hends] at hleaves
  exact (Except.ok.inj hleaves).symm

/-- Between two braces on one line no line break is lacking. -/
theorem Hold.lacksLineBreak_of_one_line (ht : t.WellFormed) (hc : c.Fits t construct)
    (ha : a.Hold t c rightLine) (hline : t.onSameLine (some c.left) (some c.right) = .ok true) :
    a.lacksLineBreak = false := by
  obtain ⟨broken, hbroken⟩ := (hasLineBreakBefore_alike ht.alike_self hc.related_self).exists_ok
  have hlacks := ha.lacksLineBreak
  rw [BracedContext.lacksLineBreak, hbroken, hline] at hlacks
  cases broken <;> exact (Except.ok.inj hlacks).symm

end BracedContext.Answers

/-! ## Lenient and stricter policies -/

/-- The second policy is as the first, but with fewer excuses for a brace that is not alone. -/
inductive Policy.MoreLenient : Policy → Policy → Prop
  | unlessEmpty : MoreLenient .aloneOrEmpty .alone
  | unlessSingleLine : MoreLenient .aloneOrSingleLine .alone
  | unlessContinued : MoreLenient .same .aloneOrSingleLine

theorem BracedContext.Answers.violatesAlone_of_moreLenient {a : Answers} {ends : Bool}
    {lenient strict : Policy} (hle : lenient.MoreLenient strict)
    (h : a.violatesAlone ends lenient = true) : a.violatesAlone ends strict = true := by
  cases hle <;> simp only [violatesAlone] at h ⊢ <;> grind

theorem Policy.MoreLenient.ne_same {lenient strict : Policy} (hle : lenient.MoreLenient strict) :
    strict ≠ .same := by
  cases hle <;> decide

namespace Finding

/-- Behind a finding there are answers, and they decide what the other policies find there. -/
theorem exists_answers_of_eq_some (ht : t.WellFormed) {policy : Policy} {f : Finding}
    (hf : analyze t policy construct = .ok (some f)) :
    ∃ (a : BracedContext.Answers) (ends : Bool), a.verdict ends policy = some f.violation ∧
      ∀ other, analyze t other construct =
        .ok ((a.verdict ends other).map fun violation => { f with violation }) := by
  obtain ⟨kind, category, context, c, _, hkind, hcategory, hcontext, hbraced, -⟩ :=
    analyze_eq_some hf
  obtain ⟨a, -, hall⟩ := analyze_of_braces ht hkind hcategory hcontext hbraced
  rw [hall] at hf
  obtain ⟨violation, hverdict, rfl⟩ := Option.map_eq_some_iff.mp (Except.ok.inj hf)
  exact ⟨a, c.ends, hverdict, hall⟩

/-- **What a lenient policy wants alone, a stricter one wants alone**, in the same words. -/
theorem analyze_of_moreLenient (ht : t.WellFormed) {lenient strict : Policy}
    (hle : lenient.MoreLenient strict) {f : Finding}
    (hf : analyze t lenient construct = .ok (some f)) (halone : f.violation = .lineAlone) :
    analyze t strict construct = .ok (some f) := by
  obtain ⟨a, ends, hverdict, hall⟩ := exists_answers_of_eq_some ht hf
  rw [halone] at hverdict
  have hviolates := BracedContext.Answers.violatesAlone_of_moreLenient hle
    (BracedContext.Answers.violatesAlone_of_verdict hverdict)
  rw [hall, BracedContext.Answers.verdict_of_ne_same hle.ne_same, if_pos hviolates, ← halone]
  rfl

/-- Policies that look at no other part of the statement find nothing but braces to put alone. -/
theorem lineAlone_of_ne_same (ht : t.WellFormed) {policy : Policy} (hpolicy : policy ≠ .same)
    {f : Finding} (hf : analyze t policy construct = .ok (some f)) : f.violation = .lineAlone := by
  obtain ⟨a, ends, hverdict, -⟩ := exists_answers_of_eq_some ht hf
  rw [BracedContext.Answers.verdict_of_ne_same hpolicy] at hverdict
  split at hverdict
  · exact (Option.some.inj hverdict).symm
  · cases hverdict

/-- The key of a diagnostic is that of the violation. -/
theorem messageKey_of_toDiagnostic {f : Finding} {severity : Severity} {d : Diagnostic}
    (hd : f.toDiagnostic t severity = .ok d) : d.messageKey = some f.violation.spec.key := by
  unfold toDiagnostic at hd
  obtain ⟨line, -, hd⟩ := bind_eq_ok_iff.mp hd
  obtain ⟨column, -, hd⟩ := bind_eq_ok_iff.mp hd
  rw [← Except.ok.inj hd]
  exact congrArg some rfl

end Finding

/-- Violations are told apart by their keys. -/
theorem Violation.key_inj {v w : Violation} (h : v.spec.key = w.spec.key) : v = w := by
  cases v <;> cases w <;> first | rfl | exact absurd h (by decide)

/-! ## What is reported at a node -/

namespace BraceOptions
variable {kinds : List Kind} {severity : Severity} {d : Diagnostic}

theorem report?_of_moreLenient (ht : t.WellFormed) {lenient strict : Policy}
    (hle : lenient.MoreLenient strict)
    (hd : (BraceOptions.mk lenient kinds severity).rule.report? t construct = some d)
    (hkey : d.messageKey = some "line.alone") :
    (BraceOptions.mk strict kinds severity).rule.report? t construct = some d := by
  obtain ⟨f, hf, hfd⟩ := (report?_eq_some_iff _).mp hd
  rw [Finding.messageKey_of_toDiagnostic hfd, Option.some.injEq] at hkey
  have halone : f.violation = .lineAlone := Violation.key_inj hkey
  exact (report?_eq_some_iff _).mpr ⟨f, Finding.analyze_of_moreLenient ht hle hf halone, hfd⟩

theorem messageKey_of_ne_same (ht : t.WellFormed) {policy : Policy} (hpolicy : policy ≠ .same)
    (hd : (BraceOptions.mk policy kinds severity).rule.report? t construct = some d) :
    d.messageKey = some "line.alone" := by
  obtain ⟨f, hf, hfd⟩ := (report?_eq_some_iff _).mp hd
  rw [Finding.messageKey_of_toDiagnostic hfd, Finding.lineAlone_of_ne_same ht hpolicy hf]
  rfl

end BraceOptions

/-! ## Whole runs -/

section Runs
variable {order : List Handle} {kinds : List Kind} {severity : Severity}

/-- Who answers less often, but then in the same way, gives a sub-sequence of the answers. -/
theorem filterMap_sublist_of_le {α β : Type} {f g : α → Option β} {l : List α}
    (h : ∀ a ∈ l, ∀ b, f a = some b → g a = some b) : (l.filterMap f).Sublist (l.filterMap g) := by
  induction l with
  | nil => exact List.Sublist.refl _
  | cons a l ih =>
      have hrest := ih fun b hb => h b (List.mem_cons_of_mem _ hb)
      cases hf : f a with
      | none =>
          rw [List.filterMap_cons_none hf]
          cases hg : g a with
          | none => rwa [List.filterMap_cons_none hg]
          | some b =>
              rw [List.filterMap_cons_some hg]
              exact hrest.cons b
      | some b =>
          rw [List.filterMap_cons_some hf,
            List.filterMap_cons_some (h a List.mem_cons_self b hf)]
          exact hrest.cons_cons b

/-- What a run with this policy returns. -/
def resultOf (order : List Handle) (t : Tree) (kinds : List Kind) (severity : Severity)
    (policy : Policy) : List Diagnostic :=
  ((Rule.nodesOf order t kinds).filterMap
    ((BraceOptions.mk policy kinds severity).rule.report? t)).mergeSort Diagnostic.notAfter

theorem run_eq_resultOf (ht : t.WellFormed) (horder : t.Listed [0] order) (policy : Policy) :
    Rule.run t [(BraceOptions.mk policy kinds severity).rule] =
      .ok (resultOf order t kinds severity policy) :=
  Rule.run_singleton ht horder fun _ hh => BraceOptions.check_eq_ok _ ht hh

theorem messageKey_of_mem_resultOf (ht : t.WellFormed) {policy : Policy} (hpolicy : policy ≠ .same)
    {d : Diagnostic} (hd : d ∈ resultOf order t kinds severity policy) :
    d.messageKey = some "line.alone" := by
  unfold resultOf at hd
  rw [List.mem_mergeSort, List.mem_filterMap] at hd
  obtain ⟨h, -, hd⟩ := hd
  exact BraceOptions.messageKey_of_ne_same ht hpolicy hd

/-- Of what a run with a lenient policy returns, the braces that should be alone are a sub-sequence
of what a stricter policy returns. -/
theorem sublist_resultOf_of_moreLenient (ht : t.WellFormed) {lenient strict : Policy}
    (hle : lenient.MoreLenient strict) :
    ((resultOf order t kinds severity lenient).filter
      fun d => d.messageKey = some "line.alone").Sublist
      (resultOf order t kinds severity strict) := by
  unfold resultOf
  rw [filter_mergeSort_comm Diagnostic.notAfter_trans Diagnostic.notAfter_total,
    List.filter_filterMap]
  apply sublist_mergeSort_of_sublist Diagnostic.notAfter_trans Diagnostic.notAfter_total
  apply filterMap_sublist_of_le
  intro h _ d hd
  obtain ⟨hd, hkey⟩ := Option.filter_eq_some_iff.mp hd
  exact BraceOptions.report?_of_moreLenient ht hle hd (of_decide_eq_true hkey)

end Runs

/-! ## The policies compared -/

/-- A verdict that is never drawn is never found. -/
theorem Finding.violation_ne_of_verdict {verdict : Option Violation} {v : Violation}
    {right : Handle} {column : Number} (h : verdict ≠ some v) :
    ∀ f ∈ verdict.map fun violation => Finding.mk violation right column, f.violation ≠ v := by
  intro f hf hv
  obtain ⟨violation, hverdict, rfl⟩ := Option.map_eq_some_iff.mp hf
  apply h
  rw [hverdict]
  exact congrArg some hv

/-- What the policy that looks at the next part finds at a construct, compared with the others. -/
theorem Finding.exists_by_policy (ht : t.WellFormed) {kind : Kind} {category : Category}
    {context : Context} (hkind : t.kind construct = .ok kind)
    (hcategory : kind.category? = some category)
    (hcontext : Context.extract t construct category = .ok context) :
    ∃ finding : Policy → Option Finding,
      (∀ policy, analyze t policy construct = .ok (finding policy)) ∧
      (context.ends = true → (∀ f ∈ finding .same, f.violation ≠ .lineSame) ∧
        ((finding .aloneOrSingleLine).isSome → (finding .same).isSome)) ∧
      (context.ends = false → ∀ f ∈ finding .same, f.violation ≠ .lineAlone) ∧
      (t.onSameLine context.left context.right = .ok true →
        ∀ f ∈ finding .same, f.violation ≠ .lineBreakBefore) := by
  cases hbraced : context.braced? with
  | none =>
      refine ⟨fun _ => none, fun policy => ?_, by simp⟩
      exact analyze_of_no_braces policy hkind hcategory hcontext hbraced
  | some c =>
      have hc := BracedContext.fits_of_extract ht hkind hcontext hbraced
      obtain ⟨hleft, hright, -, hends⟩ := Context.braced?_eq_some_iff.mp hbraced
      obtain ⟨a, ha, hall⟩ := analyze_of_braces ht hkind hcategory hcontext hbraced
      refine ⟨_, hall, ?_, ?_, ?_⟩
      · intro hended
        rw [hends] at hended
        have hleaves := ha.leavesNextPart_of_ends hended
        rw [hended]
        refine ⟨violation_ne_of_verdict (a.verdict_ne_lineSame hleaves .same), ?_⟩
        rw [Option.isSome_map, Option.isSome_map]
        intro hsome
        apply BracedContext.Answers.isSome_verdict_of_violatesAlone
        rw [BracedContext.Answers.violatesAlone_same_eq]
        exact BracedContext.Answers.violatesAlone_of_isSome_verdict (by decide) hsome
      · intro hended
        rw [hends] at hended
        rw [hended]
        exact violation_ne_of_verdict a.verdict_same_ne_lineAlone
      · intro hline
        rw [hleft, hright] at hline
        have hlacks := ha.lacksLineBreak_of_one_line ht hc hline
        exact violation_ne_of_verdict (a.verdict_ne_lineBreakBefore hlacks .same)

/-- **The policies are ordered by strictness.** Over a whole run, the two lenient policies report a
part of what the strict one reports, all of it braces that should be alone; and the policy that
looks at the next part wants no more braces alone than the policy that excuses single lines. At a
construct, that policy asks for the next part only where one has to follow, and for a brace to be
alone only where none has to; there it is silent only where the policy that excuses single lines is.
Braces on one line lack no line break. -/
theorem policies_by_strictness (ht : t.Reachable) {root : Handle} (hroot : t.root = .ok root) :
    (∀ kinds severity, ∃ result : Policy → List Diagnostic,
      (∀ policy, Rule.run t [(BraceOptions.mk policy kinds severity).rule] = .ok (result policy)) ∧
      (result .aloneOrEmpty).Sublist (result .alone) ∧
      (result .aloneOrSingleLine).Sublist (result .alone) ∧
      (∀ policy, policy ≠ .same → ∀ d ∈ result policy, d.messageKey = some "line.alone") ∧
      ((result .same).filter fun d => d.messageKey = some "line.alone").Sublist
        (result .aloneOrSingleLine)) ∧
    ∀ h kind category context, t.kind h = .ok kind → kind.category? = some category →
      Context.extract t h category = .ok context →
      ∃ finding : Policy → Option Finding,
        (∀ policy, Finding.analyze t policy h = .ok (finding policy)) ∧
        (context.ends = true → (∀ f ∈ finding .same, f.violation ≠ .lineSame) ∧
          ((finding .aloneOrSingleLine).isSome → (finding .same).isSome)) ∧
        (context.ends = false → ∀ f ∈ finding .same, f.violation ≠ .lineAlone) ∧
        (t.onSameLine context.left context.right = .ok true →
          ∀ f ∈ finding .same, f.violation ≠ .lineBreakBefore) := by
  have hwf := ht.wellFormed
  constructor
  · intro kinds severity
    obtain ⟨hsize, rfl⟩ := hwf.root_eq_ok_iff.mp hroot
    obtain ⟨order, horder, -⟩ := hwf.exists_preorder hsize
    have hkey : ∀ policy, policy ≠ .same → ∀ d ∈ resultOf order t kinds severity policy,
        d.messageKey = some "line.alone" :=
      fun policy hpolicy d hd => messageKey_of_mem_resultOf hwf hpolicy hd
    -- Where every diagnostic is about a brace to put alone, the filter keeps all of them.
    have hlenient : ∀ lenient : Policy, lenient ≠ .same → lenient.MoreLenient .alone →
        (resultOf order t kinds severity lenient).Sublist
          (resultOf order t kinds severity .alone) := by
      intro lenient hne hle
      rw [← List.filter_eq_self.mpr fun d hd => decide_eq_true (hkey lenient hne d hd)]
      exact sublist_resultOf_of_moreLenient hwf hle
    refine ⟨resultOf order t kinds severity, run_eq_resultOf hwf horder, ?_, ?_, hkey, ?_⟩
    · exact hlenient .aloneOrEmpty (by decide) .unlessEmpty
    · exact hlenient .aloneOrSingleLine (by decide) .unlessSingleLine
    · exact sublist_resultOf_of_moreLenient hwf .unlessContinued
  · intro h kind category context hkind hcategory hcontext
    exact Finding.exists_by_policy hwf hkind hcategory hcontext

/-- An empty block on one line and an else branch whose block ends behind its last statement. The
policies find four different things about the two braces. -/
theorem policies_by_strictness_in_else :
    let t := Tree.replay "if (a) \x7b\x7d\nelse \x7b b();\n c(); \x7d" [⟨.ifStatement, 1, 0, none⟩,
      ⟨.statementList, 1, 7, some 0⟩, ⟨.rightCurly, 1, 8, some 1⟩, ⟨.elseBranch, 2, 0, some 0⟩,
      ⟨.statementList, 2, 5, some 3⟩, ⟨.expression, 2, 7, some 4⟩, ⟨.expression, 3, 1, some 4⟩,
      ⟨.rightCurly, 3, 6, some 4⟩]
    t.Reachable ∧ t.root = .ok 0 ∧
      (∃ result : Policy → List Diagnostic,
        (∀ policy, Rule.run t [(BraceOptions.mk policy [.ifStatement, .elseBranch] .error).rule] =
          .ok (result policy)) ∧
        (result .aloneOrEmpty).Sublist (result .alone) ∧
        (result .aloneOrSingleLine).Sublist (result .alone)) ∧
      Finding.analyze t .alone 0 = .ok (some ⟨.lineAlone, 2, 9⟩) ∧
      Finding.analyze t .aloneOrEmpty 0 = .ok none ∧
      Finding.analyze t .aloneOrSingleLine 0 = .ok none ∧
      Finding.analyze t .same 0 = .ok (some ⟨.lineSame, 2, 9⟩) ∧
      t.kind 3 = .ok .elseBranch ∧ Kind.elseBranch.category? = some .branch ∧
      Context.extract t 3 .branch = .ok ⟨some 4, some 7, none, true⟩ ∧
      Finding.analyze t .same 3 = .ok (some ⟨.lineBreakBefore, 7, 7⟩) ∧
      ∃ finding : Policy → Option Finding,
        (∀ policy, Finding.analyze t policy 3 = .ok (finding policy)) ∧
        (∀ f ∈ finding .same, f.violation ≠ .lineSame) ∧
        ((finding .aloneOrSingleLine).isSome → (finding .same).isSome) := by
  intro t
  have ht : t.Reachable := Tree.reachable_replay _ _
  have hroot : t.root = .ok 0 := by decide +kernel
  have hkind : t.kind 3 = .ok .elseBranch := by decide +kernel
  have hcontext : Context.extract t 3 .branch = .ok ⟨some 4, some 7, none, true⟩ := by
    decide +kernel
  obtain ⟨hruns, hconstructs⟩ := policies_by_strictness ht hroot
  obtain ⟨result, hresult, hempty, hsingle, -⟩ := hruns [.ifStatement, .elseBranch] .error
  obtain ⟨finding, hfinding, hends, -⟩ := hconstructs 3 _ _ _ hkind rfl hcontext
  obtain ⟨hsame, hsome⟩ := hends rfl
  exact ⟨ht, hroot, ⟨result, hresult, hempty, hsingle⟩, by decide +kernel, by decide +kernel,
    by decide +kernel, by decide +kernel, hkind, rfl, hcontext, by decide +kernel, finding,
    hfinding, hsame, hsome⟩

end ClosingBrace
