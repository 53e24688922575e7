import ClosingBrace.Brace.Rule
import ClosingBrace.Proofs.Brace.Questions
import ClosingBrace.Proofs.Number.Whole
import ClosingBrace.Proofs.Text.Prefixes

/-!
# Verdicts

What a brace alone on its line means is said in terms of lines and blanks; the other questions
matter here only in that they have answers. So there is always a verdict, a finding points at a
node, and a check of a node never fails. At related nodes of alike trees the findings are related.

## Main statements

* `isAlone_yields`: when a brace counts as alone.
* `analyze_of_braces`, `analyze_yields`: what is found at a construct, and at any node.
* `analyze_alike`, `check_alike`: related nodes have related findings, and the same reports.
* `check_eq_ok`, `report?_eq_some_iff`: a check always answers, with the diagnostic of the finding.
-/

namespace ClosingBrace

variable {t : Tree} {construct : Handle}

/-! ## The start of a line -/

/-- What counts before a column is what stands within so many units from the start. -/
theorem blankBefore_of_toNat? {column : Number} {n : Nat} (h : column.toNat? = some n)
    (line : String) : blankBefore column line = Text.blankWithin n line.toList := by
  have hcut : Text.cutPoint n (Text.widthOf line.toList) =
      min n (Text.widthOf line.toList) := by
    rw [Text.cutPoint, if_neg (by omega), Int.toNat_natCast]
  show Text.blankWithin (Text.cutPoint column.truncate _) line.toList = _
  rw [Number.truncate_of_toNat? h, hcut, Text.blankWithin_min]

theorem Tree.sourceLine_of_index (t : Tree) {line : Number} {i : Nat}
    (hi : (line - 1).toNat? = some i) : t.sourceLine line = t.lines[i]?.getD "" := by
  unfold sourceLine
  rw [hi]
  exact Array.getD_eq_getD_getElem?

/-- A line that is no place in a text is empty. -/
theorem Tree.sourceLine_of_no_index (t : Tree) {line : Number}
    (hi : (line - 1).toNat? = none) : t.sourceLine line = "" := by
  unfold sourceLine
  rw [hi]

/-- Whether nothing but blanks stands before a node on its line. -/
def Tree.startsLine (t : Tree) (h : Handle) : Bool :=
  blankBefore (t.columnAt h) (t.sourceLine (t.lineAt h))

/-- The closing brace of a node, if the node is a construct that has both braces. -/
def Tree.closingBrace? (t : Tree) (construct : Handle) : Option Handle := do
  let kind ← (t.kind construct).toOption
  let category ← kind.category?
  let context ← (Context.extract t construct category).toOption
  return (← context.braced?).right

theorem Tree.closingBrace?_eq_some_iff {brace : Handle} :
    t.closingBrace? construct = some brace ↔ ∃ kind category context c,
      t.kind construct = .ok kind ∧ kind.category? = some category ∧
        Context.extract t construct category = .ok context ∧ context.braced? = some c ∧
        c.right = brace := by
  have hok : ∀ {α : Type} {x : Except Error α} {a : α}, x.toOption = some a ↔ x = .ok a := by
    rintro α (_ | _) a <;> simp [Except.toOption]
  simp [closingBrace?, Option.bind_eq_some_iff, hok]

/-- A closing brace is a node of the tree, and so is its construct. -/
theorem Tree.WellFormed.closingBrace?_lt (ht : t.WellFormed) {brace : Handle}
    (h : t.closingBrace? construct = some brace) : construct < t.size ∧ brace < t.size := by
  obtain ⟨kind, category, context, c, hkind, -, hcontext, hbraced, rfl⟩ :=
    closingBrace?_eq_some_iff.mp h
  have hc := BracedContext.fits_of_extract ht hkind hcontext hbraced
  exact ⟨hc.construct_lt ht, hc.right_lt⟩

namespace BracedContext
variable {c : BracedContext}

/-- **A brace is alone on its line** when nothing but blanks stands before it and the next token is
elsewhere, or else the brace is the inner one of two. -/
theorem isAlone_yields (ht : t.WellFormed) (hc : c.Fits t construct) (rightLine : String) :
    Yields (c.isAlone t rightLine) fun alone => alone = true ↔
      ((∃ m ∈ c.next, t.lineAt c.right = t.lineAt m) → c.isDoubleBrace t = .ok true) ∧
        blankBefore (t.columnAt c.right) rightLine = true := by
  unfold isAlone
  refine (Tree.onSameLine_yields hc.right_known hc.next_known).bind fun same hsame => ?_
  extract_lets rest
  have hrest : ∀ apart : Bool,
      Yields (rest apart) fun alone => alone = true ↔
        apart = true ∧ blankBefore (t.columnAt c.right) rightLine = true := by
    intro apart
    cases apart with
    | false => exact .ok (by simp)
    | true =>
        refine (Yields.of_eq (Tree.column_of_lt hc.right_lt)).bind fun column hcolumn => ?_
        subst hcolumn
        exact .ok (by simp)
  have hsame' : same = true ↔ ∃ m ∈ c.next, t.lineAt c.right = t.lineAt m := by
    simpa using hsame
  rw [← hsame']
  cases same with
  | false => simpa using hrest true
  | true =>
      obtain ⟨double, hdouble⟩ := (isDoubleBrace_alike ht.alike_self hc.related_self).exists_ok
      obtain ⟨alone, halone, hiff⟩ := hrest double
      refine ⟨alone, ?_, by simpa [hdouble] using hiff⟩
      simp only [if_true, hdouble]
      exact halone

end BracedContext

/-! ## Findings -/

namespace Finding

/-- At a node with both braces the finding is the verdict on them. -/
theorem analyze_of_verdict {kind : Kind} {category : Category} {context : Context}
    {c : BracedContext} {policy : Policy} {verdict : Option Violation}
    (hkind : t.kind construct = .ok kind) (hcategory : kind.category? = some category)
    (hcontext : Context.extract t construct category = .ok context)
    (hbraced : context.braced? = some c) (hright : c.right < t.size)
    (hverdict : c.verdict t policy (t.sourceLine (t.lineAt c.right)) = .ok verdict) :
    analyze t policy construct =
      .ok (verdict.map fun violation => ⟨violation, c.right, t.columnAt c.right + 1⟩) := by
  simp only [analyze, hkind, hcategory, hcontext, hbraced, Tree.line_of_lt hright, hverdict,
    Tree.column_of_lt hright, ok_bind]
  cases verdict <;> rfl

/-- **One set of answers serves all policies** at a construct with both braces. -/
theorem analyze_of_braces (ht : t.WellFormed) {kind : Kind} {category : Category}
    {context : Context} {c : BracedContext} (hkind : t.kind construct = .ok kind)
    (hcategory : kind.category? = some category)
    (hcontext : Context.extract t construct category = .ok context)
    (hbraced : context.braced? = some c) :
    ∃ a : BracedContext.Answers, a.Hold t c (t.sourceLine (t.lineAt c.right)) ∧
      ∀ policy, analyze t policy construct = .ok ((a.verdict c.ends policy).map fun violation =>
        ⟨violation, c.right, t.columnAt c.right + 1⟩) := by
  have hc := BracedContext.fits_of_extract ht hkind hcontext hbraced
  obtain ⟨a, ha⟩ := hc.exists_answers ht (t.sourceLine (t.lineAt c.right))
  refine ⟨a, ha, fun policy => ?_⟩
  exact analyze_of_verdict hkind hcategory hcontext hbraced hc.right_lt (ha.verdict_eq policy)

/-- Nothing is found at a construct that lacks a brace. -/
theorem analyze_of_no_braces {kind : Kind} {category : Category} {context : Context}
    (policy : Policy) (hkind : t.kind construct = .ok kind)
    (hcategory : kind.category? = some category)
    (hcontext : Context.extract t construct category = .ok context)
    (hbraced : context.braced? = none) : analyze t policy construct = .ok none := by
  simp only [analyze, hkind, hcategory, hcontext, hbraced, ok_bind]
  rfl

/-- Behind every finding there is a construct with both braces and a verdict on them. -/
theorem analyze_eq_some {policy : Policy} {f : Finding}
    (h : analyze t policy construct = .ok (some f)) :
    ∃ kind category context c line, t.kind construct = .ok kind ∧ kind.category? = some category ∧
      Context.extract t construct category = .ok context ∧ context.braced? = some c ∧
      c.right = f.right ∧ c.verdict t policy (t.sourceLine line) = .ok (some f.violation) := by
  unfold analyze at h
  obtain ⟨kind, hkind, h⟩ := bind_eq_ok_iff.mp h
  cases hcategory : kind.category? with
  | none =>
      rw [hcategory] at h
      cases h
  | some category =>
      rw [hcategory] at h
      obtain ⟨context, hcontext, h⟩ := bind_eq_ok_iff.mp h
      cases hbraced : context.braced? with
      | none =>
          rw [hbraced] at h
          cases h
      | some c =>
          rw [hbraced] at h
          obtain ⟨line, -, h⟩ := bind_eq_ok_iff.mp h
          obtain ⟨verdict, hverdict, h⟩ := bind_eq_ok_iff.mp h
          cases verdict with
          | none => cases h
          | some violation =>
              obtain ⟨column, -, h⟩ := bind_eq_ok_iff.mp h
              cases h
              exact ⟨kind, category, context, c, line, hkind, hcategory, hcontext, hbraced, rfl,
                hverdict⟩

/-- **There is always a verdict on a node**, and a finding points at a node and has its column,
counted from 1. -/
theorem analyze_yields (ht : t.WellFormed) (hh : construct < t.size) (policy : Policy) :
    Yields (analyze t policy construct) fun found =>
      ∀ f ∈ found, f.right < t.size ∧ f.column = t.columnAt f.right + 1 := by
  have hkind := Tree.kind_of_lt hh
  cases hcategory : (t.kindAt construct).category? with
  | none =>
      rw [analyze_of_not_construct hkind hcategory]
      exact .ok fun f hf => by cases hf
  | some category =>
      obtain ⟨context, hcontext, hfits⟩ := Context.extract_yields ht hh category
      cases hbraced : context.braced? with
      | none =>
          rw [analyze_of_no_braces policy hkind hcategory hcontext hbraced]
          exact .ok fun f hf => by cases hf
      | some c =>
          have hc := hfits.braced hbraced
          obtain ⟨a, -, hall⟩ := analyze_of_braces ht hkind hcategory hcontext hbraced
          rw [hall]
          refine .ok fun f hf => ?_
          obtain ⟨violation, -, rfl⟩ := Option.map_eq_some_iff.mp hf
          exact ⟨hc.right_lt, rfl⟩

/-- Findings of the same violation at related braces, each with the column of its brace. -/
structure Related (R : Handle → Handle → Prop) (t u : Tree) (f g : Finding) : Prop where
  violation : f.violation = g.violation
  right : R f.right g.right
  left_column : f.column = t.columnAt f.right + 1
  right_column : g.column = u.columnAt g.right + 1

/-- **Related nodes have related findings** in alike trees, if the closing braces there start a line
in the one tree when they do in the other. -/
theorem analyze_alike {R : Handle → Handle → Prop} {u : Tree} {a b : Handle}
    (h : Tree.Alike R t u)
    (hstarts : ∀ {x y}, R x y → t.closingBrace? a = some x → t.startsLine x = u.startsLine y)
    (hab : R a b) (policy : Policy) :
    BothYield (Option.Rel (Related R t u)) (analyze t policy a) (analyze u policy b) := by
  obtain ⟨kind, _, hkind, hkind', rfl⟩ := h.kind hab
  simp only [analyze, hkind, hkind', ok_bind]
  cases hcategory : kind.category? with
  | none => exact .ok .none
  | some category =>
      obtain ⟨context, context', hcontext, hcontext', hrel⟩ := Context.extract_alike h hab category
      simp only [hcontext, hcontext', ok_bind]
      have hbraced := BracedContext.rel_braced? hrel
      generalize hc : context.braced? = braced at hbraced ⊢
      generalize context'.braced? = braced' at hbraced ⊢
      cases hbraced with
      | none => exact .ok .none
      | @some c d hcd =>
          have hcloses : t.closingBrace? a = some c.right := Tree.closingBrace?_eq_some_iff.mpr
            ⟨kind, category, context, c, hkind, hcategory, hcontext, hc, rfl⟩
          obtain ⟨hlt, hlt'⟩ := h.lt_size hcd.right
          simp only [Tree.line_of_lt hlt, Tree.line_of_lt hlt', ok_bind]
          refine (BracedContext.verdict_alike h hcd (hstarts hcd.right hcloses) policy).bind ?_
          rintro verdict _ rfl
          cases verdict with
          | none => exact .ok .none
          | some violation =>
              rw [Tree.column_of_lt hlt, Tree.column_of_lt hlt']
              exact .ok (.some ⟨rfl, hcd.right, rfl, rfl⟩)

/-- What points at a node can be shown. -/
theorem exists_toDiagnostic {f : Finding} (hright : f.right < t.size) (severity : Severity) :
    ∃ d, f.toDiagnostic t severity = .ok d := by
  simp only [toDiagnostic, Tree.line_of_lt hright, Tree.column_of_lt hright, ok_bind]
  exact ⟨_, rfl⟩

end Finding

/-! ## Checks -/

/-- What the check of a node reports, with nothing in place of an error. -/
def Rule.report? (rule : Rule) (t : Tree) (h : Handle) : Option Diagnostic :=
  match rule.check t h with
  | .ok report => report
  | .error _ => none

namespace BraceOptions
variable (options : BraceOptions)

/-- **Checking a node never fails**, wherever the nodes of the tree may stand. -/
theorem check_eq_ok (ht : t.WellFormed) (hh : construct < t.size) :
    options.rule.check t construct = .ok (options.rule.report? t construct) := by
  obtain ⟨found, hfound, hplaced⟩ := Finding.analyze_yields ht hh options.policy
  cases found with
  | none => simp [Rule.report?, rule, hfound, ok_bind, pure, Except.pure]
  | some f =>
      obtain ⟨d, hd⟩ := Finding.exists_toDiagnostic (hplaced f rfl).1 options.severity
      simp [Rule.report?, rule, hfound, hd, ok_bind, pure, Except.pure]

/-- **Checks report the same at related nodes** that stand in the same place. -/
theorem check_alike {R : Handle → Handle → Prop} {u : Tree} {a b : Handle}
    (h : Tree.Alike R t u)
    (hstarts : ∀ {x y}, R x y → t.closingBrace? a = some x → t.startsLine x = u.startsLine y)
    (hplaces : ∀ {a b}, R a b → t.lineAt a = u.lineAt b ∧ t.columnAt a = u.columnAt b)
    (hab : R a b) : BothYield Eq (options.rule.check t a) (options.rule.check u b) := by
  refine (Finding.analyze_alike h hstarts hab options.policy).bind fun found found' hfound => ?_
  cases hfound with
  | none => exact .ok rfl
  | @some f g hfg =>
      obtain ⟨hf, hg⟩ := h.lt_size hfg.right
      obtain ⟨hline, hcolumn⟩ := hplaces hfg.right
      have hfinding : f.column = g.column := by
        rw [hfg.left_column, hfg.right_column, hcolumn]
      simp only [Finding.toDiagnostic, Tree.line_of_lt hf, Tree.line_of_lt hg,
        Tree.column_of_lt hf, Tree.column_of_lt hg, ok_bind, hline, hcolumn, hfg.violation,
        Finding.args, hfinding]
      exact .ok rfl

/-- What is reported at a node is the diagnostic of what is found there. -/
theorem report?_eq_some_iff {d : Diagnostic} :
    options.rule.report? t construct = some d ↔
      ∃ f, Finding.analyze t options.policy construct = .ok (some f) ∧
        f.toDiagnostic t options.severity = .ok d := by
  cases hfound : Finding.analyze t options.policy construct with
  | error e => simp [Rule.report?, rule, hfound, bind, Except.bind]
  | ok found =>
      cases found with
      | none => simp [Rule.report?, rule, hfound, ok_bind, pure, Except.pure]
      | some f =>
          cases hd : f.toDiagnostic t options.severity with
          | error e => simp [Rule.report?, rule, hfound, hd, bind, Except.bind]
          | ok d' => simp [Rule.report?, rule, hfound, hd, bind, Except.bind, pure, Except.pure]

end BraceOptions
end ClosingBrace
