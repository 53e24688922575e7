import ClosingBrace.Proofs.Lint.Renumbering
import ClosingBrace.Proofs.Tree.Displaced

/-!
# Diagnostics move with the code

Code that is displaced as a whole is linted as before: every check compares positions with each
other or looks at the start of a line, and neither changes. So the diagnostics are the old ones in
the old order, each at the displaced position, with a message that names the new column.

## Main statements

* `Finding.displace_told`: the diagnostic of a displaced finding is the displaced diagnostic.
* `Tree.check_displace`: what a check reports at a displaced node.
* `lint_moves_with_code`: what linting a displaced document returns.
-/

namespace ClosingBrace

variable {k c : Nat}

/-! ## Displaced diagnostics -/

/-- A number that counts columns, `c` columns further right; a text stays as it is. -/
def Argument.displace (c : Nat) : Argument → Argument
  | .text value => .text value
  | .number value => .number (value + .ofNat c)

/-- The template of the messages with a key. -/
def Violation.template? (key : String) : Option String :=
  ([.lineBreakBefore, .lineSame, .lineAlone].find? fun v : Violation => v.spec.key = key).map
    fun v => v.spec.template

namespace Diagnostic

/-- A diagnostic, `k` lines further down and `c` columns further right. The column is also its
second argument, and the message is written anew with it. -/
def displace (k c : Nat) (d : Diagnostic) : Diagnostic :=
  let args := d.args.map fun args => args.modify 1 (Argument.displace c)
  { d with
    line := d.line + .ofNat k
    column := d.column + .ofNat c
    message := match d.messageKey.bind Violation.template?, args with
      | some template, some args => Message.format template args
      | _, _ => d.message
    args := args }

/-- A diagnostic whose position can be displaced and stay exact. -/
structure Displaceable (k c : Nat) (d : Diagnostic) : Prop where
  line : ∃ m, d.line = .ofNat m ∧ m + k ≤ Number.wholeLimit
  column : ∃ n, d.column = .ofNat n ∧ n + c ≤ Number.wholeLimit

/-- Diagnostics that are displaced together keep their order. -/
theorem notAfter_displace {d e : Diagnostic} (hd : d.Displaceable k c) (he : e.Displaceable k c) :
    (d.displace k c).notAfter (e.displace k c) = d.notAfter e := by
  obtain ⟨⟨m, hm, hmk⟩, n, hn, hnc⟩ := hd
  obtain ⟨⟨m', hm', hmk'⟩, n', hn', hnc'⟩ := he
  rw [Bool.eq_iff_iff, notAfter_iff, notAfter_iff]
  show d.line + .ofNat k < e.line + .ofNat k ∨ d.line + .ofNat k = e.line + .ofNat k ∧
    d.column + .ofNat c ≤ e.column + .ofNat c ↔ _
  rw [hm, hm', hn, hn', Number.ofNat_add_lt_iff hmk hmk', Number.ofNat_add_inj hmk hmk',
    Number.ofNat_add_le_iff hnc hnc']

end Diagnostic

/-! ## Displaced findings -/

/-- A finding, `c` columns further right. -/
def Finding.displace (c : Nat) (f : Finding) : Finding :=
  { f with column := f.column + .ofNat c }

/-- A template is found by its key. -/
theorem Violation.template?_key (v : Violation) :
    Violation.template? v.spec.key = some v.spec.template := by
  cases v <;> decide +kernel

/-- **The diagnostic of a displaced finding is the displaced diagnostic.** -/
theorem Finding.displace_told (severity : Severity) (line : Number) (f : Finding) :
    (f.told severity line).displace k c = (f.displace c).told severity (line + .ofNat k) := by
  simp [Diagnostic.displace, told, Finding.displace, args, Violation.template?_key,
    Argument.displace]

theorem Finding.displaceable_told {f : Finding} {line column : Number}
    (hplace : Displaceable k c line column) (hcolumn : f.column = column + 1)
    (severity : Severity) : (f.told severity line).Displaceable k c := by
  obtain ⟨⟨m, hline, hm⟩, n, rfl, hn⟩ := hplace
  have hle : n + 1 ≤ Number.wholeLimit := by omega
  refine ⟨⟨m + 1, hline, hm.le⟩, n + 1, ?_, by omega⟩
  show f.column = _
  rw [hcolumn]
  exact Number.ofNat_add_ofNat hle

namespace Tree

variable {t : Tree} {h : Handle}

/-- **What is found at a displaced node** is what was found at the node, further right. -/
theorem analyze_displace (ht : t.WellFormed) (hall : t.All (Displaceable k c)) (hh : h < t.size)
    (policy : Policy) :
    BothYield (fun x y => y = x.map (Finding.displace c) ∧
        ∀ f ∈ x, f.right < t.size ∧ f.column = t.columnAt f.right + 1)
      (Finding.analyze t policy h) (Finding.analyze (t.displace k c) policy h) := by
  have hstarts : ∀ {a b}, t.Same a b → t.startsLine a = (t.displace k c).startsLine b := by
    rintro a _ ⟨ha, rfl⟩
    exact (startsLine_displace hall ha).symm
  -- Alike trees have related findings; only their columns are left to compare.
  refine (Finding.analyze_alike (alike_displace ht hall) (fun hab _ => hstarts hab) ⟨hh, rfl⟩
    policy).mono ?_
  intro x y hxy
  cases hxy with
  | none =>
      refine ⟨rfl, ?_⟩
      intro f hf
      cases hf
  | @some f g hfg =>
      obtain ⟨violation, right, column⟩ := f
      obtain ⟨violation', right', column'⟩ := g
      obtain ⟨hviolation, ⟨hright, hright'⟩, hcolumn, hcolumn'⟩ := hfg
      simp only at hviolation hright hright' hcolumn hcolumn'
      subst hviolation hright'
      constructor
      · rw [Option.map_some, Finding.displace, hcolumn, hcolumn', columnAt_displace hright,
          (hall right hright).column_add_one]
      · rintro _ ⟨⟩
        exact ⟨hright, hcolumn⟩

/-- **What is reported at a displaced node** is the displaced report. -/
theorem check_displace (ht : t.WellFormed) (hall : t.All (Displaceable k c)) (hh : h < t.size)
    (options : BraceOptions) :
    BothYield (fun x y => y = x.map (Diagnostic.displace k c) ∧
        ∀ d ∈ x, d.Displaceable k c)
      (options.rule.check t h) (options.rule.check (t.displace k c) h) := by
  have hplaced : t.All Placed := fun h hh => (hall h hh).placed
  have hplaced' : (t.displace k c).All Placed := by
    intro h hh
    rw [size_displace] at hh
    rw [lineAt_displace hh, columnAt_displace hh]
    exact (hall h hh).placed_displaced
  refine (analyze_displace ht hall hh options.policy).bind ?_
  rintro x _ ⟨rfl, hx⟩
  cases x with
  | none =>
      refine .ok ⟨rfl, ?_⟩
      intro d hd
      cases hd
  | some f =>
      obtain ⟨hright, hcolumn⟩ := hx f rfl
      have hcolumn' : (f.displace c).column = (t.displace k c).columnAt f.right + 1 := by
        rw [columnAt_displace hright, (hall _ hright).column_add_one, ← hcolumn]
        rfl
      have hright' : (f.displace c).right < (t.displace k c).size := by
        rw [size_displace]
        exact hright
      simp only [Option.map_some, Finding.toDiagnostic_of_placed hplaced hright hcolumn,
        Finding.toDiagnostic_of_placed hplaced' hright' hcolumn', ok_bind]
      refine .ok ⟨?_, ?_⟩
      · rw [Option.map_some, Finding.displace_told, ← lineAt_displace hright]
        rfl
      · rintro _ ⟨⟩
        exact Finding.displaceable_told (hall _ hright) hcolumn options.severity

/-- **A displaced tree has the displaced diagnostics**, in the old order. -/
theorem lint_displace (ht : t.WellFormed) (hsize : 0 < t.size) (hall : t.All (Displaceable k c))
    {config : Config} {rules : List Rule} (hrules : config.createRules = .ok rules) :
    ∃ ds, config.lint t = .ok ds ∧
      config.lint (t.displace k c) = .ok (ds.map (Diagnostic.displace k c)) := by
  obtain ⟨made, -, rfl⟩ := Config.createRules_eq_ok hrules
  have hcheck : ∀ rule ∈ made.map BraceOptions.rule, ∀ a b, t.Same a b →
      BothYield (fun x y => y = x.map (Diagnostic.displace k c) ∧ ∀ d ∈ x, d.Displaceable k c)
        (rule.check t a) (rule.check (t.displace k c) b) := by
    rintro rule hrule a _ ⟨ha, rfl⟩
    obtain ⟨options, -, rfl⟩ := List.mem_map.mp hrule
    exact check_displace ht hall ha options
  -- All diagnostics can be displaced, so it does not matter whether they are sorted before or after.
  obtain ⟨ds, _, hrun, hrun', rfl⟩ := (alike_displace ht hall).run_map hsize
    (fun d e => Diagnostic.notAfter_displace) hcheck
  exact ⟨ds, Config.lint_of_run hrules hrun, Config.lint_of_run hrules hrun'⟩

end Tree

/-! ## Displaced documents -/

mutual

theorem Outline.All.displace : ∀ o : Outline, o.All (Displaceable k c) →
    (o.displace k c).All Placed
  | .node kind line column children, ho => by
      rw [Outline.All] at ho
      rw [Outline.displace, Outline.All]
      exact ⟨ho.1.placed_displaced, Outline.AllOf.displace children ho.2⟩

theorem Outline.AllOf.displace : ∀ os : List Outline, Outline.AllOf (Displaceable k c) os →
    Outline.AllOf Placed (Outline.displaceAll k c os)
  | [], _ => trivial
  | o :: rest, hos => by
      rw [Outline.AllOf] at hos
      rw [Outline.displaceAll, Outline.AllOf]
      exact ⟨Outline.All.displace o hos.1, Outline.AllOf.displace rest hos.2⟩

end

/-- **Diagnostics move with the code.** Take a document that is accepted, and let no position pass
the limit up to which whole numbers are exact when all nodes move `k` lines down and `c` columns to
the right. Then the document with these nodes and the source that has `c` spaces in front of each
line, below `k` empty lines, is accepted too. Under every configuration that is accepted, linting it
gives the diagnostics of the old document in their order, each of them displaced. -/
theorem lint_moves_with_code {data : Option Json} {d : Document} (hd : Document.check data = .ok d)
    (hbound : d.root.All fun line column =>
      line.toRat + k < Number.wholeLimit ∧ column.toRat + c < Number.wholeLimit)
    {config : Config} {rules : List Rule} (hrules : config.createRules = .ok rules)
    (name : String) :
    ∃ loaded loaded' ds, Document.load data name = .ok loaded ∧
      Document.load (some (.object [("source", .string (Text.displace k c d.source)),
        ("root", Document.write (d.root.displace k c))])) name = .ok loaded' ∧
      config.lint loaded.tree = .ok ds ∧
      config.lint loaded'.tree = .ok (ds.map (Diagnostic.displace k c)) := by
  have hroot : d.root.All (Displaceable k c) := by
    refine Outline.All.imp₂ ?_ d.root (Document.placed_of_check hd) hbound
    intro line column hplaced hbound
    exact hplaced.displaceable hbound.1 hbound.2
  have hload : Document.load data name = .ok (d.toTree name) :=
    Document.load_eq_ok_iff.mpr ⟨d, hd, rfl⟩
  obtain ⟨htree, hsize, -⟩ := Document.tree_of_load hload
  obtain ⟨ds, hlint, hlint'⟩ := Tree.lint_displace htree.wellFormed hsize
    (Tree.all_ofOutline d.source hroot) hrules
  have hload' := Document.load_write (Text.displace k c d.source) name
    (Outline.All.displace d.root hroot)
  refine ⟨_, _, ds, hload, hload', hlint, ?_⟩
  rw [← hlint']
  exact congrArg (config.lint ·) (Tree.ofOutline_displace k c d.source d.root)

/-- An if statement that ends in the line of its last call, on the second line of a source of which
only the first is there. -/
theorem lint_moves_with_code_of_cut_source :
    let source := "if (a) \x7b"
    let root : Outline := .node .ifStatement 1 0
      [.node .statementList 1 7 [.node .methodCall 2 3 [], .node .rightCurly 2 7 []]]
    let data : Json := .object [("source", .string source), ("root", Document.write root)]
    let d : Document := ⟨none, source, root⟩
    let rules := [(⟨.same, Kind.defaultConstructs, .error⟩ : BraceOptions).rule]
    Document.check (some data) = .ok d ∧ Config.standard.createRules = .ok rules ∧
      Text.displace 2 3 source = "\n\n   if (a) \x7b" ∧
      Finding.analyze (Tree.ofOutline source root) .same 0 = .ok (some ⟨.lineBreakBefore, 3, 8⟩) ∧
      ∃ loaded loaded' ds, Document.load (some data) "A.java" = .ok loaded ∧
        Document.load (some (.object [("source", .string (Text.displace 2 3 source)),
          ("root", Document.write (root.displace 2 3))])) "A.java" = .ok loaded' ∧
        Config.standard.lint loaded.tree = .ok ds ∧
        Config.standard.lint loaded'.tree = .ok (ds.map (Diagnostic.displace 2 3)) := by
  intro source root data d rules
  have hplaced : root.All Placed := by
    simp only [root, Outline.All, Outline.AllOf, Placed]
    decide +kernel
  have hd : Document.check (some data) = .ok d := Document.check_write source hplaced
  have hbound : root.All fun line column => line.toRat + (2 : Nat) < Number.wholeLimit ∧
      column.toRat + (3 : Nat) < Number.wholeLimit := by
    simp only [root, Outline.All, Outline.AllOf]
    decide +kernel
  have hrules : Config.standard.createRules = .ok rules := rfl
  exact ⟨hd, hrules, by decide +kernel, by decide +kernel,
    lint_moves_with_code hd hbound hrules "A.java"⟩

end ClosingBrace
