import ClosingBrace.Proofs.Brace.Verdicts
import ClosingBrace.Proofs.Lint.Coverage
import Mathlib.Data.Finset.Card
import Mathlib.Data.Finset.Range

/-!
# Diagnostics do not depend on handles

The same tree can be added in many orders, and each of them gives out other handles. Such trees are
alike, and their nodes stand in the same places. So a run meets related nodes in the same order, at
each of them the checks report the same, and the results are equal.

## Main statements

* `Tree.Renumbering.alike`: trees that differ in their handles only are alike.
* `Tree.Alike.run_map`, `Tree.Alike.run`: what runs over checks that agree at related nodes return.
* `lint_of_renumbering`: linting such trees gives the same diagnostics, and the findings agree.
-/

namespace ClosingBrace

variable {t u : Tree} {f : Handle → Handle}

namespace Tree

/-! ## Renumbered trees -/

/-- The second tree is the first with other handles: `f` takes each node of the first to a node of
the second, and the trees agree on the source, the root, the kinds, the places and the ordered
children. -/
structure Renumbering (f : Handle → Handle) (t u : Tree) : Prop where
  lines_eq : u.lines = t.lines
  bijOn : Set.BijOn f (Set.Iio t.size) (Set.Iio u.size)
  root_eq : u.root = f <$> t.root
  kind_eq : ∀ h, h < t.size → u.kind (f h) = t.kind h
  line_eq : ∀ h, h < t.size → u.line (f h) = t.line h
  column_eq : ∀ h, h < t.size → u.column (f h) = t.column h
  children_eq : ∀ h, h < t.size → u.children (f h) = List.map f <$> t.children h

/-- A node and the node that has its place in the other tree. -/
def Renumbered (f : Handle → Handle) (t : Tree) (a b : Handle) : Prop := a < t.size ∧ f a = b

namespace Renumbering
variable (h : Renumbering f t u) {a : Handle}
include h

theorem lt_size (ha : a < t.size) : f a < u.size := h.bijOn.mapsTo ha

theorem size_eq : t.size = u.size := by
  have hcard := Set.BijOn.finsetCard_eq (s := Finset.range t.size) (t := Finset.range u.size) f (by
    rw [Finset.coe_range, Finset.coe_range]
    exact h.bijOn)
  rwa [Finset.card_range, Finset.card_range] at hcard

theorem kindAt_eq (ha : a < t.size) : t.kindAt a = u.kindAt (f a) := by
  have hkind := h.kind_eq a ha
  rw [kind_of_lt ha, kind_of_lt (h.lt_size ha)] at hkind
  exact (Except.ok.inj hkind).symm

theorem lineAt_eq (ha : a < t.size) : t.lineAt a = u.lineAt (f a) := by
  have hline := h.line_eq a ha
  rw [line_of_lt ha, line_of_lt (h.lt_size ha)] at hline
  exact (Except.ok.inj hline).symm

theorem columnAt_eq (ha : a < t.size) : t.columnAt a = u.columnAt (f a) := by
  have hcolumn := h.column_eq a ha
  rw [column_of_lt ha, column_of_lt (h.lt_size ha)] at hcolumn
  exact (Except.ok.inj hcolumn).symm

theorem position_eq (ha : a < t.size) : t.position a = u.position (f a) := by
  rw [position, position, h.lineAt_eq ha, h.columnAt_eq ha]

theorem kids_eq (ha : a < t.size) : u.kids (f a) = (t.kids a).map f := by
  have hkids := h.children_eq a ha
  rw [children_of_lt ha, children_of_lt (h.lt_size ha)] at hkids
  exact Except.ok.inj hkids

theorem root_eq_zero (ht : t.WellFormed) (hu : u.WellFormed) (hsize : 0 < t.size) : f 0 = 0 := by
  have hroot := h.root_eq
  rw [ht.root_eq_ok_iff.mpr ⟨hsize, rfl⟩] at hroot
  exact (hu.root_eq_ok_iff.mp hroot).2

/-- The start of a line is the same text, up to the same column. -/
theorem startsLine_eq (ha : a < t.size) : t.startsLine a = u.startsLine (f a) := by
  unfold startsLine sourceLine
  rw [h.lines_eq, h.lineAt_eq ha, h.columnAt_eq ha]

/-- **Renumbered trees are alike.** -/
theorem alike (ht : t.WellFormed) (hu : u.WellFormed) : Alike (Renumbered f t) t u where
  left_wellFormed := ht
  right_wellFormed := hu
  size_eq := h.size_eq
  lt_size := by
    rintro a _ ⟨ha, rfl⟩
    exact ⟨ha, h.lt_size ha⟩
  exists_rel ha := ⟨_, ha, rfl⟩
  eq_iff := by
    rintro a _ a' _ ⟨ha, rfl⟩ ⟨ha', rfl⟩
    exact (h.bijOn.injOn.eq_iff ha ha').symm
  root hsize := ⟨hsize, h.root_eq_zero ht hu hsize⟩
  kindAt_eq := by
    rintro a _ ⟨ha, rfl⟩
    exact h.kindAt_eq ha
  kids := by
    rintro a _ ⟨ha, rfl⟩
    rw [h.kids_eq ha, List.forall₂_map_right_iff, List.forall₂_same]
    exact fun c hc => ⟨(ht.lt_of_mem_kids hc).2, rfl⟩
  lineAt_eq_iff := by
    rintro a _ a' _ ⟨ha, rfl⟩ ⟨ha', rfl⟩
    rw [h.lineAt_eq ha, h.lineAt_eq ha']
  position_lt_iff := by
    rintro a _ a' _ ⟨ha, rfl⟩ ⟨ha', rfl⟩
    rw [h.position_eq ha, h.position_eq ha']

end Renumbering

/-! ## Runs over alike trees -/

namespace Alike
variable {R : Handle → Handle → Prop} {rules : List Rule}

/-- The same check, made at related nodes. -/
def SameCall (R : Handle → Handle → Prop) (rules : List Rule) (call call' : Rule × Handle) : Prop :=
  call.1 ∈ rules ∧ call.1 = call'.1 ∧ R call.2 call'.2

theorem visitsAt (h : Alike R t u) {a b : Handle} (hab : R a b) :
    BothYield (List.Forall₂ (SameCall R rules)) (Rule.visitsAt t Rule.kinds rules a)
      (Rule.visitsAt u Rule.kinds rules b) := by
  unfold Rule.visitsAt
  refine (h.kind hab).bind ?_
  rintro kind _ rfl
  refine .ok ?_
  rw [List.forall₂_map_left_iff, List.forall₂_map_right_iff, List.forall₂_same]
  exact fun rule hrule => ⟨List.mem_of_mem_filter hrule, rfl, hab⟩

/-- The same checks are made, in the same order. -/
theorem visits (h : Alike R t u) (hsize : 0 < t.size) :
    BothYield (List.Forall₂ (SameCall R rules)) (Rule.visits t Rule.kinds rules)
      (Rule.visits u Rule.kinds rules) := by
  unfold Rule.visits
  refine (h.preorder hsize).bind fun order order' horder => ?_
  refine (BothYield.mapM horder fun a b hab => h.visitsAt hab).bind fun due due' hdue => ?_
  exact .ok (List.rel_flatten hdue)

/-- What one run finds is what `f` makes of the findings of the other. -/
theorem findings_map (h : Alike R t u) (hsize : 0 < t.size) {f : Diagnostic → Diagnostic}
    {p : Diagnostic → Prop}
    (hcheck : ∀ rule ∈ rules, ∀ a b, R a b →
      BothYield (fun x y => y = x.map f ∧ ∀ d ∈ x, p d) (rule.check t a) (rule.check u b)) :
    BothYield (fun ds es => es = ds.map f ∧ ∀ d ∈ ds, p d) (Rule.findings t rules)
      (Rule.findings u rules) := by
  unfold Rule.findings
  refine (h.visits hsize).bind fun due due' hdue => ?_
  have hreport : ∀ call call', SameCall R rules call call' →
      BothYield (fun x y => y = x.map f ∧ ∀ d ∈ x, p d) (call.1.check t call.2)
        (call'.1.check u call'.2) := by
    rintro ⟨rule, a⟩ ⟨_, b⟩ ⟨hrule, rfl, hab⟩
    exact hcheck rule hrule a b hab
  refine (BothYield.mapM hdue hreport).bind fun reports reports' hreports => .ok ?_
  induction hreports with
  | nil => exact ⟨rfl, List.forall_mem_nil _⟩
  | @cons x y _ _ hxy _ ih =>
      obtain ⟨rfl, hx⟩ := hxy
      obtain ⟨hmap, hall⟩ := ih
      cases x with
      | none => exact ⟨hmap, hall⟩
      | some d => exact ⟨congrArg (f d :: ·) hmap, List.forall_mem_cons.mpr ⟨hx d rfl, hall⟩⟩

/-- **A run follows its checks.** Let the checks at related nodes of alike trees report `f` of what
they report at the other ones, where `f` keeps the order of the positions. Then the runs do so too,
in the same order. -/
theorem run_map (h : Alike R t u) (hsize : 0 < t.size) {f : Diagnostic → Diagnostic}
    {p : Diagnostic → Prop} (hmono : ∀ d e, p d → p e → (f d).notAfter (f e) = d.notAfter e)
    (hcheck : ∀ rule ∈ rules, ∀ a b, R a b →
      BothYield (fun x y => y = x.map f ∧ ∀ d ∈ x, p d) (rule.check t a) (rule.check u b)) :
    BothYield (fun ds es => es = ds.map f) (Rule.run t rules) (Rule.run u rules) := by
  unfold Rule.run
  apply BothYield.ite
  · exact fun _ => .ok rfl
  · intro _
    refine (h.findings_map hsize hcheck).bind ?_
    rintro found _ ⟨rfl, hall⟩
    refine .ok ?_
    exact (List.map_mergeSort fun d hd e he => (hmono d e (hall d hd) (hall e he)).symm).symm

/-- **A run returns the same** on alike trees if its checks report the same at related nodes. -/
theorem run (h : Alike R t u) (hsize : 0 < t.size)
    (hcheck : ∀ rule ∈ rules, ∀ a b, R a b → BothYield Eq (rule.check t a) (rule.check u b)) :
    BothYield Eq (Rule.run t rules) (Rule.run u rules) := by
  have hmap : BothYield (fun ds es => es = ds.map id) (Rule.run t rules) (Rule.run u rules) := by
    refine h.run_map hsize (p := fun _ => True) (fun _ _ _ _ => rfl) fun rule hrule a b hab => ?_
    exact (hcheck rule hrule a b hab).mono fun x y hxy => ⟨by simp [hxy], fun _ _ => trivial⟩
  exact hmap.mono fun ds es hes => by simp [hes]

end Alike

/-- A run over a tree without nodes fails, unless there are no rules. -/
theorem WellFormed.run_of_empty (ht : t.WellFormed) (hsize : t.size = 0) (rules : List Rule) :
    Rule.run t rules = if rules.isEmpty then .ok [] else .error .noRoot := by
  have hroot : t.root = .error .noRoot := by
    rw [root, ht.root_eq, if_pos hsize]
  simp only [Rule.run, Rule.findings, Rule.visits, preorder, hroot]
  rfl

end Tree

/-! ## Linting renumbered trees -/

/-- A finding in a tree with other handles. -/
def Finding.renumber (f : Handle → Handle) (found : Finding) : Finding :=
  { found with right := f found.right }

/-- The checks of the closing-brace rule report the same at the nodes of a renumbered tree. -/
theorem Tree.Renumbering.check (h : Tree.Renumbering f t u) (ht : t.WellFormed)
    (hu : u.WellFormed) (options : BraceOptions) {a b : Handle} (hab : Renumbered f t a b) :
    BothYield Eq (options.rule.check t a) (options.rule.check u b) := by
  refine BraceOptions.check_alike options (h.alike ht hu) ?_ ?_ hab
  · rintro a _ ⟨ha, rfl⟩ -
    exact h.startsLine_eq ha
  · rintro a _ ⟨ha, rfl⟩
    exact ⟨h.lineAt_eq ha, h.columnAt_eq ha⟩

/-- A finding in a tree is the finding in a renumbered one, about the brace with the new handle. -/
theorem Tree.Renumbering.analyze (h : Tree.Renumbering f t u) (ht : t.WellFormed)
    (hu : u.WellFormed) {a : Handle} (ha : a < t.size) (policy : Policy) :
    ∃ found, Finding.analyze t policy a = .ok found ∧
      Finding.analyze u policy (f a) = .ok (found.map (Finding.renumber f)) := by
  have hstarts : ∀ {a b}, Renumbered f t a b → t.startsLine a = u.startsLine b := by
    rintro a _ ⟨ha, rfl⟩
    exact h.startsLine_eq ha
  obtain ⟨found, found', hfound, hfound', hrel⟩ :=
    Finding.analyze_alike (h.alike ht hu) (fun hab _ => hstarts hab) ⟨ha, rfl⟩ policy
  refine ⟨found, hfound, ?_⟩
  rw [hfound']
  cases hrel with
  | none => rfl
  | @some x y hxy =>
      obtain ⟨violation, right, column⟩ := x
      obtain ⟨violation', right', column'⟩ := y
      obtain ⟨hviolation, ⟨hright, hright'⟩, hcolumn, hcolumn'⟩ := hxy
      simp only at hviolation hright hright' hcolumn hcolumn'
      rw [Option.map_some, Finding.renumber, hviolation, hright', hcolumn, hcolumn',
        h.columnAt_eq hright, hright']

/-- **Diagnostics do not depend on handles.** Let two trees be added in any ways and differ in their
handles only. Under every configuration that is accepted, linting them gives the same: one list of
diagnostics if there is a root. At every node and under every policy the findings are the same, up
to the handle of the brace. -/
theorem lint_of_renumbering (ht : t.Reachable) (hu : u.Reachable) (h : Tree.Renumbering f t u) :
    (∀ config rules, Config.createRules config = .ok rules →
      config.lint u = config.lint t ∧
        ∀ root, t.root = .ok root → ∃ ds, config.lint t = .ok ds) ∧
    ∀ a, a < t.size → ∀ policy, ∃ found, Finding.analyze t policy a = .ok found ∧
      Finding.analyze u policy (f a) = .ok (found.map (Finding.renumber f)) := by
  have hwf := ht.wellFormed
  have hwf' := hu.wellFormed
  constructor
  · intro config rules hrules
    obtain ⟨made, -, rfl⟩ := Config.createRules_eq_ok hrules
    have hcheck : ∀ rule ∈ made.map BraceOptions.rule, ∀ a b, Tree.Renumbered f t a b →
        BothYield Eq (rule.check t a) (rule.check u b) := by
      intro rule hrule a b hab
      obtain ⟨options, -, rfl⟩ := List.mem_map.mp hrule
      exact h.check hwf hwf' options hab
    have hruns : Rule.run u (made.map BraceOptions.rule) =
        Rule.run t (made.map BraceOptions.rule) := by
      by_cases hsize : 0 < t.size
      · exact ((h.alike hwf hwf').run hsize hcheck).eq.symm
      · -- Two trees without a root cannot be told apart.
        have hempty : t.size = 0 := Nat.eq_zero_of_not_pos hsize
        rw [hwf.run_of_empty hempty, hwf'.run_of_empty (h.size_eq ▸ hempty)]
    constructor
    · rw [Config.lint, Config.lint, hrules]
      exact congrArg (Except.mapError LintError.tree) hruns
    · intro root hroot
      obtain ⟨hsize, -⟩ := hwf.root_eq_ok_iff.mp hroot
      obtain ⟨ds, hrun⟩ := ((h.alike hwf hwf').run hsize hcheck).exists_ok
      refine ⟨ds, ?_⟩
      simp [Config.lint, hrules, hrun, Except.mapError, bind, Except.bind]
  · intro a ha policy
    exact h.analyze hwf hwf' ha policy

/-- An if statement with an else branch, added in pre-order and with the else branch filled first.
The two trees share the handles of the statement and its block only. -/
theorem lint_of_renumbering_of_late_brace :
    let source := "if (a) \x7b\x7d else \x7b\x7d"
    let t := Tree.replay source [⟨.ifStatement, 1, 0, none⟩, ⟨.statementList, 1, 7, some 0⟩,
      ⟨.rightCurly, 1, 8, some 1⟩, ⟨.elseBranch, 1, 10, some 0⟩, ⟨.statementList, 1, 15, some 3⟩,
      ⟨.rightCurly, 1, 16, some 4⟩]
    let u := Tree.replay source [⟨.ifStatement, 1, 0, none⟩, ⟨.statementList, 1, 7, some 0⟩,
      ⟨.elseBranch, 1, 10, some 0⟩, ⟨.statementList, 1, 15, some 2⟩, ⟨.rightCurly, 1, 16, some 3⟩,
      ⟨.rightCurly, 1, 8, some 1⟩]
    let f : Handle → Handle := fun h => [0, 1, 5, 2, 3, 4].getD h 0
    let config : Config := Config.ofOptions [("option", .string "alone")]
    let rules := [(⟨.alone, Kind.defaultConstructs, .error⟩ : BraceOptions).rule]
    t.Reachable ∧ u.Reachable ∧ Tree.Renumbering f t u ∧ config.createRules = .ok rules ∧
      config.lint u = config.lint t ∧ t.root = .ok 0 ∧ (∃ ds, config.lint t = .ok ds) ∧
      Finding.analyze t .alone 0 = .ok (some ⟨.lineAlone, 2, 9⟩) ∧
      Finding.analyze u .alone 0 = .ok (some ⟨.lineAlone, 5, 9⟩) ∧
      ∃ found, Finding.analyze t .alone 3 = .ok found ∧
        Finding.analyze u .alone 2 = .ok (found.map (Finding.renumber f)) := by
  intro source t u f config rules
  have ht : t.Reachable := Tree.reachable_replay _ _
  have hu : u.Reachable := Tree.reachable_replay _ _
  have hroot : t.root = .ok 0 := by decide +kernel
  -- The way back from the second tree to the first.
  let g : Handle → Handle := fun h => [0, 1, 3, 4, 5, 2].getD h 0
  have hto : ∀ h, h < t.size → f h < u.size ∧ g (f h) = h := by decide +kernel
  have hback : ∀ h, h < u.size → g h < t.size ∧ f (g h) = h := by decide +kernel
  have hinverse : Set.InvOn g f (Set.Iio t.size) (Set.Iio u.size) :=
    ⟨fun h hh => (hto h hh).2, fun h hh => (hback h hh).2⟩
  have hrenumbering : Tree.Renumbering f t u :=
    { lines_eq := by decide +kernel
      bijOn := hinverse.bijOn (fun h hh => (hto h hh).1) fun h hh => (hback h hh).1
      root_eq := by decide +kernel
      kind_eq := by decide +kernel
      line_eq := by decide +kernel
      column_eq := by decide +kernel
      children_eq := by decide +kernel }
  have hoptions : BraceOptions.resolve (some (.object [("option", .string "alone")])) =
      .ok ⟨.alone, Kind.defaultConstructs, .error⟩ := by decide +kernel
  have hrules : config.createRules = .ok rules := by
    simp [Config.createRules, config, Config.ofOptions, Config.instances, Config.makers,
      Config.optionSetsOf, hoptions, rules, bind, Except.bind, pure, Except.pure]
  obtain ⟨hlint, hfindings⟩ := lint_of_renumbering ht hu hrenumbering
  obtain ⟨hsame, hsome⟩ := hlint config rules hrules
  exact ⟨ht, hu, hrenumbering, hrules, hsame, hroot, hsome 0 hroot, by decide +kernel,
    by decide +kernel, hfindings 3 (by decide +kernel) .alone⟩

end ClosingBrace
