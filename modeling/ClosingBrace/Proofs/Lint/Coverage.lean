import ClosingBrace.Lint.Config
import ClosingBrace.Proofs.Brace.Reports
import ClosingBrace.Proofs.Lint.Visits
import ClosingBrace.Proofs.Tree.Documents
import Mathlib.Data.List.Perm.Basic

/-!
# What a lint result holds

Linting the tree of a document finds what the instances of the rule find at its nodes, and each
finding becomes one diagnostic. The walk, the sort and the positions of the diagnostics neither
lose nor repeat nor invent any.

## Main statements

* `Config.createRules_eq_ok_iff`: the rules are the instances that the sets of options ask for.
* `sightings_of_instances`: what a run over the instances finds, before it is sorted.
* `lint_covers_findings`: a lint result is one report for each finding.
-/

namespace ClosingBrace

/-- When one of two corresponding lists is rearranged, the other can be rearranged with it. -/
theorem exists_perm_forall₂ {α β : Type} {r : α → β → Prop} {l : List α} {m m' : List β}
    (h : List.Forall₂ r l m) (hm : m.Perm m') : ∃ l', l.Perm l' ∧ List.Forall₂ r l' m' := by
  have hcomp : Relation.Comp (List.Forall₂ r) List.Perm l m' := ⟨m, h, hm⟩
  rwa [List.forall₂_comp_perm_eq_perm_comp_forall₂] at hcomp

/-! ## The instances of a configuration -/

namespace Config

/-- The sets of options of a configuration, in order. -/
def optionSets (config : Config) : List Json :=
  config.rules.flatMap fun rule => optionSetsOf rule.2

/-- The options that a list of sets gives, if each of them is accepted. -/
def resolveAll (sets : List Json) : Except ConfigError (List BraceOptions) :=
  sets.mapM fun json => BraceOptions.resolve (some json)

theorem resolveAll_append (sets others : List Json) :
    resolveAll (sets ++ others) = do return (← resolveAll sets) ++ (← resolveAll others) :=
  List.mapM_append

/-- The only rule that has instances is the one that exists. -/
theorem ruleId_of_instances {id : String} {entry : RuleEntry} {rules : List Rule}
    (h : instances id entry = .ok rules) : id = BraceOptions.ruleId := by
  unfold instances at h
  split at h
  · next found make hmake =>
      have hname := List.find?_some hmake
      have hmaker := List.mem_of_find?_eq_some hmake
      rw [makers, List.mem_singleton] at hmaker
      cases hmaker
      exact (beq_iff_eq.mp hname).symm
  · cases h

/-- The instances of the rule come from the sets of options of its entry. -/
theorem instances_ruleId (entry : RuleEntry) :
    instances BraceOptions.ruleId entry =
      (resolveAll (optionSetsOf entry)).map (List.map BraceOptions.rule) := by
  rw [resolveAll, ← mapM_map_ok]
  rfl

/-- If no other rule is named, there is one instance for each set of options. -/
theorem createRules_of_known {config : Config}
    (h : ∀ rule ∈ config.rules, rule.1 = BraceOptions.ruleId) :
    config.createRules = (resolveAll config.optionSets).map (List.map BraceOptions.rule) := by
  obtain ⟨entries⟩ := config
  show (do return (← entries.mapM fun rule => instances rule.1 rule.2).flatten) =
    (resolveAll (entries.flatMap fun rule => optionSetsOf rule.2)).map (List.map BraceOptions.rule)
  induction entries with
  | nil => rfl
  | cons rule rest ih =>
      replace ih := ih fun rule hrule => h rule (List.mem_cons_of_mem _ hrule)
      rw [List.mapM_cons, h rule List.mem_cons_self, instances_ruleId, List.flatMap_cons,
        resolveAll_append]
      generalize rest.mapM (fun rule => instances rule.1 rule.2) = groups at ih ⊢
      generalize resolveAll (rest.flatMap fun rule => optionSetsOf rule.2) = others at ih ⊢
      cases resolveAll (optionSetsOf rule.2) <;> cases groups <;> cases others <;>
        simp_all [bind, Except.bind, pure, Except.pure, Except.map]

/-- **The rules of a configuration** are the instances that its sets of options ask for, and no
other rule is named. -/
theorem createRules_eq_ok_iff {config : Config} {rules : List Rule} :
    config.createRules = .ok rules ↔ (∀ rule ∈ config.rules, rule.1 = BraceOptions.ruleId) ∧
      ∃ made, List.Forall₂ (fun json options => BraceOptions.resolve (some json) = .ok options)
        config.optionSets made ∧ rules = made.map BraceOptions.rule := by
  constructor
  · intro h
    have hids : ∀ rule ∈ config.rules, rule.1 = BraceOptions.ruleId := by
      intro rule hrule
      obtain ⟨groups, hgroups, -⟩ := bind_eq_ok_iff.mp h
      obtain ⟨group, -, hgroup⟩ := exists_mem_of_forall₂ (mapM_eq_ok_iff.mp hgroups).flip hrule
      exact ruleId_of_instances hgroup
    rw [createRules_of_known hids, map_eq_ok_iff] at h
    obtain ⟨made, hmade, rfl⟩ := h
    exact ⟨hids, made, mapM_eq_ok_iff.mp hmade, rfl⟩
  · rintro ⟨hids, made, hmade, rfl⟩
    rw [createRules_of_known hids, resolveAll, mapM_eq_ok_iff.mpr hmade]
    rfl

theorem createRules_eq_ok {config : Config} {rules : List Rule}
    (h : config.createRules = .ok rules) :
    ∃ made, List.Forall₂ (fun json options => BraceOptions.resolve (some json) = .ok options)
      config.optionSets made ∧ rules = made.map BraceOptions.rule :=
  (createRules_eq_ok_iff.mp h).2

/-- Linting runs the rules that the configuration asks for. -/
theorem lint_of_run {t : Tree} {config : Config} {rules : List Rule} {ds : List Diagnostic}
    (hrules : config.createRules = .ok rules) (hrun : Rule.run t rules = .ok ds) :
    config.lint t = .ok ds := by
  rw [lint, hrules]
  show (Rule.run t rules).mapError LintError.tree = .ok ds
  rw [hrun]
  rfl

end Config

/-! ## The run -/

/-- Something found: by which instance, at which node, and what. -/
structure Sighting where
  instanceNumber : Nat
  node : Handle
  finding : Finding

/-- The sighting is what an instance finds at a node of one of its kinds. -/
def Sighting.Valid (t : Tree) (made : List BraceOptions) (s : Sighting) : Prop :=
  ∃ options kind, made[s.instanceNumber]? = some options ∧ t.kind s.node = .ok kind ∧
    kind ∈ options.kinds ∧ Finding.analyze t options.policy s.node = .ok (some s.finding)

/-- The diagnostic is the one that its instance makes of the sighting. -/
def Sighting.ToldBy (t : Tree) (made : List BraceOptions) (s : Sighting) (d : Diagnostic) : Prop :=
  ∃ options, made[s.instanceNumber]? = some options ∧
    s.finding.toDiagnostic t options.severity = .ok d

/-- The diagnostic reports the sighting. -/
def Sighting.ReportedBy (t : Tree) (made : List BraceOptions) (s : Sighting) (d : Diagnostic) :
    Prop :=
  ∃ options, made[s.instanceNumber]? = some options ∧ Reports t options s.finding d

/-- What a numbered instance finds at a node. -/
def sight (t : Tree) (call : (BraceOptions × Nat) × Handle) : Option Sighting :=
  match Finding.analyze t call.1.1.policy call.2 with
  | .ok (some f) => some ⟨call.1.2, call.2, f⟩
  | _ => none

theorem sight_eq_some_iff {t : Tree} {call : (BraceOptions × Nat) × Handle} {s : Sighting} :
    sight t call = some s ↔ call.1.2 = s.instanceNumber ∧ call.2 = s.node ∧
      Finding.analyze t call.1.1.policy s.node = .ok (some s.finding) := by
  obtain ⟨number, node, finding⟩ := s
  unfold sight
  split
  · next f hf =>
      rw [Option.some.injEq, Sighting.mk.injEq]
      constructor
      · rintro ⟨rfl, rfl, rfl⟩
        exact ⟨rfl, rfl, hf⟩
      · rintro ⟨rfl, rfl, hfinding⟩
        rw [hf] at hfinding
        cases hfinding
        exact ⟨rfl, rfl, rfl⟩
  · next hnone =>
      constructor
      · intro h
        cases h
      · rintro ⟨-, rfl, hfinding⟩
        exact absurd hfinding (hnone finding)

variable {t : Tree} {made : List BraceOptions}

/-- A check tells what the instance sights, and nothing else. -/
theorem check_sight (ht : t.WellFormed) (call : (BraceOptions × Nat) × Handle)
    (hmade : made[call.1.2]? = some call.1.1) (hh : call.2 < t.size) :
    Yields (call.1.1.rule.check t call.2)
      (Option.Rel (Sighting.ToldBy t made) (sight t call)) := by
  obtain ⟨found, hfound, hplaced⟩ := Finding.analyze_yields ht hh call.1.1.policy
  unfold sight
  simp only [BraceOptions.rule, hfound, ok_bind]
  cases found with
  | none => exact .ok .none
  | some f =>
      obtain ⟨d, hd⟩ := Finding.exists_toDiagnostic (hplaced f rfl).1 call.1.1.severity
      refine ⟨some d, ?_, .some ⟨call.1.1, hmade, hd⟩⟩
      simp only [hd, ok_bind]
      rfl

/-- The instances in the order in which a run calls them, each with its number. -/
def callsOf (t : Tree) (made : List BraceOptions) (order : List Handle) :
    List ((BraceOptions × Nat) × Handle) :=
  order.flatMap (Rule.dueAt (fun plan : BraceOptions × Nat => plan.1.kinds) made.zipIdx t)

theorem mem_callsOf_iff {order : List Handle} {call : (BraceOptions × Nat) × Handle} :
    call ∈ callsOf t made order ↔
      made[call.1.2]? = some call.1.1 ∧ call.2 ∈ order ∧ t.kindAt call.2 ∈ call.1.1.kinds := by
  unfold callsOf
  rw [Rule.mem_flatMap_dueAt_iff, ← List.mk_mem_zipIdx_iff_getElem?]

/-- Nothing is sighted twice. -/
theorem nodup_sightings {order : List Handle} (hnodup : order.Nodup) :
    ((callsOf t made order).filterMap (sight t)).Nodup := by
  refine List.Pairwise.filterMap _ ?_ (Rule.pairwise_due BraceOptions.kinds hnodup made)
  rintro c d hlt s hs s' hs' rfl
  obtain ⟨hnumber, hnode, -⟩ := sight_eq_some_iff.mp hs
  obtain ⟨hnumber', hnode', -⟩ := sight_eq_some_iff.mp hs'
  rw [hnode, hnode', hnumber, hnumber'] at hlt
  rcases hlt with hlt | ⟨-, hlt⟩
  · exact Nat.lt_irrefl _ hlt
  · exact Nat.lt_irrefl _ hlt

/-- What is sighted in the course of a run is valid, and nothing valid is missed. -/
theorem mem_sightings_iff {order : List Handle} (horder : ∀ h, h ∈ order ↔ h < t.size)
    {s : Sighting} :
    s ∈ (callsOf t made order).filterMap (sight t) ↔ Sighting.Valid t made s := by
  rw [List.mem_filterMap]
  constructor
  · rintro ⟨call, hcall, hs⟩
    obtain ⟨hmade, hh, hkind⟩ := mem_callsOf_iff.mp hcall
    obtain ⟨hnumber, hnode, hfinding⟩ := sight_eq_some_iff.mp hs
    rw [hnumber] at hmade
    rw [hnode] at hh hkind
    exact ⟨call.1.1, _, hmade, Tree.kind_of_lt ((horder _).mp hh), hkind, hfinding⟩
  · rintro ⟨options, kind, hmade, hkind, hmem, hfinding⟩
    obtain ⟨hh, rfl⟩ := Tree.kind_eq_ok_iff.mp hkind
    refine ⟨((options, s.instanceNumber), s.node), ?_, sight_eq_some_iff.mpr ⟨rfl, rfl, hfinding⟩⟩
    exact mem_callsOf_iff.mpr ⟨hmade, (horder _).mpr hh, hmem⟩

/-- **What a run over the instances finds**, before it is sorted: every sighting once, and the
diagnostic of each. -/
theorem sightings_of_instances (ht : t.Reachable) (hsize : 0 < t.size) (made : List BraceOptions) :
    ∃ seen ds, Rule.findings t (made.map BraceOptions.rule) = .ok ds ∧ seen.Nodup ∧
      (∀ s, s ∈ seen ↔ Sighting.Valid t made s) ∧
      List.Forall₂ (Sighting.ToldBy t made) seen ds := by
  have hwf := ht.wellFormed
  obtain ⟨order, horder, hperm, -⟩ := hwf.exists_preorder hsize
  have hnodup : order.Nodup := hperm.symm.nodup List.nodup_range
  have hmem (h : Handle) : h ∈ order ↔ h < t.size := by
    rw [hperm.mem_iff, List.mem_range]
  have hcheck : ∀ plan ∈ made.zipIdx, ∀ h, h < t.size →
      Yields (plan.1.rule.check t h)
        (Option.Rel (Sighting.ToldBy t made) (sight t (plan, h))) := by
    intro plan hplan h hh
    exact check_sight hwf (plan, h) (List.mk_mem_zipIdx_iff_getElem?.mp hplan) hh
  obtain ⟨ds, hfound, reports, hreports, rfl⟩ := Rule.findings_yields
    (r := fun call => Option.Rel (Sighting.ToldBy t made) (sight t call)) hwf horder hcheck
  have hrules : made.zipIdx.map (fun plan => plan.1.rule) = made.map BraceOptions.rule := by
    conv => rhs; rw [← List.zipIdx_map_fst 0 made, List.map_map]
    rfl
  rw [hrules] at hfound
  refine ⟨(callsOf t made order).filterMap (sight t), _, hfound, nodup_sightings hnodup,
    fun s => mem_sightings_iff hmem, ?_⟩
  exact List.rel_filterMap (fun _ _ h => h) hreports

/-- In a tree whose positions can be shown the diagnostic of a sighting reports it. -/
theorem Sighting.Valid.reportedBy (ht : t.WellFormed) (hall : t.All Placed) {s : Sighting}
    {d : Diagnostic} (hs : Sighting.Valid t made s) (hd : Sighting.ToldBy t made s d) :
    Sighting.ReportedBy t made s d := by
  obtain ⟨options, kind, -, hkind, -, hfound⟩ := hs
  obtain ⟨options', hoptions, hd⟩ := hd
  obtain ⟨hh, -⟩ := Tree.kind_eq_ok_iff.mp hkind
  obtain ⟨hright, hcolumn⟩ := (Finding.analyze_yields ht hh options.policy).of_ok hfound _ rfl
  exact ⟨options', hoptions, (Finding.toDiagnostic_yields hall hright hcolumn).of_ok hd⟩

/-- What a run finds in a tree whose positions can be shown: a report for each sighting. -/
theorem findings_of_instances (ht : t.Reachable) (hsize : 0 < t.size) (hall : t.All Placed)
    (made : List BraceOptions) :
    ∃ seen ds, Rule.findings t (made.map BraceOptions.rule) = .ok ds ∧ seen.Nodup ∧
      (∀ s, s ∈ seen ↔ Sighting.Valid t made s) ∧
      List.Forall₂ (Sighting.ReportedBy t made) seen ds := by
  obtain ⟨seen, ds, hfound, hnodup, hvalid, htold⟩ := sightings_of_instances ht hsize made
  refine ⟨seen, ds, hfound, hnodup, hvalid, ?_⟩
  have hboth := (List.forall₂_and_left seen ds).mpr ⟨fun s hs => (hvalid s).mp hs, htold⟩
  exact hboth.imp fun s d hsd => hsd.1.reportedBy ht.wellFormed hall hsd.2

/-! ## The result -/

/-- **A lint result is one report for each finding.** Let a document and a configuration be
accepted. Linting succeeds, and its diagnostics correspond one to one to what the instances of the
configuration find at the nodes of their kinds. -/
theorem lint_covers_findings {data : Option Json} {name : String} {loaded : LoadedTree}
    {config : Config} {rules : List Rule} (hload : Document.load data name = .ok loaded)
    (hrules : config.createRules = .ok rules) :
    ∃ made seen ds,
      List.Forall₂ (fun json options => BraceOptions.resolve (some json) = .ok options)
        config.optionSets made ∧
      rules = made.map BraceOptions.rule ∧
      config.lint loaded.tree = .ok ds ∧
      seen.Nodup ∧ (∀ s, s ∈ seen ↔ Sighting.Valid loaded.tree made s) ∧
      List.Forall₂ (Sighting.ReportedBy loaded.tree made) seen ds := by
  obtain ⟨ht, hsize, hall⟩ := Document.tree_of_load hload
  obtain ⟨made, hmade, rfl⟩ := Config.createRules_eq_ok hrules
  obtain ⟨seen, ds, hfound, hnodup, hvalid, hreports⟩ :=
    findings_of_instances ht hsize hall made
  -- The sort rearranges the reports, and the sightings follow them.
  obtain ⟨sorted, hperm, hsorted⟩ :=
    exists_perm_forall₂ hreports (List.mergeSort_perm ds Diagnostic.notAfter).symm
  have hrun : Rule.run loaded.tree (made.map BraceOptions.rule) =
      .ok (ds.mergeSort Diagnostic.notAfter) := by
    cases made with
    | nil =>
        -- Without instances nothing is visited, and there is nothing to be sighted either.
        have hseen : seen = [] := List.eq_nil_iff_forall_not_mem.mpr fun s hs => by
          obtain ⟨options, kind, hoptions, -⟩ := (hvalid s).mp hs
          cases hoptions
        subst hseen
        cases hreports
        rw [List.map_nil, Rule.run_nil, List.mergeSort_nil]
    | cons options made => exact Rule.run_eq_ok (List.cons_ne_nil _ _) hfound
  refine ⟨made, sorted, _, hmade, rfl, ?_, hperm.nodup hnodup, ?_, hsorted⟩
  · simp [Config.lint, hrules, hrun, Except.mapError, bind, Except.bind]
  · intro s
    rw [← hperm.mem_iff]
    exact hvalid s

/-- An if statement that ends in the line of its last call, seen by two instances that disagree
about what is wrong with it. -/
theorem lint_covers_findings_of_two_instances :
    let source := "if (a) \x7b\n  b(); \x7d\n"
    let outline : Outline := .node .ifStatement 1 0
      [.node .statementList 1 7 [.node .methodCall 2 3 [], .node .rightCurly 2 7 []]]
    let data : Json := .object [("source", .string source), ("root", Document.write outline)]
    let loaded : LoadedTree := ⟨"A.java", source, Tree.ofOutline source outline⟩
    let config : Config := ⟨[(BraceOptions.ruleId, .several [.object [], .object [
      ("option", .string "alone"), ("tokens", .string "LITERAL_IF"),
      ("severity", .string "warning")]])]⟩
    let first : BraceOptions := ⟨.same, Kind.defaultConstructs, .error⟩
    let second : BraceOptions := ⟨.alone, [.ifStatement], .warning⟩
    let rules := [first.rule, second.rule]
    Document.load (some data) "A.java" = .ok loaded ∧ config.createRules = .ok rules ∧
      Finding.analyze loaded.tree .same 0 = .ok (some ⟨.lineBreakBefore, 3, 8⟩) ∧
      Finding.analyze loaded.tree .alone 0 = .ok (some ⟨.lineAlone, 3, 8⟩) ∧
      ∃ made seen ds,
        List.Forall₂ (fun json options => BraceOptions.resolve (some json) = .ok options)
          config.optionSets made ∧
        rules = made.map BraceOptions.rule ∧
        config.lint loaded.tree = .ok ds ∧
        seen.Nodup ∧ (∀ s, s ∈ seen ↔ Sighting.Valid loaded.tree made s) ∧
        List.Forall₂ (Sighting.ReportedBy loaded.tree made) seen ds := by
  intro source outline data loaded config first second rules
  have hplaced : outline.All Placed := by
    simp only [outline, Outline.All, Outline.AllOf, Placed]
    decide +kernel
  have hload : Document.load (some data) "A.java" = .ok loaded :=
    Document.load_write source "A.java" hplaced
  have hfirst : BraceOptions.resolve (some (.object [])) = .ok first := by decide +kernel
  have hsecond : BraceOptions.resolve (some (.object [("option", .string "alone"),
      ("tokens", .string "LITERAL_IF"), ("severity", .string "warning")])) = .ok second := by
    decide +kernel
  have hrules : config.createRules = .ok rules := by
    simp [Config.createRules, config, Config.instances, Config.makers, Config.optionSetsOf, hfirst,
      hsecond, rules, bind, Except.bind, pure, Except.pure]
  exact ⟨hload, hrules, by decide +kernel, by decide +kernel, lint_covers_findings hload hrules⟩

end ClosingBrace
