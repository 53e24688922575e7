import ClosingBrace.Proofs.Brace.Verdicts
import ClosingBrace.Proofs.Lint.Visits

/-!
# Runs over a part of the rules

Each diagnostic of a run goes back to one call, and the run can be traced: its diagnostics, in the
order in which they are returned, each with its call. A stable sort does not care what else is
sorted with it, so leaving out calls leaves out their entries of the trace and nothing else. Rules
that run side by side do not see each other, and neither do the kinds of one rule.

## Main statements

* `sublist_mergeSort_of_sublist`, `filter_mergeSort_comm`: sorting a part of a list.
* `trace_filter`: leaving out calls leaves out their entries of the trace.
* `run_of_answers`: a run returns what its calls are answered with.
* `run_of_selection`: a run over fewer rules, or over fewer kinds, is a part of the trace.
-/

namespace ClosingBrace

/-! ## Sorting a part of a list -/

section Sorting
variable {α : Type} {le : α → α → Bool}

/-- Sorting puts a new first item between those that have to stand in front of it and the rest. -/
theorem mergeSort_cons_eq (trans : ∀ a b c, le a b = true → le b c = true → le a c = true)
    (total : ∀ a b, (le a b || le b a) = true) (a : α) (l : List α) :
    (a :: l).mergeSort le =
      (l.mergeSort le).filter (fun b => !le a b) ++ a :: (l.mergeSort le).filter (le a) := by
  obtain ⟨before, after, hcons, hrest, hbefore⟩ := List.mergeSort_cons trans total a l
  have hsorted := List.pairwise_mergeSort trans total (a :: l)
  rw [hcons, List.pairwise_append, List.pairwise_cons] at hsorted
  have hafter : ∀ b ∈ after, le a b = true := hsorted.2.1.1
  have hnone : ∀ b ∈ before, ¬ le a b = true := fun b hb => by simpa using hbefore b hb
  rw [hcons, hrest, List.filter_append, List.filter_append, List.filter_eq_self.mpr hbefore,
    List.filter_eq_self.mpr hafter, List.filter_eq_nil_iff.mpr hnone,
    List.filter_eq_nil_iff.mpr (by simpa using hafter), List.append_nil, List.nil_append]

/-- Sorting keeps one list a sub-sequence of another. -/
theorem sublist_mergeSort_of_sublist
    (trans : ∀ a b c, le a b = true → le b c = true → le a c = true)
    (total : ∀ a b, (le a b || le b a) = true) {l m : List α} (h : l.Sublist m) :
    (l.mergeSort le).Sublist (m.mergeSort le) := by
  induction h with
  | slnil => exact List.Sublist.refl _
  | cons a _ ih =>
      obtain ⟨before, after, hcons, hrest, -⟩ := List.mergeSort_cons trans total a _
      rw [hcons]
      rw [hrest] at ih
      exact ih.middle a
  | cons_cons a _ ih =>
      rw [mergeSort_cons_eq trans total, mergeSort_cons_eq trans total]
      exact (ih.filter _).append ((ih.filter _).cons_cons a)

/-- It makes no difference whether a part is taken before sorting or after it. -/
theorem filter_mergeSort_comm (trans : ∀ a b c, le a b = true → le b c = true → le a c = true)
    (total : ∀ a b, (le a b || le b a) = true) (p : α → Bool) (l : List α) :
    (l.mergeSort le).filter p = (l.filter p).mergeSort le := by
  have hkept : ∀ a ∈ (l.filter p).mergeSort le, p a = true := by
    intro a ha
    rw [List.mem_mergeSort] at ha
    exact (List.mem_filter.mp ha).2
  have hsub := (sublist_mergeSort_of_sublist trans total
    (List.filter_sublist (p := p) (l := l))).filter p
  rw [List.filter_eq_self.mpr hkept] at hsub
  apply (hsub.eq_of_length ?_).symm
  rw [((List.mergeSort_perm l le).filter p).length_eq, (List.mergeSort_perm _ le).length_eq]

end Sorting

namespace Rule

/-! ## The trace of a run -/

section Trace
variable {γ : Type} {calls : List γ} {answer : γ → Option Diagnostic}

/-- The entry of a call, if it is answered with a diagnostic. -/
def noted? (answer : γ → Option Diagnostic) (call : γ) : Option (γ × Diagnostic) :=
  (answer call).map fun d => (call, d)

theorem noted?_eq_some_iff {call : γ} {entry : γ × Diagnostic} :
    noted? answer call = some entry ↔ call = entry.1 ∧ answer call = some entry.2 := by
  unfold noted?
  rw [Option.map_eq_some_iff]
  constructor
  · rintro ⟨d, hd, rfl⟩
    exact ⟨rfl, hd⟩
  · rintro ⟨rfl, hd⟩
    exact ⟨_, hd, rfl⟩

/-- Whether the diagnostic of an entry stands no later than that of another. -/
def entryNotAfter (a b : γ × Diagnostic) : Bool := a.2.notAfter b.2

theorem entryNotAfter_trans (a b c : γ × Diagnostic) (hab : entryNotAfter a b = true)
    (hbc : entryNotAfter b c = true) : entryNotAfter a c = true :=
  Diagnostic.notAfter_trans a.2 b.2 c.2 hab hbc

theorem entryNotAfter_total (a b : γ × Diagnostic) :
    (entryNotAfter a b || entryNotAfter b a) = true :=
  Diagnostic.notAfter_total a.2 b.2

/-- The diagnostics that calls are answered with, each with its call, in the order of their
positions. -/
def trace (calls : List γ) (answer : γ → Option Diagnostic) : List (γ × Diagnostic) :=
  (calls.filterMap (noted? answer)).mergeSort entryNotAfter

theorem map_snd_trace :
    (trace calls answer).map Prod.snd = (calls.filterMap answer).mergeSort Diagnostic.notAfter := by
  have hentries : (calls.filterMap (noted? answer)).map Prod.snd = calls.filterMap answer := by
    rw [List.map_filterMap]
    simp [noted?, Function.comp_def]
  rw [← hentries]
  exact List.map_mergeSort fun _ _ _ _ => rfl

theorem mem_trace_iff {entry : γ × Diagnostic} :
    entry ∈ trace calls answer ↔ entry.1 ∈ calls ∧ answer entry.1 = some entry.2 := by
  unfold trace
  rw [List.mem_mergeSort, List.mem_filterMap]
  constructor
  · rintro ⟨call, hcall, hentry⟩
    obtain ⟨rfl, hd⟩ := noted?_eq_some_iff.mp hentry
    exact ⟨hcall, hd⟩
  · rintro ⟨hcall, hd⟩
    exact ⟨_, hcall, noted?_eq_some_iff.mpr ⟨rfl, hd⟩⟩

/-- No call has two entries. -/
theorem nodup_map_fst_trace (h : calls.Nodup) : ((trace calls answer).map Prod.fst).Nodup := by
  have hperm := (List.mergeSort_perm (calls.filterMap (noted? answer)) entryNotAfter).map Prod.fst
  apply hperm.symm.nodup
  rw [List.Nodup, List.pairwise_map]
  refine List.Pairwise.filterMap _ ?_ h
  intro c c' hne entry hentry entry' hentry' heq
  obtain ⟨rfl, -⟩ := noted?_eq_some_iff.mp hentry
  obtain ⟨rfl, -⟩ := noted?_eq_some_iff.mp hentry'
  exact hne heq

/-- **Leaving out calls leaves out their entries**, and the others keep their order. -/
theorem trace_filter (keep : γ → Bool) :
    trace (calls.filter keep) answer = (trace calls answer).filter fun entry => keep entry.1 := by
  unfold trace
  rw [filter_mergeSort_comm entryNotAfter_trans entryNotAfter_total, List.filter_filterMap,
    List.filterMap_filter]
  congr 1
  apply List.filterMap_congr
  intro call _
  unfold noted?
  cases hkeep : keep call <;> cases answer call <;> simp [hkeep, Option.filter]

end Trace

/-! ## Which calls a part of the rules makes -/

section Calls
variable {α : Type} {t : Tree} (kindsOf : α → List Kind)

/-- Leaving out checkers leaves out their calls. -/
theorem flatMap_dueAt_filter (keep : α → Bool) (checkers : List α) (order : List Handle) :
    order.flatMap (dueAt kindsOf (checkers.filter keep) t) =
      (order.flatMap (dueAt kindsOf checkers t)).filter fun call => keep call.1 := by
  rw [List.filter_flatMap]
  refine congrArg (fun f => order.flatMap f) (funext fun h => ?_)
  unfold dueAt
  rw [List.filter_map, List.filter_filter, List.filter_filter]
  simp only [Function.comp_def, Bool.and_comm]

/-- A single checker is called for the nodes of its kinds. -/
theorem flatMap_dueAt_singleton (checker : α) (order : List Handle) :
    order.flatMap (dueAt kindsOf [checker] t) =
      (order.filter fun h => (kindsOf checker).contains (t.kindAt h)).map
        fun h => (checker, h) := by
  induction order with
  | nil => rfl
  | cons h order ih =>
      rw [List.flatMap_cons, ih, List.filter_cons]
      by_cases hkind : (kindsOf checker).contains (t.kindAt h) = true
      · rw [if_pos hkind, List.map_cons]
        simp [dueAt, List.contains_iff_mem.mp hkind]
      · rw [if_neg hkind]
        simp [dueAt, mt List.contains_iff_mem.mpr hkind]

end Calls

/-! ## What a run returns -/

section Run
variable {t : Tree} {order : List Handle}

/-- A run returns what it finds in the order of the positions, also when there are no rules. -/
theorem run_of_findings (ht : t.WellFormed) (horder : t.Listed [0] order) {rules : List Rule}
    {found : List Diagnostic} (hfound : findings t rules = .ok found) :
    run t rules = .ok (found.mergeSort Diagnostic.notAfter) := by
  cases rules with
  | nil =>
      -- Without rules the walk is skipped, but there is nothing that it could find.
      have hvisits := visits_eq_ok (t := t) Rule.kinds [] ht horder
      have hnone : order.flatMap (dueAt Rule.kinds [] t) = [] :=
        List.flatMap_eq_nil_iff.mpr fun _ _ => rfl
      rw [hnone] at hvisits
      rw [findings, hvisits, ok_bind, List.mapM_nil] at hfound
      cases hfound
      exact (congrArg Except.ok List.mergeSort_nil).symm
  | cons rule rules => exact run_eq_ok (List.cons_ne_nil _ _) hfound

/-- **A run returns what its calls are answered with**, in the order of the positions, when every
check succeeds. -/
theorem run_of_answers (ht : t.WellFormed) (horder : t.Listed [0] order) {α : Type}
    (make : α → Rule) (answer : α × Handle → Option Diagnostic) {plans : List α}
    (hcheck : ∀ plan ∈ plans, ∀ h, h < t.size → (make plan).check t h = .ok (answer (plan, h))) :
    run t (plans.map make) = .ok
      (((order.flatMap (dueAt (fun plan => (make plan).kinds) plans t)).filterMap answer).mergeSort
        Diagnostic.notAfter) := by
  have hanswer : ∀ plan ∈ plans, ∀ h, h < t.size →
      Yields ((make plan).check t h) (answer (plan, h) = ·) :=
    fun plan hplan h hh => ⟨_, hcheck plan hplan h hh, rfl⟩
  obtain ⟨found, hfound, reports, hreports, rfl⟩ := findings_yields
    (r := fun call report => answer call = report) ht horder hanswer
  rw [← List.forall₂_map_left_iff, List.forall₂_eq_eq_eq] at hreports
  rw [← hreports, List.filterMap_map] at hfound
  exact run_of_findings ht horder hfound

/-- The run of a single rule. -/
theorem run_singleton (ht : t.WellFormed) (horder : t.Listed [0] order) {rule : Rule}
    {answer : Handle → Option Diagnostic}
    (hcheck : ∀ h, h < t.size → rule.check t h = .ok (answer h)) :
    run t [rule] = .ok
      (((order.filter fun h => rule.kinds.contains (t.kindAt h)).filterMap answer).mergeSort
        Diagnostic.notAfter) := by
  have hanswer : ∀ plan ∈ [rule], ∀ h, h < t.size → plan.check t h = .ok (answer h) := by
    intro plan hplan
    rw [List.mem_singleton.mp hplan]
    exact hcheck
  have hrun := run_of_answers ht horder (fun rule => rule) (fun call => answer call.2) hanswer
  rw [flatMap_dueAt_singleton, List.filterMap_map] at hrun
  exact hrun

/-! ### Fewer rules -/

/-- The rules whose numbers are kept. -/
def selected (keep : Nat → Bool) (rules : List Rule) : List Rule :=
  (rules.zipIdx.filter fun numbered => keep numbered.2).map Prod.fst

/-- The calls of the rules, each with the number of its rule. -/
def callsIn (order : List Handle) (t : Tree) (rules : List Rule) : List ((Rule × Nat) × Handle) :=
  order.flatMap (dueAt (fun numbered : Rule × Nat => numbered.1.kinds) rules.zipIdx t)

/-- The trace of a run of rules that give these answers. -/
def traceOf (order : List Handle) (t : Tree) (rules : List Rule)
    (answer : Rule → Handle → Option Diagnostic) : List (((Rule × Nat) × Handle) × Diagnostic) :=
  trace (callsIn order t rules) fun call => answer call.1.1 call.2

/-- The run over the rules that are kept returns their part of the trace. -/
theorem run_selected (ht : t.WellFormed) (horder : t.Listed [0] order) {rules : List Rule}
    {answer : Rule → Handle → Option Diagnostic}
    (hanswer : ∀ rule ∈ rules, ∀ h, h < t.size → rule.check t h = .ok (answer rule h))
    (keep : Nat → Bool) :
    run t (selected keep rules) = .ok
      (((traceOf order t rules answer).filter fun entry => keep entry.1.1.2).map Prod.snd) := by
  unfold traceOf callsIn
  rw [← trace_filter fun call : (Rule × Nat) × Handle => keep call.1.2, map_snd_trace,
    ← flatMap_dueAt_filter _ fun numbered : Rule × Nat => keep numbered.2]
  apply run_of_answers ht horder Prod.fst fun call => answer call.1.1 call.2
  intro numbered hnumbered
  have hmem := List.mk_mem_zipIdx_iff_getElem?.mp (List.mem_filter.mp hnumbered).1
  exact hanswer numbered.1 (List.mem_of_getElem? hmem)

theorem selected_all (rules : List Rule) : selected (fun _ => true) rules = rules := by
  rw [selected, List.filter_true, List.zipIdx_map_fst]

/-! ### Fewer kinds -/

/-- The nodes that a rule for these kinds is called for. -/
def nodesOf (order : List Handle) (t : Tree) (kinds : List Kind) : List Handle :=
  order.filter fun h => kinds.contains (t.kindAt h)

theorem nodesOf_fewer {kinds fewer : List Kind} (hfewer : fewer ⊆ kinds) :
    nodesOf order t fewer =
      (nodesOf order t kinds).filter fun h => fewer.contains (t.kindAt h) := by
  unfold nodesOf
  rw [List.filter_filter]
  apply List.filter_congr
  intro h _
  rw [Bool.eq_iff_iff, Bool.and_eq_true, List.contains_iff_mem, List.contains_iff_mem]
  exact ⟨fun hkind => ⟨hkind, hfewer hkind⟩, And.left⟩

/-- The kinds of a closing-brace rule decide when it is called, and not what it answers. -/
theorem check_of_kinds (ht : t.WellFormed) (policy : Policy) (severity : Severity)
    (kinds kinds' : List Kind) {h : Handle} (hh : h < t.size) :
    (BraceOptions.mk policy kinds' severity).rule.check t h =
      .ok ((BraceOptions.mk policy kinds severity).rule.report? t h) :=
  BraceOptions.check_eq_ok ⟨policy, kinds', severity⟩ ht hh

/-- The run of a rule for fewer kinds returns the part of the trace at the nodes of these kinds. -/
theorem run_fewer (ht : t.WellFormed) (horder : t.Listed [0] order) (policy : Policy)
    (severity : Severity) {kinds fewer : List Kind} (hfewer : fewer ⊆ kinds) :
    run t [(BraceOptions.mk policy fewer severity).rule] = .ok
      (((trace (nodesOf order t kinds)
          ((BraceOptions.mk policy kinds severity).rule.report? t)).filter
        fun entry => fewer.contains (t.kindAt entry.1)).map Prod.snd) := by
  rw [← trace_filter fun h => fewer.contains (t.kindAt h), ← nodesOf_fewer hfewer, map_snd_trace]
  exact run_singleton ht horder fun h hh => check_of_kinds ht policy severity kinds fewer hh

/-! ### Both -/

/-- **A run over a part of the rules, or over a part of the kinds of a rule, is a part of the whole
run.** The diagnostics of a run go back to its calls, one entry for each call that is answered with
one. Whatever rules are left out, the run over the others returns the diagnostics of the entries of
these others, in the same order; and so it is when kinds of a closing-brace rule are left out. -/
theorem run_of_selection (ht : t.Reachable) {root : Handle} (hroot : t.root = .ok root) :
    (∀ (rules : List Rule) (answer : Rule → Handle → Option Diagnostic),
      (∀ rule ∈ rules, ∀ h, h < t.size → rule.check t h = .ok (answer rule h)) →
      ∃ entries : List (((Rule × Nat) × Handle) × Diagnostic),
        (entries.map Prod.fst).Nodup ∧
        (∀ rule i h d, (((rule, i), h), d) ∈ entries ↔ rules[i]? = some rule ∧
          (∃ kind, t.kind h = .ok kind ∧ kind ∈ rule.kinds) ∧ answer rule h = some d) ∧
        run t rules = .ok (entries.map Prod.snd) ∧
        ∀ keep, run t (selected keep rules) =
          .ok ((entries.filter fun entry => keep entry.1.1.2).map Prod.snd)) ∧
    (∀ policy severity kinds, ∃ entries : List (Handle × Diagnostic),
      (entries.map Prod.fst).Nodup ∧
      (∀ h d, (h, d) ∈ entries ↔ (∃ kind, t.kind h = .ok kind ∧ kind ∈ kinds) ∧
        (BraceOptions.mk policy kinds severity).rule.check t h = .ok (some d)) ∧
      run t [(BraceOptions.mk policy kinds severity).rule] = .ok (entries.map Prod.snd) ∧
      ∀ fewer, fewer ⊆ kinds → run t [(BraceOptions.mk policy fewer severity).rule] =
        .ok ((entries.filter fun entry => fewer.contains (t.kindAt entry.1)).map Prod.snd)) := by
  have hwf := ht.wellFormed
  obtain ⟨hsize, rfl⟩ := hwf.root_eq_ok_iff.mp hroot
  obtain ⟨order, horder, hperm, -⟩ := hwf.exists_preorder hsize
  have hnodup : order.Nodup := hperm.symm.nodup List.nodup_range
  have hmem {h : Handle} : h ∈ order ↔ h < t.size := by
    rw [hperm.mem_iff, List.mem_range]
  constructor
  · intro rules answer hanswer
    refine ⟨traceOf order t rules answer, nodup_map_fst_trace (nodup_due Rule.kinds hnodup rules),
      ?_, ?_, run_selected hwf horder hanswer⟩
    · intro rule i h d
      unfold traceOf callsIn
      rw [mem_trace_iff, mem_flatMap_dueAt_iff, List.mk_mem_zipIdx_iff_getElem?, hmem, and_assoc]
      simp only [Tree.kind_eq_ok_iff]
      grind
    · have hall := run_selected hwf horder hanswer fun _ => true
      rwa [selected_all, List.filter_true] at hall
  · intro policy severity kinds
    have hcheck {h : Handle} (hh : h < t.size) :=
      check_of_kinds hwf policy severity kinds kinds hh
    refine ⟨trace (nodesOf order t kinds) ((BraceOptions.mk policy kinds severity).rule.report? t),
      nodup_map_fst_trace (hnodup.filter _), ?_, ?_,
      fun fewer hfewer => run_fewer hwf horder policy severity hfewer⟩
    · intro h d
      unfold nodesOf
      rw [mem_trace_iff, List.mem_filter, hmem, List.contains_iff_mem]
      constructor
      · rintro ⟨⟨hh, hkind⟩, hd⟩
        exact ⟨⟨_, Tree.kind_of_lt hh, hkind⟩, by rw [hcheck hh, hd]⟩
      · rintro ⟨⟨kind, hk, hkind⟩, hd⟩
        obtain ⟨hh, rfl⟩ := Tree.kind_eq_ok_iff.mp hk
        rw [hcheck hh] at hd
        exact ⟨⟨hh, hkind⟩, Except.ok.inj hd⟩
    · rw [map_snd_trace]
      exact run_singleton hwf horder fun h hh => hcheck hh

/-- An if statement with an else branch, all on one line. Two rules report it at one place, and the
closing-brace rule reports both braces; then the first rule and the if statement are left out. -/
theorem run_of_selection_in_one_line :
    let t := Tree.replay "if (a) \x7b\x7d else \x7b\x7d" [⟨.ifStatement, 1, 0, none⟩,
      ⟨.statementList, 1, 7, some 0⟩, ⟨.elseBranch, 1, 10, some 0⟩,
      ⟨.statementList, 1, 15, some 2⟩, ⟨.rightCurly, 1, 16, some 3⟩, ⟨.rightCurly, 1, 8, some 1⟩]
    let answer : Rule → Handle → Option Diagnostic := fun rule _ =>
      some ⟨1, 1, rule.id, .error, none, none, none, none, none, none⟩
    let rule (id : String) (kinds : List Kind) : Rule :=
      ⟨id, kinds, fun _ h => .ok (answer ⟨id, [], fun _ _ => .ok none⟩ h)⟩
    let rules := [rule "first" [.ifStatement, .elseBranch], rule "second" [.ifStatement]]
    t.Reachable ∧ t.root = .ok 0 ∧
      (∀ rule ∈ rules, ∀ h, h < t.size → rule.check t h = .ok (answer rule h)) ∧
      selected (· == 1) rules = [rule "second" [.ifStatement]] ∧
      (∃ entries : List (((Rule × Nat) × Handle) × Diagnostic),
        run t rules = .ok (entries.map Prod.snd) ∧
        run t (selected (· == 1) rules) =
          .ok ((entries.filter fun entry => entry.1.1.2 == 1).map Prod.snd)) ∧
      Finding.analyze t .alone 0 = .ok (some ⟨.lineAlone, 5, 9⟩) ∧
      Finding.analyze t .alone 2 = .ok (some ⟨.lineAlone, 4, 17⟩) ∧
      [Kind.elseBranch] ⊆ [.ifStatement, .elseBranch] ∧
      ∃ entries : List (Handle × Diagnostic),
        run t [(BraceOptions.mk .alone [.ifStatement, .elseBranch] .error).rule] =
          .ok (entries.map Prod.snd) ∧
        run t [(BraceOptions.mk .alone [.elseBranch] .error).rule] =
          .ok ((entries.filter fun entry => [Kind.elseBranch].contains (t.kindAt entry.1)).map
            Prod.snd) := by
  intro t answer rule rules
  have ht : t.Reachable := Tree.reachable_replay _ _
  have hroot : t.root = .ok 0 := by decide +kernel
  have hanswer : ∀ rule ∈ rules, ∀ h, h < t.size → rule.check t h = .ok (answer rule h) := by
    intro r hr h _
    rcases List.mem_cons.mp hr with rfl | hr
    · rfl
    · rcases List.mem_singleton.mp hr with rfl
      rfl
  have hfewer : [Kind.elseBranch] ⊆ [.ifStatement, .elseBranch] := by decide
  obtain ⟨hrules, hkinds⟩ := run_of_selection ht hroot
  obtain ⟨entries, -, -, hrun, hselected⟩ := hrules rules answer hanswer
  obtain ⟨entries', -, -, hrun', hselected'⟩ :=
    hkinds .alone .error [.ifStatement, .elseBranch]
  exact ⟨ht, hroot, hanswer, rfl, ⟨entries, hrun, hselected _⟩, by decide +kernel,
    by decide +kernel, hfewer, entries', hrun', hselected' _ hfewer⟩

end Run
end Rule
end ClosingBrace
