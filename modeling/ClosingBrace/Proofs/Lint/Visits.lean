import ClosingBrace.Lint.Rule
import ClosingBrace.Proofs.Number.Rounding
import ClosingBrace.Proofs.Outcome
import ClosingBrace.Proofs.Tree.Listing

/-!
# The order of a run

A run makes its checks node by node in pre-order and, at one node, in the order of the rules, each
check once. What the checks report is then sorted by comparing differences of positions. The sign of
such a difference is the lexicographic order of the positions, so the sort is a stable sort by line
and column.

## Main statements

* `Diagnostic.notAfter_iff`: the differences compare positions lexicographically.
* `visits_eq_ok`, `findings_yields`: which checks a run makes, and what they report.
* `run_eq_ok`: a run succeeds when its checks do, with the sorted reports.
* `run_in_order`: the three together, for every reachable tree.
-/

namespace ClosingBrace

/-! ## The order of positions -/

namespace Diagnostic

/-- **The sign of the distance is the lexicographic order.** -/
theorem notAfter_iff {a b : Diagnostic} :
    a.notAfter b = true ↔ a.line < b.line ∨ a.line = b.line ∧ a.column ≤ b.column := by
  have hsub {x y : Number} : x - y ≤ 0 ↔ x ≤ y := by
    have hpos := Number.sub_pos_iff (x := x) (y := y)
    rw [Number.lt_iff, Number.lt_iff] at hpos
    rw [Number.le_iff, Number.le_iff, ← not_lt, hpos, not_lt]
  unfold notAfter distance
  rw [decide_eq_true_iff]
  split
  · next h =>
      rw [Number.sub_eq_zero_iff] at h
      rw [hsub, h, Number.lt_iff]
      simp
  · next h =>
      rw [Number.sub_eq_zero_iff] at h
      rw [hsub]
      constructor
      · intro hle
        exact .inl (Number.lt_of_le_of_ne hle h)
      · rintro (hlt | ⟨heq, -⟩)
        · exact (Number.lt_iff.mp hlt).le
        · exact absurd heq h

theorem notAfter_total (a b : Diagnostic) : (a.notAfter b || b.notAfter a) = true := by
  simp only [Bool.or_eq_true, notAfter_iff]
  by_cases h : a.line = b.line
  · rcases Number.le_total a.column b.column with hc | hc
    · exact .inl (.inr ⟨h, hc⟩)
    · exact .inr (.inr ⟨h.symm, hc⟩)
  · rcases Number.le_total a.line b.line with hl | hl
    · exact .inl (.inl (Number.lt_of_le_of_ne hl h))
    · exact .inr (.inl (Number.lt_of_le_of_ne hl fun he => h he.symm))

theorem notAfter_trans (a b c : Diagnostic) (hab : a.notAfter b = true)
    (hbc : b.notAfter c = true) : a.notAfter c = true := by
  simp only [notAfter_iff] at *
  rcases hab with hab | ⟨hab, hab'⟩ <;> rcases hbc with hbc | ⟨hbc, hbc'⟩
  · exact .inl (Number.lt_trans hab hbc)
  · exact .inl (hbc ▸ hab)
  · exact .inl (hab ▸ hbc)
  · exact .inr ⟨hab.trans hbc, Number.le_trans hab' hbc'⟩

/-- Sorting by position keeps the diagnostics at one position in order. -/
theorem filter_mergeSort (found : List Diagnostic) (line column : Number) :
    ((found.mergeSort notAfter).filter fun d => d.line = line ∧ d.column = column) =
      found.filter fun d => d.line = line ∧ d.column = column := by
  have htied {tied : List Diagnostic} (h : ∀ d ∈ tied, d.line = line ∧ d.column = column) :
      tied.Pairwise (notAfter · · = true) := by
    rw [List.pairwise_iff_getElem]
    intro i j hi hj _
    obtain ⟨ha, ha'⟩ := h _ (List.getElem_mem hi)
    obtain ⟨hb, hb'⟩ := h _ (List.getElem_mem hj)
    rw [notAfter_iff, ha, hb, ha', hb']
    exact .inr ⟨rfl, Number.le_iff.mpr le_rfl⟩
  have hplaced : ∀ d ∈ found.filter fun d => d.line = line ∧ d.column = column,
      d.line = line ∧ d.column = column :=
    fun d hd => of_decide_eq_true (List.mem_filter.mp hd).2
  -- A merge sort keeps every sublist that is sorted already, and diagnostics at one position are.
  have hsub := List.sublist_mergeSort notAfter_trans notAfter_total (htied hplaced)
    List.filter_sublist
  have hfiltered := hsub.filter fun d => d.line = line ∧ d.column = column
  rw [List.filter_filter] at hfiltered
  simp only [Bool.and_self] at hfiltered
  refine (hfiltered.eq_of_length ?_).symm
  exact ((List.mergeSort_perm found notAfter).filter _).length_eq.symm

end Diagnostic

/-! ## Which checks a run makes -/


namespace Rule

section Visits
variable {α : Type} {t : Tree} (kindsOf : α → List Kind) (checkers : List α)

/-- The checks that are due at a node, in order. -/
def dueAt (t : Tree) (h : Handle) : List (α × Handle) :=
  (checkers.filter fun c => (kindsOf c).contains (t.kindAt h)).map fun c => (c, h)

theorem mem_dueAt_iff {h : Handle} {call : α × Handle} :
    call ∈ dueAt kindsOf checkers t h ↔
      call.1 ∈ checkers ∧ t.kindAt h ∈ kindsOf call.1 ∧ call.2 = h := by
  unfold dueAt
  rw [List.mem_map]
  constructor
  · rintro ⟨c, hc, rfl⟩
    rw [List.mem_filter, List.contains_iff_mem] at hc
    exact ⟨hc.1, hc.2, rfl⟩
  · rintro ⟨hmem, hkind, rfl⟩
    exact ⟨call.1, List.mem_filter.mpr ⟨hmem, List.contains_iff_mem.mpr hkind⟩, rfl⟩

theorem mem_flatMap_dueAt_iff {order : List Handle} {call : α × Handle} :
    call ∈ order.flatMap (dueAt kindsOf checkers t) ↔
      call.1 ∈ checkers ∧ call.2 ∈ order ∧ t.kindAt call.2 ∈ kindsOf call.1 := by
  rw [List.mem_flatMap]
  constructor
  · rintro ⟨h, hh, hdue⟩
    obtain ⟨hmem, hkind, rfl⟩ := (mem_dueAt_iff _ _).mp hdue
    exact ⟨hmem, hh, hkind⟩
  · rintro ⟨hmem, hh, hkind⟩
    exact ⟨call.2, hh, (mem_dueAt_iff _ _).mpr ⟨hmem, hkind, rfl⟩⟩

/-- **The checks of a run** are those due at the nodes, node by node in pre-order. -/
theorem visits_eq_ok (ht : t.WellFormed) {order : List Handle} (horder : t.Listed [0] order) :
    visits t kindsOf checkers = .ok (order.flatMap (dueAt kindsOf checkers t)) := by
  have hvisit : ∀ h ∈ order, visitsAt t kindsOf checkers h = .ok (dueAt kindsOf checkers t h) := by
    intro h hh
    obtain ⟨a, ha, hah⟩ := (horder.mem_iff ht).mp hh
    obtain ⟨-, -, hsize, -⟩ := horder.of_singleton
    rw [List.mem_singleton.mp ha] at hah
    simp [visitsAt, dueAt, Tree.kind_of_lt (hah.lt_size hsize), bind, Except.bind, pure, Except.pure]
  simp [visits, ht.preorder_eq_ok horder, mapM_eq_ok hvisit, List.flatMap, bind, Except.bind, pure,
    Except.pure]

/-- The checks of numbered rules come in order of their nodes and, at one node, of their numbers. -/
theorem pairwise_due {order : List Handle} (hnodup : order.Nodup) (rules : List α) :
    (order.flatMap (dueAt (fun c : α × Nat => kindsOf c.1) rules.zipIdx t)).Pairwise fun c d =>
      order.idxOf c.2 < order.idxOf d.2 ∨ c.2 = d.2 ∧ c.1.2 < d.1.2 := by
  rw [List.pairwise_flatMap]
  constructor
  · -- At one node the checkers keep their order, and with it the order of their numbers.
    intro h _
    unfold dueAt
    rw [List.pairwise_map]
    refine List.Pairwise.filter _ ?_
    have hnumbers : (rules.zipIdx.map Prod.snd).Pairwise (· < ·) := by
      rw [List.zipIdx_map_snd]
      exact List.pairwise_lt_range'
    exact (List.pairwise_map.mp hnumbers).imp fun hlt => .inr ⟨rfl, hlt⟩
  · rw [List.pairwise_iff_getElem]
    intro i j hi hj hij c hc d hd
    rw [(mem_dueAt_iff _ _).mp hc |>.2.2, (mem_dueAt_iff _ _).mp hd |>.2.2,
      hnodup.idxOf_getElem, hnodup.idxOf_getElem]
    exact .inl hij

/-- No numbered rule is called twice for a node. -/
theorem nodup_due {order : List Handle} (hnodup : order.Nodup) (rules : List α) :
    (order.flatMap (dueAt (fun c : α × Nat => kindsOf c.1) rules.zipIdx t)).Nodup := by
  refine (pairwise_due kindsOf hnodup rules).imp fun hlt => ?_
  rintro rfl
  rcases hlt with hlt | ⟨-, hlt⟩ <;> exact Nat.lt_irrefl _ hlt

/-- The checks of checkers that are made from others are made from the checks of those. -/
theorem flatMap_dueAt_map {β : Type} (make : β → α) (plans : List β) (order : List Handle) :
    order.flatMap (dueAt kindsOf (plans.map make) t) =
      (order.flatMap (dueAt (fun plan => kindsOf (make plan)) plans t)).map
        fun call => (make call.1, call.2) := by
  rw [List.map_flatMap]
  refine congrArg (fun f => order.flatMap f) (funext fun h => ?_)
  unfold dueAt
  rw [List.filter_map, List.map_map, List.map_map]
  rfl

end Visits

/-! ## What a run reports -/

variable {t : Tree} {rules : List Rule}

/-- What the checks report when each of them succeeds. The rules may be made from something else,
such as their options, that says more about the checks. -/
theorem findings_yields (ht : t.WellFormed) {order : List Handle} (horder : t.Listed [0] order)
    {α : Type} {plans : List α} {make : α → Rule} {r : α × Handle → Option Diagnostic → Prop}
    (hcheck : ∀ plan ∈ plans, ∀ h, h < t.size → Yields ((make plan).check t h) (r (plan, h))) :
    Yields (findings t (plans.map make)) fun found => ∃ reports,
      List.Forall₂ r (order.flatMap (dueAt (fun plan => (make plan).kinds) plans t)) reports ∧
        found = reports.filterMap fun report => report := by
  unfold findings
  rw [visits_eq_ok _ _ ht horder, flatMap_dueAt_map, ok_bind, List.mapM_map]
  have hcalls : ∀ call ∈ order.flatMap (dueAt (fun plan => (make plan).kinds) plans t),
      Yields ((make call.1).check t call.2) (r call) := by
    intro call hcall
    obtain ⟨h, hh, hdue⟩ := List.mem_flatMap.mp hcall
    obtain ⟨hplan, -, rfl⟩ := (mem_dueAt_iff _ _).mp hdue
    obtain ⟨a, ha, hah⟩ := (horder.mem_iff ht).mp hh
    obtain ⟨-, -, hsize, -⟩ := horder.of_singleton
    rw [List.mem_singleton.mp ha] at hah
    exact hcheck call.1 hplan call.2 (hah.lt_size hsize)
  refine (Yields.mapM hcalls).bind fun reports hreports => ?_
  exact .ok ⟨reports, hreports, rfl⟩

/-- **A run whose checks succeed** returns what they report, sorted. -/
theorem run_eq_ok (hrules : rules ≠ []) {found : List Diagnostic}
    (hfound : findings t rules = .ok found) :
    run t rules = .ok (found.mergeSort Diagnostic.notAfter) := by
  have hempty : rules.isEmpty = false := by simp [hrules]
  simp [run, hempty, hfound, bind, Except.bind, pure, Except.pure]

/-- A run reports in the order of positions. -/
theorem run_pairwise {ds : List Diagnostic} (h : run t rules = .ok ds) :
    ds.Pairwise fun a b => a.notAfter b = true := by
  by_cases hrules : rules = []
  · rw [hrules, run_nil] at h
    cases h
    exact List.Pairwise.nil
  · cases hfound : findings t rules with
    | error e =>
        have hempty : rules.isEmpty = false := by simp [hrules]
        simp [run, hempty, hfound, bind, Except.bind] at h
    | ok found =>
        rw [run_eq_ok hrules hfound] at h
        cases h
        exact List.pairwise_mergeSort Diagnostic.notAfter_trans Diagnostic.notAfter_total found

/-! ## The whole run -/

/-- How a run of rules over a tree goes, when `answer` is what the checks say: the nodes it passes,
the calls it makes, each with the number of its rule, and the diagnostics it returns. -/
structure RunsInOrder (t : Tree) (root : Handle) (rules : List Rule)
    (answer : Rule → Handle → Option Diagnostic) (order : List Handle)
    (calls : List ((Rule × Nat) × Handle)) (ds : List Diagnostic) : Prop where
  /-- The nodes are passed in pre-order. -/
  preorder : t.Listed [root] order
  /-- Every node is passed once. -/
  nodes_once : order.Perm (List.range t.size)
  /-- The walk comes to its end by itself. -/
  walk_ends : ∀ count, t.size ≤ count → t.preorderFrom count [root] = .ok order
  /-- These are the calls. -/
  visits : Rule.visits t (fun numbered => numbered.1.kinds) rules.zipIdx = .ok calls
  /-- A rule is called for the nodes of its kinds and for no others. -/
  called_iff : ∀ rule i h, ((rule, i), h) ∈ calls ↔
    rules[i]? = some rule ∧ ∃ kind, t.kind h = .ok kind ∧ kind ∈ rule.kinds
  /-- No rule is called twice for a node. -/
  calls_once : calls.Nodup
  /-- The calls follow the order of the nodes and, at one node, the order of the rules. -/
  calls_in_order : calls.Pairwise fun c d =>
    order.idxOf c.2 < order.idxOf d.2 ∨ c.2 = d.2 ∧ c.1.2 < d.1.2
  /-- The answers are taken in the order of the calls. -/
  findings : Rule.findings t rules = .ok (calls.filterMap fun c => answer c.1.1 c.2)
  /-- These are the diagnostics. -/
  run : Rule.run t rules = .ok ds
  /-- They are the answers, each as often as it was given. -/
  answers : ds.Perm (calls.filterMap fun c => answer c.1.1 c.2)
  /-- They are in the order of their positions. -/
  sorted : ds.Pairwise fun a b => a.line < b.line ∨ a.line = b.line ∧ a.column ≤ b.column
  /-- At one position they are in the order of the calls. -/
  stable : ∀ line column, (ds.filter fun d => d.line = line ∧ d.column = column) =
    (calls.filterMap fun c => answer c.1.1 c.2).filter fun d => d.line = line ∧ d.column = column

/-- **A run makes each check once, in pre-order, and sorts what it is told** by line and column,
stably, whatever additions have built the tree. -/
theorem run_in_order (ht : t.Reachable) {root : Handle} (hroot : t.root = .ok root)
    (hrules : rules ≠ []) {answer : Rule → Handle → Option Diagnostic}
    (hanswer : ∀ rule ∈ rules, ∀ h, h < t.size → rule.check t h = .ok (answer rule h)) :
    ∃ order calls ds, RunsInOrder t root rules answer order calls ds := by
  have hwf := ht.wellFormed
  obtain ⟨hsize, rfl⟩ := hwf.root_eq_ok_iff.mp hroot
  obtain ⟨order, horder, hperm, hwalk⟩ := hwf.exists_preorder hsize
  have hnodup : order.Nodup := hperm.symm.nodup List.nodup_range
  have hmem {h : Handle} : h ∈ order ↔ h < t.size := by
    rw [hperm.mem_iff, List.mem_range]
  let calls := order.flatMap (dueAt (fun c : Rule × Nat => c.1.kinds) rules.zipIdx t)
  have hcalls := pairwise_due Rule.kinds (t := t) hnodup rules
  have hfound : findings t rules = .ok (calls.filterMap fun c => answer c.1.1 c.2) := by
    have hcheck : ∀ plan ∈ rules.zipIdx, ∀ h, h < t.size →
        Yields (plan.1.check t h) (answer plan.1 h = ·) := by
      intro plan hplan h hh
      have hrule := List.mem_of_getElem? (List.mk_mem_zipIdx_iff_getElem?.mp hplan)
      exact ⟨_, hanswer plan.1 hrule h hh, rfl⟩
    -- The rules are taken with their numbers, which tell two equal rules of the list apart.
    obtain ⟨found, hfound, reports, hreports, rfl⟩ := findings_yields
      (r := fun (call : (Rule × Nat) × Handle) d => answer call.1.1 call.2 = d) hwf horder hcheck
    rw [← List.forall₂_map_left_iff, List.forall₂_eq_eq_eq] at hreports
    rw [List.zipIdx_map_fst] at hfound
    rw [hfound, ← hreports, List.filterMap_map]
    rfl
  refine ⟨order, calls, (calls.filterMap fun c => answer c.1.1 c.2).mergeSort Diagnostic.notAfter,
    horder, hperm, hwalk, visits_eq_ok _ _ hwf horder, ?_, ?_, hcalls, hfound,
    run_eq_ok hrules hfound, List.mergeSort_perm _ _, ?_, Diagnostic.filter_mergeSort _⟩
  · intro rule i h
    rw [List.mem_flatMap]
    constructor
    · rintro ⟨g, hg, hdue⟩
      obtain ⟨hrule, hkind, rfl⟩ := (mem_dueAt_iff _ _).mp hdue
      exact ⟨List.mk_mem_zipIdx_iff_getElem?.mp hrule, _, Tree.kind_of_lt (hmem.mp hg), hkind⟩
    · rintro ⟨hrule, kind, hk, hkind⟩
      obtain ⟨hh, rfl⟩ := Tree.kind_eq_ok_iff.mp hk
      refine ⟨h, hmem.mpr hh, (mem_dueAt_iff _ _).mpr ⟨?_, hkind, rfl⟩⟩
      exact List.mk_mem_zipIdx_iff_getElem?.mpr hrule
  · refine hcalls.imp fun hlt => ?_
    rintro rfl
    rcases hlt with hlt | ⟨-, hlt⟩ <;> exact Nat.lt_irrefl _ hlt
  · exact (run_pairwise (run_eq_ok hrules hfound)).imp Diagnostic.notAfter_iff.mp

/-- A class that gets its method only after the class behind it was added: two rules ask for
classes, and what they find at the second class stands before what they find at the first. -/
theorem run_in_order_of_late_method :
    let t := Tree.replay "" [⟨.compilationUnit, 1, 0, none⟩, ⟨.classDef, 2, 0, some 0⟩,
      ⟨.classDef, 9, 0, some 0⟩, ⟨.methodDef, 3, 4, some 1⟩]
    let answer : Rule → Handle → Option Diagnostic := fun rule h =>
      some ⟨if h = 1 then 8 else 5, 1, rule.id, .error, none, none, none, none, none, none⟩
    let rule (id : String) (kinds : List Kind) : Rule :=
      ⟨id, kinds, fun _ h => .ok (answer ⟨id, [], fun _ _ => .ok none⟩ h)⟩
    let rules := [rule "first" [.classDef], rule "second" [.methodDef, .classDef]]
    t.Reachable ∧ t.root = .ok 0 ∧ rules ≠ [] ∧
      (∀ rule ∈ rules, ∀ h, h < t.size → rule.check t h = .ok (answer rule h)) ∧
      ∃ order calls ds, RunsInOrder t 0 rules answer order calls ds := by
  intro t answer rule rules
  have ht : t.Reachable := Tree.reachable_replay _ _
  have hroot : t.root = .ok 0 := by decide +kernel
  have hrules : rules ≠ [] := List.cons_ne_nil _ _
  have hanswer : ∀ rule ∈ rules, ∀ h, h < t.size → rule.check t h = .ok (answer rule h) := by
    intro r hr h _
    rcases List.mem_cons.mp hr with rfl | hr
    · rfl
    · rcases List.mem_singleton.mp hr with rfl
      rfl
  exact ⟨ht, hroot, hrules, hanswer, run_in_order ht hroot hrules hanswer⟩

end Rule
end ClosingBrace
