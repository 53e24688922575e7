import ClosingBrace.Schema.Issue
import Mathlib.Data.List.Lex

/-!
# What a check has to find

A check judges a part of a value when it accepts exactly the good parts, with the result that
belongs to them, and otherwise reports exactly the faults of the part, each of them once and in
order. The order is that of the schema, and the faults of one member come together: paths are
compared step by step, members by the place of their key among the keys of the schema and items by
their own place.

Checks of two parts that stand one after the other judge both parts together; so a check of a whole
is right when the checks of its parts are.

## Main statements

* `Telling.both`: a whole is not refused without an issue if its parts are not.
* `Judges.both`, `Judges.below`: from the parts to the whole.
* `Judges.nodup`: no fault is reported twice.
-/

namespace ClosingBrace

/-! ## The order of issues -/

/-- The place of a step among its siblings, where `keys` are those of the schema. -/
def PathStep.rank (keys : List String) : PathStep → Nat
  | .key name => keys.idxOf name
  | .index place => place

/-- Whether a path leads to an earlier part. -/
def PathStep.Before (keys : List String) : List PathStep → List PathStep → Prop :=
  List.Lex fun s s' => s.rank keys < s'.rank keys

/-- Issues are ordered by their paths. At one number, it comes first that it is not whole. -/
def Issue.Before (keys : List String) (a b : Issue) : Prop :=
  PathStep.Before keys a.path b.path ∨
    a.path = b.path ∧ a.fault = .notWhole ∧ b.fault ≠ .notWhole

theorem Issue.before_irrefl (keys : List String) (a : Issue) : ¬ a.Before keys a := by
  rintro (hpath | ⟨-, hwhole, hother⟩)
  · exact List.lex_irrefl (fun s => Nat.lt_irrefl (s.rank keys)) a.path hpath
  · exact hother hwhole

/-- The faults that a part has one step further down. -/
def Below (step : PathStep) (faulty : List PathStep → Fault → Prop) (rest : List PathStep)
    (f : Fault) : Prop :=
  ∃ inner, rest = step :: inner ∧ faulty inner f

theorem Below.before {keys : List String} {step step' : PathStep}
    {faulty faulty' : List PathStep → Fault → Prop} {rest rest' : List PathStep} {f f' : Fault}
    (h : Below step faulty rest f) (h' : Below step' faulty' rest' f')
    (hrank : step.rank keys < step'.rank keys) : PathStep.Before keys rest rest' := by
  obtain ⟨inner, rfl, -⟩ := h
  obtain ⟨inner', rfl, -⟩ := h'
  exact .rel hrank

namespace Checked

variable {α β : Type} {keys : List String} {path : List PathStep} {x : Checked α} {y : Checked β}
  {good : α → Prop} {good' : β → Prop} {faulty faulty' : List PathStep → Fault → Prop}

theorem issues_map (x : Checked α) (f : α → β) : issues (x.map f) = x.issues := by
  cases x <;> rfl

/-- What the check does not accept has an issue. -/
def Telling (x : Checked α) : Prop := ∀ found, x = .error found → found ≠ []

theorem telling_fault (path : List PathStep) (f : Fault) : (fault path f : Checked α).Telling := by
  rintro found ⟨⟩
  exact List.cons_ne_nil _ _

theorem Telling.map (h : x.Telling) (f : α → β) : Telling (x.map f) := by
  intro found hfound
  cases x with
  | ok a => cases hfound
  | error e =>
      obtain rfl : e = found := Except.error.inj hfound
      exact h e rfl

theorem Telling.both (hx : x.Telling) (hy : y.Telling) : (Checked.both x y).Telling := by
  intro found hfound
  have hissues : found = x.issues ++ y.issues := by
    rw [← issues_both, hfound]
    rfl
  cases x with
  | error e =>
      rw [hissues]
      exact List.append_ne_nil_of_left_ne_nil (hx e rfl) _
  | ok a =>
      cases y with
      | error e =>
          rw [hissues]
          exact List.append_ne_nil_of_right_ne_nil _ (hy e rfl)
      | ok b => cases hfound

/-- The check accepts what is `good`, with that result, and reports what is `faulty` below `path`:
each fault once, and in the order of the schema. -/
structure Judges (keys : List String) (path : List PathStep) (good : α → Prop)
    (faulty : List PathStep → Fault → Prop) (x : Checked α) : Prop where
  eq_ok_iff : ∀ a, x = .ok a ↔ good a
  mem_issues_iff : ∀ issue,
    issue ∈ x.issues ↔ ∃ rest, issue.path = path ++ rest ∧ faulty rest issue.fault
  ordered : x.issues.Pairwise (Issue.Before keys)
  /-- What is not accepted has an issue. -/
  ne_nil : ∀ found, x = .error found → found ≠ []

namespace Judges

/-! ## Single parts -/

/-- A check that accepts a part without fault. -/
theorem ok {a : α} (hgood : ∀ b, good b ↔ b = a) (hfaulty : ∀ rest f, ¬ faulty rest f) :
    Judges keys path good faulty (.ok a) where
  eq_ok_iff b := by
    rw [hgood, Except.ok.injEq, eq_comm]
  mem_issues_iff issue := by
    simp [issues, hfaulty]
  ordered := List.Pairwise.nil
  ne_nil _ h := by cases h

/-- A check that reports the one fault of a part. -/
theorem fault {f : Fault} (hgood : ∀ b, ¬ good b)
    (hfaulty : ∀ rest g, faulty rest g ↔ rest = [] ∧ g = f) :
    Judges keys path good faulty (Checked.fault path f) where
  eq_ok_iff b := by
    simp [Checked.fault, hgood]
  mem_issues_iff issue := by
    obtain ⟨issuePath, g⟩ := issue
    simp [Checked.fault, issues, hfaulty]
  ordered := List.pairwise_singleton _ _
  ne_nil := telling_fault path f

/-- A check that looks for several faults of one value and accepts it if there are none. -/
theorem faults {a : α} {found : List Fault} (hgood : ∀ b, good b ↔ b = a ∧ found = [])
    (hfaulty : ∀ rest f, faulty rest f ↔ rest = [] ∧ f ∈ found)
    (hordered : found.Pairwise fun f g => f = .notWhole ∧ g ≠ .notWhole) :
    Judges keys path good faulty
      (if found.isEmpty then .ok a else .error (found.map fun f => ⟨path, f⟩)) := by
  cases found with
  | nil => exact .ok (fun b => by simp [hgood]) fun rest f => by simp [hfaulty]
  | cons f fs =>
      rw [List.isEmpty_cons, if_neg Bool.false_ne_true]
      constructor
      case eq_ok_iff => simp [hgood]
      case mem_issues_iff =>
        rintro ⟨issuePath, g⟩
        simp only [issues, hfaulty, List.mem_map, Issue.mk.injEq]
        constructor
        · rintro ⟨g, hg, rfl, rfl⟩
          exact ⟨[], (List.append_nil _).symm, rfl, hg⟩
        · rintro ⟨_, hpath, rfl, hg⟩
          exact ⟨g, hg, (hpath.trans (List.append_nil _)).symm, rfl⟩
      case ordered =>
        refine List.pairwise_map.mpr (hordered.imp ?_)
        rintro f g ⟨hwhole, hother⟩
        exact .inr ⟨rfl, hwhole, hother⟩
      case ne_nil =>
        rintro _ ⟨⟩
        simp

/-! ## Several parts -/

theorem congr {good' : α → Prop} (hx : Judges keys path good faulty x)
    (hgood : ∀ a, good' a ↔ good a) (hfaulty : ∀ rest f, faulty' rest f ↔ faulty rest f) :
    Judges keys path good' faulty' x where
  eq_ok_iff a := by
    rw [hgood, hx.eq_ok_iff]
  mem_issues_iff issue := by
    simp only [hfaulty, hx.mem_issues_iff]
  ordered := hx.ordered
  ne_nil := hx.ne_nil

/-- What is read may be put together in another form. -/
theorem map {f : α → β} (hx : Judges keys path good faulty x)
    (hgood : ∀ b, good' b ↔ ∃ a, good a ∧ f a = b) :
    Judges keys path good' faulty (x.map f) := by
  refine ⟨fun b => ?_, ?_, ?_, Telling.map hx.ne_nil f⟩
  · simp only [hgood, ← hx.eq_ok_iff]
    cases x <;> simp [Except.map]
  · rw [issues_map]
    exact hx.mem_issues_iff
  · rw [issues_map]
    exact hx.ordered

/-- A check one step further down. -/
theorem below {step : PathStep} (hx : Judges keys (path ++ [step]) good faulty x) :
    Judges keys path good (Below step faulty) x where
  eq_ok_iff := hx.eq_ok_iff
  mem_issues_iff issue := by
    rw [hx.mem_issues_iff]
    constructor
    · rintro ⟨inner, hpath, hfault⟩
      exact ⟨step :: inner, by rw [hpath, List.append_assoc, List.singleton_append], inner, rfl,
        hfault⟩
    · rintro ⟨_, hpath, inner, rfl, hfault⟩
      exact ⟨inner, by rw [hpath, List.append_assoc, List.singleton_append], hfault⟩
  ordered := hx.ordered
  ne_nil := hx.ne_nil

/-- **Two checks judge two parts**, the first of which stands before the second. -/
theorem both (hx : Judges keys path good faulty x) (hy : Judges keys path good' faulty' y)
    (hbefore : ∀ rest f rest' f', faulty rest f → faulty' rest' f' →
      PathStep.Before keys rest rest') :
    Judges keys path (fun ab => good ab.1 ∧ good' ab.2)
      (fun rest f => faulty rest f ∨ faulty' rest f) (Checked.both x y) where
  eq_ok_iff ab := by
    rw [both_eq_ok_iff, hx.eq_ok_iff, hy.eq_ok_iff]
  mem_issues_iff issue := by
    simp only [issues_both, List.mem_append, hx.mem_issues_iff, hy.mem_issues_iff, and_or_left,
      exists_or]
  ordered := by
    rw [issues_both, List.pairwise_append]
    refine ⟨hx.ordered, hy.ordered, fun a ha b hb => ?_⟩
    obtain ⟨rest, hpath, hfault⟩ := (hx.mem_issues_iff a).mp ha
    obtain ⟨rest', hpath', hfault'⟩ := (hy.mem_issues_iff b).mp hb
    -- Both paths go through the common path first.
    left
    rw [hpath, hpath']
    exact List.Lex.append_left _ (hbefore _ _ _ _ hfault hfault') path
  ne_nil := Telling.both hx.ne_nil hy.ne_nil

/-! ## What a judgement says -/

/-- No fault is reported twice. -/
theorem nodup (hx : Judges keys path good faulty x) : x.issues.Nodup := by
  refine hx.ordered.imp fun {a b} hab heq => ?_
  subst heq
  exact Issue.before_irrefl keys a hab

/-- A part is good for something exactly when it has no fault. -/
theorem exists_good_iff (hx : Judges keys path good faulty x) :
    (∃ a, good a) ↔ ∀ rest f, ¬ faulty rest f := by
  simp only [← hx.eq_ok_iff]
  constructor
  · rintro ⟨a, rfl⟩ rest f hfault
    have hmem : (⟨path ++ rest, f⟩ : Issue) ∈ issues (.ok a : Checked α) :=
      (hx.mem_issues_iff _).mpr ⟨rest, rfl, hfault⟩
    exact absurd hmem List.not_mem_nil
  · intro hnone
    cases x with
    | ok a => exact ⟨a, rfl⟩
    | error found =>
        obtain ⟨issue, hissue⟩ := List.exists_mem_of_ne_nil found (hx.ne_nil found rfl)
        obtain ⟨rest, -, hfault⟩ := (hx.mem_issues_iff issue).mp hissue
        exact absurd hfault (hnone rest issue.fault)

end Judges
end Checked
end ClosingBrace
