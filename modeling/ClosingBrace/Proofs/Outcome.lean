import Mathlib.Data.List.Forall2

/-!
# Outcomes

A computation that may fail *yields* a property when it succeeds and its result has the property.
What a function yields is said once, and the functions that call it take it from there, step by
step. In the same way two computations *both yield* a relation when they succeed with related
results.

## Main statements

* `bind_eq_ok_iff`: a sequence succeeds when both of its steps do.
* `Yields.bind`, `Yields.mapM`: what a sequence and a list of computations yield.
* `BothYield.bind`, `BothYield.mapM`: the same for two computations side by side.
-/

namespace ClosingBrace

variable {ε α β : Type}

/-- The computation succeeds with a result of which `p` holds. -/
def Yields (x : Except ε α) (p : α → Prop) : Prop := ∃ a, x = .ok a ∧ p a

theorem ok_bind (a : α) (f : α → Except ε β) : Except.ok a >>= f = f a := rfl

theorem bind_eq_ok_iff {x : Except ε α} {f : α → Except ε β} {b : β} :
    x >>= f = .ok b ↔ ∃ a, x = .ok a ∧ f a = .ok b := by
  cases x <;> simp [bind, Except.bind]

theorem map_eq_ok_iff {x : Except ε α} {f : α → β} {b : β} :
    x.map f = .ok b ↔ ∃ a, x = .ok a ∧ f a = b := by
  cases x <;> simp [Except.map]

theorem mapError_eq_ok_iff {x : Except ε α} {f : ε → β} {a : α} :
    x.mapError f = .ok a ↔ x = .ok a := by
  cases x <;> simp [Except.mapError]

/-- A computation that succeeds for every item succeeds for the list. -/
theorem mapM_eq_ok {f : α → Except ε β} {g : α → β} {l : List α} (h : ∀ a ∈ l, f a = .ok (g a)) :
    l.mapM f = .ok (l.map g) := by
  induction l with
  | nil => rfl
  | cons a l ih =>
      rw [List.mapM_cons, h a List.mem_cons_self, ih fun b hb => h b (List.mem_cons_of_mem _ hb)]
      rfl

/-- A list of computations, each of which may be refused for a reason, is refused for the first of
these reasons. -/
theorem mapM_eq_elim {f : α → Except ε β} {refused : α → Option ε} {g : α → β} {l : List α}
    (h : ∀ a ∈ l, f a = (refused a).elim (.ok (g a)) .error) :
    l.mapM f = (l.findSome? refused).elim (.ok (l.map g)) .error := by
  induction l with
  | nil => rfl
  | cons a l ih =>
      rw [List.mapM_cons, h a List.mem_cons_self, ih fun b hb => h b (List.mem_cons_of_mem _ hb),
        List.findSome?_cons]
      cases refused a with
      | some e => rfl
      | none => cases l.findSome? refused <;> rfl

/-- A list of computations succeeds if each of them has the result in its place. -/
theorem mapM_eq_ok_iff {f : α → Except ε β} {l : List α} {bs : List β} :
    l.mapM f = .ok bs ↔ List.Forall₂ (fun a b => f a = .ok b) l bs := by
  constructor
  · intro h
    induction l generalizing bs with
    | nil =>
        cases h
        exact .nil
    | cons a l ih =>
        rw [List.mapM_cons] at h
        obtain ⟨b, hb, h⟩ := bind_eq_ok_iff.mp h
        obtain ⟨rest, hrest, h⟩ := bind_eq_ok_iff.mp h
        cases h
        exact .cons hb (ih hrest)
  · intro h
    induction h with
    | nil => rfl
    | cons hb _ ih =>
        rw [List.mapM_cons, hb, ih]
        rfl

/-- If a list of computations fails, one of them does, for this reason. -/
theorem exists_of_mapM_eq_error {f : α → Except ε β} {l : List α} {e : ε}
    (h : l.mapM f = .error e) : ∃ a ∈ l, f a = .error e := by
  induction l with
  | nil => cases h
  | cons a l ih =>
      rw [List.mapM_cons] at h
      cases hfirst : f a with
      | error e' =>
          rw [hfirst] at h
          cases h
          exact ⟨a, List.mem_cons_self, hfirst⟩
      | ok b =>
          cases hrest : l.mapM f with
          | error e' =>
              rw [hfirst, hrest] at h
              cases h
              obtain ⟨c, hc, hfails⟩ := ih hrest
              exact ⟨c, List.mem_cons_of_mem a hc, hfails⟩
          | ok bs =>
              rw [hfirst, hrest] at h
              cases h

/-- The results of a list of computations can be changed one by one or all at the end. -/
theorem mapM_map_ok {γ : Type} (f : α → Except ε β) (g : β → γ) (l : List α) :
    l.mapM (fun a => (f a).map g) = (l.mapM f).map (List.map g) := by
  induction l with
  | nil => rfl
  | cons a l ih =>
      rw [List.mapM_cons, List.mapM_cons, ih]
      cases f a with
      | error e => rfl
      | ok b => cases l.mapM f <;> rfl

/-- Each item of the second of two corresponding lists belongs to one of the first. -/
theorem exists_mem_of_forall₂ {r : α → β → Prop} {l : List α} {m : List β}
    (h : List.Forall₂ r l m) {b : β} (hb : b ∈ m) : ∃ a ∈ l, r a b := by
  induction h with
  | nil => cases hb
  | @cons a _ l _ hab _ ih =>
      rcases List.mem_cons.mp hb with rfl | hb
      · exact ⟨a, List.mem_cons_self, hab⟩
      · obtain ⟨c, hc, hcb⟩ := ih hb
        exact ⟨c, List.mem_cons_of_mem a hc, hcb⟩

namespace Yields

variable {x : Except ε α} {f : α → Except ε β} {p : α → Prop} {q : β → Prop}

theorem ok {a : α} (ha : p a) : Yields (.ok a : Except ε α) p := ⟨a, rfl, ha⟩

theorem of_eq {a : α} (hx : x = .ok a) : Yields x (· = a) := ⟨a, hx, rfl⟩

theorem bind (hx : Yields x p) (hf : ∀ a, p a → Yields (f a) q) : Yields (x >>= f) q := by
  obtain ⟨a, rfl, hp⟩ := hx
  exact hf a hp

theorem mono {r : α → Prop} (hx : Yields x p) (hpr : ∀ a, p a → r a) : Yields x r := by
  obtain ⟨a, ha, hp⟩ := hx
  exact ⟨a, ha, hpr a hp⟩

/-- What is yielded holds of the result that a computation is known to have. -/
theorem of_ok {a : α} (hx : Yields x p) (ha : x = .ok a) : p a := by
  obtain ⟨b, hb, hp⟩ := hx
  rw [ha] at hb
  cases hb
  exact hp

/-- For every item of a list there is a result that has the property. -/
theorem mapM {r : α → β → Prop} {l : List α} (h : ∀ a ∈ l, Yields (f a) (r a)) :
    Yields (l.mapM f) (List.Forall₂ r l) := by
  induction l with
  | nil => exact ok .nil
  | cons a l ih =>
      rw [List.mapM_cons]
      refine (h a List.mem_cons_self).bind fun b hb => ?_
      refine (ih fun c hc => h c (List.mem_cons_of_mem _ hc)).bind fun bs hbs => ?_
      exact ok (.cons hb hbs)

end Yields

/-! ## Two computations side by side -/

/-- Both computations succeed, and their results are related. -/
def BothYield (r : α → β → Prop) (x : Except ε α) (y : Except ε β) : Prop :=
  ∃ a b, x = .ok a ∧ y = .ok b ∧ r a b

namespace BothYield

variable {γ δ : Type} {r : α → β → Prop} {s : γ → δ → Prop} {x : Except ε α} {y : Except ε β}

theorem ok {a : α} {b : β} (h : r a b) : BothYield r (.ok a : Except ε α) (.ok b) :=
  ⟨a, b, rfl, rfl, h⟩

theorem bind {f : α → Except ε γ} {g : β → Except ε δ} (hxy : BothYield r x y)
    (hfg : ∀ a b, r a b → BothYield s (f a) (g b)) : BothYield s (x >>= f) (y >>= g) := by
  obtain ⟨a, b, rfl, rfl, hab⟩ := hxy
  exact hfg a b hab

theorem mono {q : α → β → Prop} (h : BothYield r x y) (hrq : ∀ a b, r a b → q a b) :
    BothYield q x y := by
  obtain ⟨a, b, ha, hb, hab⟩ := h
  exact ⟨a, b, ha, hb, hrq a b hab⟩

theorem exists_ok (h : BothYield r x y) : ∃ a, x = .ok a := by
  obtain ⟨a, -, ha, -⟩ := h
  exact ⟨a, ha⟩

/-- Two computations with the same result are the same. -/
theorem eq {x y : Except ε α} (h : BothYield Eq x y) : x = y := by
  obtain ⟨a, _, rfl, rfl, rfl⟩ := h
  rfl

/-- A choice that one condition makes for both. -/
theorem ite {p : Prop} [Decidable p] {x' : Except ε α} {y' : Except ε β}
    (htrue : p → BothYield r x y) (hfalse : ¬p → BothYield r x' y') :
    BothYield r (if p then x else x') (if p then y else y') := by
  by_cases hp : p
  · rw [if_pos hp, if_pos hp]
    exact htrue hp
  · rw [if_neg hp, if_neg hp]
    exact hfalse hp

theorem mapM {f : α → Except ε γ} {g : β → Except ε δ} {l : List α} {m : List β}
    (hlm : List.Forall₂ r l m) (hfg : ∀ a b, r a b → BothYield s (f a) (g b)) :
    BothYield (List.Forall₂ s) (l.mapM f) (m.mapM g) := by
  induction hlm with
  | nil => exact ok .nil
  | cons hab _ ih =>
      rw [List.mapM_cons, List.mapM_cons]
      refine (hfg _ _ hab).bind fun c d hcd => ?_
      refine ih.bind fun cs ds hcds => ?_
      exact ok (.cons hcd hcds)

theorem foldlM {f : γ → α → Except ε γ} {g : δ → β → Except ε δ} {l : List α} {m : List β}
    (hlm : List.Forall₂ r l m)
    (hfg : ∀ c d a b, s c d → r a b → BothYield s (f c a) (g d b)) {c : γ} {d : δ} (hcd : s c d) :
    BothYield s (l.foldlM f c) (m.foldlM g d) := by
  induction hlm generalizing c d with
  | nil => exact ok hcd
  | cons hab _ ih =>
      rw [List.foldlM_cons, List.foldlM_cons]
      exact (hfg _ _ _ _ hcd hab).bind fun c' d' hcd' => ih hcd'

end BothYield
end ClosingBrace
