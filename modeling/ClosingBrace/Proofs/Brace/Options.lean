import ClosingBrace.Brace.Options
import ClosingBrace.Proofs.Outcome

/-!
# What options are made of

Options are accepted when each of their parts is and no key is left that means nothing. The parts
are looked up by their keys, so neither their order nor a key given twice matters, and the kinds
count by the names they list and not by the form in which they are listed.

## Main statements

* `checkMembers_eq_ok_iff`: when options are accepted, and what they are then.
* `checkMembers_congr`: options with the same parts are the same.
* `listedNames?_parts`: a text of kinds lists the same names as the array of its parts.
-/

namespace ClosingBrace

theorem Checked.also_eq_ok_iff {α : Type} {x : Checked α} {further : List Issue} {a : α} :
    Checked.also x further = .ok a ↔ x = .ok a ∧ further = [] := by
  cases x <;> cases further <;> simp [Checked.also]

namespace BraceOptions

variable {members members' : List (String × Json)} {options : BraceOptions}

/-- **When options are accepted**: each part is, and there is no other key. -/
theorem checkMembers_eq_ok_iff :
    checkMembers members = .ok options ↔ ∃ policy kinds severity,
      checkPolicy [.key "option"] (Json.lookup "option" members) = .ok policy ∧
      checkKinds [.key "tokens"] (Json.lookup "tokens" members) = .ok kinds ∧
      checkSeverity [.key "severity"] (Json.lookup "severity" members) = .ok severity ∧
      strayKeys knownKeys members = [] ∧ options = withDefaults policy kinds severity := by
  unfold checkMembers
  simp only [Checked.also_eq_ok_iff, map_eq_ok_iff, Prod.exists, Checked.both_eq_ok_iff]
  constructor
  · rintro ⟨⟨policy, kinds, severity, ⟨hpolicy, hkinds, hseverity⟩, rfl⟩, hstray⟩
    exact ⟨policy, kinds, severity, hpolicy, hkinds, hseverity, hstray, rfl⟩
  · rintro ⟨policy, kinds, severity, hpolicy, hkinds, hseverity, hstray, rfl⟩
    exact ⟨⟨policy, kinds, severity, ⟨hpolicy, hkinds, hseverity⟩, rfl⟩, hstray⟩

/-- **Options with the same parts** are accepted or refused alike. -/
theorem checkMembers_congr
    (hoption : Json.lookup "option" members = Json.lookup "option" members')
    (hkinds : checkKinds [.key "tokens"] (Json.lookup "tokens" members) =
      checkKinds [.key "tokens"] (Json.lookup "tokens" members'))
    (hseverity : Json.lookup "severity" members = Json.lookup "severity" members')
    (hstray : strayKeys knownKeys members = strayKeys knownKeys members') :
    checkMembers members = checkMembers members' := by
  unfold checkMembers
  rw [hoption, hkinds, hseverity, hstray]

theorem resolve_congr (h : checkMembers members = checkMembers members') :
    resolve (some (.object members)) = resolve (some (.object members')) := by
  simp only [resolve, check, h]

/-! ## Kinds -/

theorem strings?_map (names : List String) : strings? (names.map .string) = some names := by
  induction names with
  | nil => rfl
  | cons name names ih =>
      show (strings? (names.map .string)).map (name :: ·) = some (name :: names)
      rw [ih]
      rfl

/-- A text of kinds lists the same names as the array of its parts. -/
theorem listedNames?_parts (s : String) :
    listedNames? (.array ((Text.parts ',' s).map .string)) = listedNames? (.string s) :=
  strings?_map _

theorem checkKinds_of_listedNames? {json json' : Json} (path : List PathStep)
    (h : listedNames? json = listedNames? json') :
    checkKinds path (some json) = checkKinds path (some json') := by
  simp only [checkKinds, h]

end BraceOptions
end ClosingBrace
