import ClosingBrace.Proofs.Brace.Meaning
import ClosingBrace.Proofs.Lint.Coverage

/-!
# Which configurations are accepted

What a configuration means is said here without regard to how it is checked: it lists sets of
options, and each of them means a policy, kinds and a severity. Two checks stand between a value and
its rules, one of the form of the whole and one of every set of options when its rule is made.
Together they accept exactly the values that mean something, and make of them what they mean.

Records drop a member with a certain key, so values in which an object has this key are left out.

## Main statements

* `Config.lists_iff_check`: the check of the form finds the sets of options that are listed.
* `Config.rejected_of_error`: what a rejection names.
* `Config.rules_made_iff_means`: both checks together.
-/

namespace ClosingBrace

/-- No object in the value has the key. -/
def Json.Avoids (key : String) : Json → Prop
  | .array items => ∀ item ∈ items, item.Avoids key
  | .object members => ∀ member ∈ members, member.1 ≠ key ∧ member.2.Avoids key
  | _ => True
decreasing_by
  · have hsize := List.sizeOf_lt_of_mem ‹item ∈ items›
    simp only [array.sizeOf_spec]
    omega
  · have hsize := List.sizeOf_lt_of_mem ‹member ∈ members›
    obtain ⟨name, value⟩ := member
    simp only [object.sizeOf_spec, Prod.mk.sizeOf_spec] at hsize ⊢
    omega

theorem Json.mem_of_lookup {key : String} {value : Json} {members : List (String × Json)}
    (h : Json.lookup key members = some value) : (key, value) ∈ members := by
  induction members with
  | nil => cases h
  | cons member rest ih =>
      rw [lookup] at h
      split at h
      · next hkey =>
          cases h
          rw [← hkey]
          exact List.mem_cons_self
      · exact List.mem_cons_of_mem _ (ih h)

/-- The members of an object in the value avoid the key as well. -/
theorem Json.Avoids.of_lookup {key name : String} {members entries : List (String × Json)}
    (h : (Json.object members).Avoids key)
    (hlookup : Json.lookup name members = some (.object entries)) :
    ∀ entry ∈ entries, entry.1 ≠ key ∧ entry.2.Avoids key := by
  rw [Json.Avoids] at h
  have hentries := (h _ (Json.mem_of_lookup hlookup)).2
  rwa [Json.Avoids] at hentries

/-! ## The meaning of a configuration -/

namespace Config

/-- The sets of options in the entry of a rule: none if the rule is off, a single one, or several. -/
inductive SetsOf : Json → List (List (String × Json)) → Prop
  | off : SetsOf (.bool false) []
  | single (set : List (String × Json)) : SetsOf (.object set) [set]
  | several (sets : List (List (String × Json))) : SetsOf (.array (sets.map .object)) sets

/-- The sets of options that a configuration lists. It has rules and nothing else, and no other rule
than the one that exists; an entry for this rule may be there or not. -/
inductive Lists : Json → List (List (String × Json)) → Prop
  | rules {members entries : List (String × Json)} {groups : List (List (List (String × Json)))}
      (hkeys : ∀ member ∈ members, member.1 = "rules")
      (hrules : Json.lookup "rules" members = some (.object entries))
      (hids : ∀ entry ∈ entries, entry.1 = "right-curly")
      (hsets : List.Forall₂ (fun entry sets => SetsOf entry.2 sets) entries groups) :
      Lists (.object members) groups.flatten

/-- **What a configuration means**: options for each of the sets that it lists, in their order. -/
def Means (data : Json) (options : List BraceOptions) : Prop :=
  ∃ sets, Lists data sets ∧ List.Forall₂ BraceOptions.Means sets options

variable {data : Json} {config : Config} {members : List (String × Json)}
  {sets : List (List (String × Json))}

/-! ### Entries -/

theorem keptMembers_of_avoids (h : (Json.object members).Avoids droppedKey) :
    keptMembers members = members := by
  rw [Json.Avoids] at h
  apply List.filter_eq_self.mpr
  intro member hmember
  simpa using (h member hmember).1

theorem optionSets?_map (h : ∀ set ∈ sets, (Json.object set).Avoids droppedKey) :
    optionSets? (sets.map .object) = some (sets.map .object) := by
  induction sets with
  | nil => rfl
  | cons set rest ih =>
      rw [List.map_cons, optionSets?, keptMembers_of_avoids (h set List.mem_cons_self),
        ih fun other hother => h other (List.mem_cons_of_mem _ hother)]
      rfl

theorem exists_sets_of_optionSets? {items found : List Json} (h : optionSets? items = some found) :
    ∃ sets : List (List (String × Json)), items = sets.map .object := by
  induction items generalizing found with
  | nil => exact ⟨[], rfl⟩
  | cons item rest ih =>
      cases item with
      | object members =>
          obtain ⟨others, hothers, -⟩ := Option.map_eq_some_iff.mp h
          obtain ⟨sets, rfl⟩ := ih hothers
          exact ⟨members :: sets, rfl⟩
      | null | bool | number | string | array => cases h

/-- An entry that is made of sets of options has one of the forms, and these are found there. -/
theorem entry?_of_setsOf (havoids : data.Avoids droppedKey) (h : SetsOf data sets) :
    ∃ entry, entry? data = some entry ∧ optionSetsOf entry = sets.map .object := by
  cases h with
  | off => exact ⟨.off, rfl, rfl⟩
  | single set =>
      refine ⟨.single (.object set), ?_, rfl⟩
      rw [ entry?, keptMembers_of_avoids havoids]
  | several =>
      refine ⟨.several (sets.map .object), ?_, rfl⟩
      rw [Json.Avoids, List.forall_mem_map] at havoids
      rw [ entry?, optionSets?_map havoids]
      rfl

theorem exists_setsOf_of_entry {entry : RuleEntry} (havoids : data.Avoids droppedKey)
    (h : entry? data = some entry) :
    ∃ sets, SetsOf data sets ∧ optionSetsOf entry = sets.map .object := by
  have hsets : ∃ sets, SetsOf data sets := by
    unfold entry? at h
    split at h
    · exact ⟨[], .off⟩
    · exact ⟨_, .single _⟩
    · obtain ⟨found, hfound, -⟩ := Option.map_eq_some_iff.mp h
      obtain ⟨sets, rfl⟩ := exists_sets_of_optionSets? hfound
      exact ⟨sets, .several sets⟩
    · cases h
  obtain ⟨sets, hsets⟩ := hsets
  obtain ⟨found, hfound, heq⟩ := entry?_of_setsOf havoids hsets
  rw [h] at hfound
  cases hfound
  exact ⟨sets, hsets, heq⟩

/-- Every entry has one of the forms, and this is what is found there. -/
def Found (entries : List (String × Json)) (rules : List (String × RuleEntry)) : Prop :=
  List.Forall₂ (fun entry rule => rule.1 = entry.1 ∧ entry? entry.2 = some rule.2) entries rules

variable {entries : List (String × Json)} {rules : List (String × RuleEntry)}
  {groups : List (List (List (String × Json)))}

theorem checkEntries_eq_ok_iff {path : List PathStep} (h : ∀ entry ∈ entries, entry.1 ≠ droppedKey) :
    checkEntries path entries = .ok rules ↔ Found entries rules := by
  unfold Found
  induction entries generalizing rules with
  | nil => simp [checkEntries, eq_comm]
  | cons entry rest ih =>
      obtain ⟨id, json⟩ := entry
      have hid : id ≠ droppedKey := h (id, json) List.mem_cons_self
      have hrest := fun rules => @ih rules fun other hother => h other (List.mem_cons_of_mem _ hother)
      rw [List.forall₂_cons_left_iff, checkEntries, map_eq_ok_iff]
      simp only [Prod.exists, Checked.both_eq_ok_iff, if_neg hid, hrest]
      cases entry? json with
      | none => simp [Checked.fault]
      | some found =>
          constructor
          · rintro ⟨_, others, ⟨⟨⟩, hothers⟩, rfl⟩
            exact ⟨id, found, others, ⟨rfl, rfl⟩, hothers, rfl⟩
          · rintro ⟨_, _, others, ⟨rfl, ⟨⟩⟩, hothers, rfl⟩
            exact ⟨found, others, ⟨rfl, hothers⟩, rfl⟩

/-! ### The whole configuration -/

theorem checkRules_eq_ok_iff {path : List PathStep} {json : Option Json} :
    checkRules path json = .ok rules ↔
      ∃ entries, json = some (.object entries) ∧ checkEntries path entries = .ok rules := by
  cases json with
  | none => simp [checkRules, Checked.fault]
  | some json => cases json <;> simp [checkRules, Checked.fault]

/-- A value has the form of a configuration if it has rules and nothing else, and their entries have
one of the forms. -/
theorem check_eq_ok_iff (havoids : data.Avoids droppedKey) :
    check (some data) = .ok ⟨rules⟩ ↔ ∃ members entries,
      data = .object members ∧ (∀ member ∈ members, member.1 = "rules") ∧
        Json.lookup "rules" members = some (.object entries) ∧ Found entries rules := by
  cases data with
  | object members =>
      have hfound : ∀ entries, Json.lookup "rules" members = some (.object entries) →
          (checkEntries [.key "rules"] entries = .ok rules ↔ Found entries rules) :=
        fun entries hlookup =>
          checkEntries_eq_ok_iff fun entry hentry => (havoids.of_lookup hlookup entry hentry).1
      have hkeys : BraceOptions.strayKeys ["rules"] members = [] ↔
          ∀ member ∈ members, member.1 = "rules" := by
        simp [BraceOptions.strayKeys_eq_nil_iff]
      rw [check, Checked.also_eq_ok_iff, map_eq_ok_iff, hkeys]
      simp only [mk.injEq, exists_eq_right, checkRules_eq_ok_iff]
      constructor
      · rintro ⟨⟨entries, hlookup, hentries⟩, hkeys⟩
        exact ⟨members, entries, rfl, hkeys, hlookup, (hfound entries hlookup).mp hentries⟩
      · rintro ⟨_, entries, ⟨⟩, hkeys, hlookup, hentries⟩
        exact ⟨⟨entries, hlookup, (hfound entries hlookup).mpr hentries⟩, hkeys⟩
  | null | bool | number | string | array => simp [check, Checked.fault]

theorem exists_found_of_setsOf (havoids : ∀ entry ∈ entries, entry.2.Avoids droppedKey)
    (h : List.Forall₂ (fun entry sets => SetsOf entry.2 sets) entries groups) :
    ∃ rules, Found entries rules ∧
      (Config.mk rules).optionSets = groups.flatten.map .object := by
  induction h with
  | nil => exact ⟨[], .nil, rfl⟩
  | @cons entry sets _ _ hsets _ ih =>
      obtain ⟨rules, hrules, hlisted⟩ :=
        ih fun other hother => havoids other (List.mem_cons_of_mem _ hother)
      obtain ⟨found, hfound, hsame⟩ := entry?_of_setsOf (havoids entry List.mem_cons_self) hsets
      refine ⟨(entry.1, found) :: rules, .cons ⟨rfl, hfound⟩ hrules, ?_⟩
      rw [List.flatten_cons, List.map_append, ← hlisted, ← hsame]
      rfl

theorem exists_setsOf_of_found (havoids : ∀ entry ∈ entries, entry.2.Avoids droppedKey)
    (h : Found entries rules) :
    ∃ groups, List.Forall₂ (fun entry sets => SetsOf entry.2 sets) entries groups ∧
      (Config.mk rules).optionSets = groups.flatten.map .object := by
  induction h with
  | nil => exact ⟨[], .nil, rfl⟩
  | @cons entry rule _ _ hrule _ ih =>
      obtain ⟨groups, hgroups, hlisted⟩ :=
        ih fun other hother => havoids other (List.mem_cons_of_mem _ hother)
      obtain ⟨sets, hsets, hsame⟩ := exists_setsOf_of_entry (havoids entry List.mem_cons_self) hrule.2
      refine ⟨sets :: groups, .cons hsets hgroups, ?_⟩
      rw [List.flatten_cons, List.map_append, ← hlisted, ← hsame]
      rfl

theorem Found.ids_iff (h : Found entries rules) :
    (∀ rule ∈ rules, rule.1 = BraceOptions.ruleId) ↔
      ∀ entry ∈ entries, entry.1 = BraceOptions.ruleId := by
  constructor
  · intro hids entry hentry
    obtain ⟨rule, hrule, hsame, -⟩ := exists_mem_of_forall₂ h.flip hentry
    rw [← hsame, hids rule hrule]
  · intro hids rule hrule
    obtain ⟨entry, hentry, hsame, -⟩ := exists_mem_of_forall₂ h hrule
    rw [hsame, hids entry hentry]

/-- **The form of a configuration** that names no other rule is accepted exactly if it lists sets of
options, and these are found. -/
theorem lists_iff_check (havoids : data.Avoids droppedKey) {jsons : List Json} :
    (∃ sets, Lists data sets ∧ jsons = sets.map .object) ↔
      ∃ config, check (some data) = .ok config ∧
        (∀ rule ∈ config.rules, rule.1 = BraceOptions.ruleId) ∧ jsons = config.optionSets := by
  constructor
  · rintro ⟨sets, hlists, rfl⟩
    cases hlists with
    | @rules members entries groups hkeys hlookup hids hsets =>
        obtain ⟨rules, hfound, hsame⟩ := exists_found_of_setsOf
          (fun entry hentry => (havoids.of_lookup hlookup entry hentry).2) hsets
        exact ⟨⟨rules⟩, (check_eq_ok_iff havoids).mpr ⟨members, entries, rfl, hkeys, hlookup, hfound⟩,
          hfound.ids_iff.mpr hids, hsame.symm⟩
  · rintro ⟨⟨rules⟩, hcheck, hids, rfl⟩
    obtain ⟨members, entries, rfl, hkeys, hlookup, hfound⟩ := (check_eq_ok_iff havoids).mp hcheck
    obtain ⟨groups, hgroups, hsame⟩ := exists_setsOf_of_found
      (fun entry hentry => (havoids.of_lookup hlookup entry hentry).2) hfound
    exact ⟨groups.flatten, .rules hkeys hlookup (hfound.ids_iff.mp hids) hgroups, hsame⟩

theorem parse_eq_ok_iff {source : String} :
    parse (some data) source = .ok config ↔ check (some data) = .ok config := by
  rw [parse]
  cases check (some data) <;> simp

/-! ### Rejections -/

theorem rejected_of_instances {id : String} {entry : RuleEntry} {e : ConfigError}
    (h : instances id entry = .error e) : e.rejected = id := by
  by_cases hid : id = BraceOptions.ruleId
  · subst hid
    rw [instances_ruleId] at h
    cases hresolved : resolveAll (optionSetsOf entry) with
    | ok options =>
        rw [hresolved] at h
        cases h
    | error e' =>
        rw [hresolved] at h
        cases h
        obtain ⟨json, -, hjson⟩ := exists_of_mapM_eq_error hresolved
        rw [BraceOptions.resolve] at hjson
        split at hjson
        · cases hjson
        · cases hjson
          rfl
  · have hunknown : instances id entry = .error ⟨id, .unknownRule knownRules⟩ := by
      simp [instances, makers, Ne.symm hid]
    rw [hunknown] at h
    cases h
    rfl

/-- Rules that cannot be made are rejected under the name of one of them. -/
theorem rejected_of_createRules {e : ConfigError} (h : config.createRules = .error e) :
    ∃ rule ∈ config.rules, e.rejected = rule.1 := by
  have hcreate : config.createRules =
      (do return (← config.rules.mapM fun rule => instances rule.1 rule.2).flatten) := rfl
  rw [hcreate] at h
  cases hmade : config.rules.mapM fun rule => instances rule.1 rule.2 with
  | ok groups =>
      rw [hmade] at h
      cases h
  | error e' =>
      rw [hmade] at h
      cases h
      exact (exists_of_mapM_eq_error hmade).imp fun rule hrule =>
        ⟨hrule.1, rejected_of_instances hrule.2⟩

/-- **A rejection names what is rejected**: the source of the configuration, or one of the rules in
it. -/
theorem rejected_of_error (havoids : data.Avoids droppedKey) {source : String} {e : ConfigError}
    (h : parse (some data) source >>= createRules = .error e) :
    e.rejected = source ∨ ∃ entries, data.get? "rules" = some (.object entries) ∧
      ∃ entry ∈ entries, e.rejected = entry.1 := by
  cases hparse : parse (some data) source with
  | error e' =>
      rw [hparse] at h
      cases h
      rw [parse] at hparse
      split at hparse
      · cases hparse
      · cases hparse
        exact .inl rfl
  | ok config =>
      rw [hparse] at h
      obtain ⟨rules⟩ := config
      obtain ⟨members, entries, rfl, -, hlookup, hfound⟩ :=
        (check_eq_ok_iff havoids).mp (parse_eq_ok_iff.mp hparse)
      obtain ⟨rule, hrule, hname⟩ := rejected_of_createRules h
      obtain ⟨entry, hentry, hsame, -⟩ := exists_mem_of_forall₂ hfound hrule
      exact .inr ⟨entries, hlookup, entry, hentry, hname.trans hsame⟩

/-- **A configuration is accepted exactly if it means something, all at once.** In a value in which no
object has the key that records drop, both checks together succeed exactly if the value means
options, and the rules are the instances that these make, in their order. Of any other value no
rules are made, even if some of its sets of options mean something: it is rejected under the name of
its source or of one of the rules in it. -/
theorem rules_made_iff_means (havoids : data.Avoids droppedKey) (source : String) :
    (∀ rules, parse (some data) source >>= createRules = .ok rules ↔
      ∃ options, Means data options ∧ rules = options.map BraceOptions.rule) ∧
    ((¬ ∃ options, Means data options) →
      ∃ e : ConfigError, parse (some data) source >>= createRules = .error e ∧
        (e.rejected = source ∨ ∃ entries, data.get? "rules" = some (.object entries) ∧
          ∃ entry ∈ entries, e.rejected = entry.1)) := by
  have hmeans : ∀ sets options, List.Forall₂ BraceOptions.Means sets options ↔
      List.Forall₂ (fun json options => BraceOptions.resolve (some json) = .ok options)
        (sets.map .object) options := by
    intro sets options
    rw [List.forall₂_map_left_iff]
    simp only [BraceOptions.resolve_eq_ok_iff_means]
  have hmade : ∀ rules, parse (some data) source >>= createRules = .ok rules ↔
      ∃ options, Means data options ∧ rules = options.map BraceOptions.rule := by
    intro rules
    simp only [bind_eq_ok_iff, parse_eq_ok_iff, createRules_eq_ok_iff]
    constructor
    · rintro ⟨config, hcheck, hids, options, hoptions, rfl⟩
      obtain ⟨sets, hlists, hsame⟩ := (lists_iff_check havoids).mpr ⟨config, hcheck, hids, rfl⟩
      rw [hsame] at hoptions
      exact ⟨options, ⟨sets, hlists, (hmeans sets options).mpr hoptions⟩, rfl⟩
    · rintro ⟨options, ⟨sets, hlists, hoptions⟩, rfl⟩
      obtain ⟨config, hcheck, hids, hsame⟩ := (lists_iff_check havoids).mp ⟨sets, hlists, rfl⟩
      rw [hmeans, hsame] at hoptions
      exact ⟨config, hcheck, hids, options, hoptions, rfl⟩
  refine ⟨hmade, fun hnone => ?_⟩
  cases hresult : parse (some data) source >>= createRules with
  | error e => exact ⟨e, rfl, rejected_of_error havoids hresult⟩
  | ok rules =>
      obtain ⟨options, hoptions, -⟩ := (hmade rules).mp hresult
      exact absurd ⟨options, hoptions⟩ hnone

/-- Two sets of options, the second of them once with a severity that exists and once with another. -/
theorem rules_made_iff_means_of_two_sets :
    let first : List (String × Json) := [("option", .string " alone")]
    let second (severity : String) : List (String × Json) :=
      [("tokens", .string "LITERAL_IF, ,CLASS_DEF,LITERAL_IF"), ("severity", .string severity)]
    let data (severity : String) : Json := .object [("rules", .object [("right-curly",
      .array [.object first, .object (second severity)])])]
    let options : List BraceOptions :=
      [⟨.alone, Kind.defaultConstructs, .error⟩, ⟨.same, [.ifStatement, .classDef], .warning⟩]
    (∀ severity, (data severity).Avoids droppedKey) ∧ Means (data "warning") options ∧
      parse (some (data "warning")) fileName >>= createRules =
        .ok (options.map BraceOptions.rule) ∧
      (¬ ∃ options, Means (data "fatal") options) ∧
      ∃ e : ConfigError, parse (some (data "fatal")) fileName >>= createRules = .error e ∧
        (e.rejected = fileName ∨ ∃ entries, (data "fatal").get? "rules" = some (.object entries) ∧
          ∃ entry ∈ entries, e.rejected = entry.1) := by
  intro first second data options
  have havoids : ∀ severity, (data severity).Avoids droppedKey := by
    intro severity
    simp [data, first, second, Json.Avoids, droppedKey]
  have hmeans : Means (data "warning") options := by
    have hsets : List.Forall₂ (fun entry sets => SetsOf entry.2 sets)
        [("right-curly", .array [.object first, .object (second "warning")])]
        [[first, second "warning"]] := .cons (.several [first, second "warning"]) .nil
    have hlists : Lists (data "warning") [[first, second "warning"]].flatten :=
      .rules (by simp) rfl (by simp) hsets
    refine ⟨_, hlists, .cons ?_ (.cons ?_ .nil)⟩
    · exact BraceOptions.checkMembers_eq_ok_iff_means.mp (by decide +kernel)
    · exact BraceOptions.checkMembers_eq_ok_iff_means.mp (by decide +kernel)
  obtain ⟨hmade, -⟩ := rules_made_iff_means (havoids "warning") fileName
  obtain ⟨hfatal, hrejected⟩ := rules_made_iff_means (havoids "fatal") fileName
  have hnone : ¬ ∃ options, Means (data "fatal") options := by
    rintro ⟨options, hoptions⟩
    have hmade := (hfatal _).mpr ⟨options, hoptions, rfl⟩
    have hfails : (parse (some (data "fatal")) fileName >>= createRules).isOk = false := by
      decide +kernel
    rw [hmade] at hfails
    cases hfails
  exact ⟨havoids, hmeans, (hmade _).mpr ⟨options, hmeans, rfl⟩, hnone, hrejected hnone⟩

end Config

end ClosingBrace
