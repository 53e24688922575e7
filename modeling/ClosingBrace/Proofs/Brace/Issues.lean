import ClosingBrace.Proofs.Brace.Meaning

/-!
# Issues of options

The issues of a set of options are those of its members, and options are accepted exactly when there
is none. What is said about the kinds is one line for every name that is not that of a construct, or
that no name is left.

## Main statements

* `issues_checkMembers`: the issues of a set of options are those of its members.
* `namesRefused_checkMembers`: what is said about the kinds.
* `decides_resolve`: options are accepted, or refused with all that is wrong with them.
-/

namespace ClosingBrace

theorem Checked.issues_also {α : Type} (x : Checked α) (further : List Issue) :
    (Checked.also x further).issues = x.issues ++ further := by
  cases x <;> cases further <;> simp [Checked.also, Checked.issues]

theorem Checked.Telling.also {α : Type} {x : Checked α} (hx : x.Telling) (further : List Issue) :
    (Checked.also x further).Telling := by
  cases x <;> cases further <;> simp_all [Checked.Telling, Checked.also]

namespace BraceOptions

variable {members : List (String × Json)} {path : List PathStep}

/-- **The issues of a set of options** are those of its members, in order, and the keys that mean
nothing. -/
theorem issues_checkMembers (members : List (String × Json)) :
    (checkMembers members).issues =
      (checkPolicy [.key "option"] (Json.lookup "option" members)).issues ++
        ((checkKinds [.key "tokens"] (Json.lookup "tokens" members)).issues ++
          (checkSeverity [.key "severity"] (Json.lookup "severity" members)).issues) ++
        strayKeys knownKeys members := by
  rw [checkMembers, Checked.issues_also, Checked.issues_map, Checked.issues_both,
    Checked.issues_both]

theorem path_of_mem_checkPolicy {json : Option Json} {issue : Issue}
    (h : issue ∈ (checkPolicy path json).issues) : issue.path = path := by
  unfold checkPolicy at h
  split at h
  · cases h
  · split at h
    · cases h
    · rw [List.mem_singleton.mp h]
  · rw [List.mem_singleton.mp h]

theorem path_of_mem_checkSeverity {json : Option Json} {issue : Issue}
    (h : issue ∈ (checkSeverity path json).issues) : issue.path = path := by
  unfold checkSeverity at h
  split at h
  · cases h
  · split at h
    · cases h
    · rw [List.mem_singleton.mp h]
  · rw [List.mem_singleton.mp h]

theorem path_of_mem_strayKeys {known : List String} {issue : Issue}
    (h : issue ∈ strayKeys known members) : issue.path = [] := by
  unfold strayKeys at h
  split at h
  · cases h
  · rw [List.mem_singleton.mp h]

theorem construct?_eq_none_iff {name : String} :
    construct? name = none ↔ name ∉ constructNames := by
  rw [Option.eq_none_iff_forall_ne_some, constructNames, List.mem_map]
  simp only [ne_eq, construct?_eq_some_iff]
  constructor
  · rintro hnone ⟨kind, hkind, rfl⟩
    exact hnone kind ⟨rfl, hkind⟩
  · rintro hnone kind ⟨rfl, hkind⟩
    exact hnone ⟨kind, hkind, rfl⟩

theorem text_of_kinds (fault : Fault) :
    Issue.text ⟨[.key "tokens"], fault⟩ = "tokens: " ++ fault.text := by
  show "tokens" ++ ": " ++ fault.text = "tokens: " ++ fault.text
  rw [show "tokens" ++ ": " = "tokens: " by decide]

theorem text_of_unacceptable (name : String) (acceptable : List String) :
    Issue.text ⟨[.key "tokens"], .unacceptableToken name acceptable⟩ =
      "tokens: token \"" ++ name ++ "\" is not acceptable, expected any of " ++
        ", ".intercalate acceptable := by
  have htext : (Fault.unacceptableToken name acceptable).text = "token \"" ++ name ++
      "\" is not acceptable, expected any of " ++ ", ".intercalate acceptable := rfl
  have hstart : "tokens: token \"" = "tokens: " ++ "token \"" := by decide
  rw [text_of_kinds, htext, hstart]
  simp only [String.append_assoc]

/-- What is said about the names of kinds: that there is none, or each name that is not that of a
construct, as often as it stands there. -/
inductive NamesRefused (names : List String) : List String → Prop
  | none (h : names = []) : NamesRefused names ["tokens: at least one token kind is required"]
  | each (h : names ≠ []) :
      NamesRefused names ((names.filter fun name => decide (name ∉ constructNames)).map fun name =>
        "tokens: token \"" ++ name ++ "\" is not acceptable, expected any of " ++
          ", ".intercalate constructNames)

theorem namesRefused_checkNames (names : List String) :
    NamesRefused names ((checkNames [.key "tokens"] names).issues.map Issue.text) := by
  unfold checkNames
  split
  · next hnone => exact .none (List.isEmpty_iff.mp hnone)
  · next hany =>
      have hfilter : names.filter (fun name => (construct? name).isNone) =
          names.filter fun name => decide (name ∉ constructNames) := by
        apply List.filter_congr
        intro name _
        rw [Bool.eq_iff_iff, Option.isNone_iff_eq_none, construct?_eq_none_iff, decide_eq_true_iff]
      have heach := NamesRefused.each fun hnone => hany (List.isEmpty_iff.mpr hnone)
      rw [hfilter]
      split
      · next hgood => rwa [hgood] at heach
      · rw [Checked.issues, List.map_map]
        simpa only [Function.comp_def, text_of_unacceptable] using heach

/-- The issues about the kinds among others, as they are told. -/
def textsOnKinds (found : List Issue) : List String :=
  (found.filter fun issue => decide (issue.path = [.key "tokens"])).map Issue.text

theorem textsOnKinds_append (found later : List Issue) :
    textsOnKinds (found ++ later) = textsOnKinds found ++ textsOnKinds later := by
  simp [textsOnKinds]

theorem textsOnKinds_elsewhere {found : List Issue} (h : ∀ issue ∈ found, issue.path = path)
    (hpath : path ≠ [.key "tokens"]) : textsOnKinds found = [] := by
  rw [textsOnKinds, List.map_eq_nil_iff, List.filter_eq_nil_iff]
  intro issue hissue
  simpa [h issue hissue] using hpath

theorem textsOnKinds_checkNames (names : List String) :
    textsOnKinds (checkNames [.key "tokens"] names).issues =
      (checkNames [.key "tokens"] names).issues.map Issue.text := by
  rw [textsOnKinds, List.filter_eq_self.mpr]
  intro issue hissue
  unfold checkNames at hissue
  split at hissue
  · simp [List.mem_singleton.mp hissue]
  · split at hissue
    · cases hissue
    · obtain ⟨name, -, rfl⟩ := List.mem_map.mp hissue
      simp

/-- **What a set of options says about its kinds** is what the names in it are refused for. -/
theorem namesRefused_checkMembers {json : Json} {listed : List String}
    (hjson : Json.lookup "tokens" members = some json) (hlisted : listedNames? json = some listed) :
    NamesRefused (tokenNames listed) (textsOnKinds (checkMembers members).issues) := by
  have hkinds : checkKinds [.key "tokens"] (Json.lookup "tokens" members) =
      (checkNames [.key "tokens"] (tokenNames listed)).map some := by
    rw [hjson, checkKinds, hlisted]
  rw [issues_checkMembers, hkinds, Checked.issues_map]
  simp only [textsOnKinds_append]
  rw [textsOnKinds_elsewhere (fun _ => path_of_mem_checkPolicy) (by decide),
    textsOnKinds_elsewhere (fun _ => path_of_mem_checkSeverity) (by decide),
    textsOnKinds_elsewhere (fun _ => path_of_mem_strayKeys) (by decide),
    textsOnKinds_checkNames, List.nil_append, List.append_nil, List.append_nil]
  exact namesRefused_checkNames (tokenNames listed)

/-! ## Refused options -/

theorem telling_checkPolicy (path : List PathStep) (json : Option Json) :
    (checkPolicy path json).Telling := by
  unfold checkPolicy
  split
  · nofun
  · split
    · nofun
    · exact Checked.telling_fault _ _
  · exact Checked.telling_fault _ _

theorem telling_checkNames (path : List PathStep) (names : List String) :
    (checkNames path names).Telling := by
  unfold checkNames
  split
  · exact Checked.telling_fault _ _
  · split
    · nofun
    · next hany => simpa [Checked.Telling] using hany

theorem telling_checkKinds (path : List PathStep) (json : Option Json) :
    (checkKinds path json).Telling := by
  unfold checkKinds
  split
  · nofun
  · split
    · exact (telling_checkNames _ _).map some
    · exact Checked.telling_fault _ _

theorem telling_checkSeverity (path : List PathStep) (json : Option Json) :
    (checkSeverity path json).Telling := by
  unfold checkSeverity
  split
  · nofun
  · split
    · nofun
    · exact Checked.telling_fault _ _
  · exact Checked.telling_fault _ _

theorem telling_checkMembers (members : List (String × Json)) : (checkMembers members).Telling :=
  (((telling_checkPolicy _ _).both ((telling_checkKinds _ _).both (telling_checkSeverity _ _))).map
    _).also _

/-- The options are accepted without an issue, or refused with the message that lists the issues. -/
def Decides (found : List Issue) (given : Except ConfigError BraceOptions) : Prop :=
  (found = [] ∧ ∃ options, given = .ok options) ∨
    found ≠ [] ∧ ∃ e : ConfigError, given = .error e ∧
      e.message = "right-curly: " ++ "; ".intercalate (found.map Issue.text)

theorem decides_resolve (members : List (String × Json)) :
    Decides (checkMembers members).issues (resolve (some (.object members))) := by
  have htelling := telling_checkMembers members
  rw [resolve, check]
  cases hcheck : checkMembers members with
  | ok options => exact .inl ⟨rfl, options, rfl⟩
  | error found =>
      have hmessage : ConfigError.message ⟨ruleId, .issues found⟩ =
          ruleId ++ ": " ++ "; ".intercalate (found.map Issue.text) := rfl
      have hstart : ruleId ++ ": " = "right-curly: " := by decide
      rw [hstart] at hmessage
      exact .inr ⟨htelling found hcheck, _, rfl, hmessage⟩

end BraceOptions
end ClosingBrace
