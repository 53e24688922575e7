import ClosingBrace.Proofs.Brace.Issues
import ClosingBrace.Proofs.Text.Spelling
import Mathlib.Data.List.Induction

/-!
# Options in other words

Accepted options can be written out and are then accepted again, as the same. They may be written in
many ways: with blanks around names, with the policy in any letter case, with kinds named again
behind their first place, and with names left empty. Kinds may be listed as an array or as one text;
a text of kinds does the same as the array of its parts, whether it is accepted or refused.

## Main statements

* `firstSeen_eraseDups`: what dropping repeats leaves.
* `settled_of_resolve`: accepted options are settled.
* `Respells.means`: options in other words mean the same.
* `resolve_respelled`: accepted options, their other spellings, and kinds as a text.
-/

namespace ClosingBrace

/-! ## First occurrences -/

/-- `firsts` are the items of `all`, each once, in the order in which they first occur. -/
structure FirstSeen {α : Type} [BEq α] (all firsts : List α) : Prop where
  mem_iff : ∀ a, a ∈ firsts ↔ a ∈ all
  order : firsts.Pairwise fun a b => all.idxOf a < all.idxOf b

theorem FirstSeen.nodup {α : Type} [BEq α] {all firsts : List α} (h : FirstSeen all firsts) :
    firsts.Nodup := by
  apply h.order.imp
  rintro a _ hlt rfl
  exact Nat.lt_irrefl _ hlt

section Repeats
variable {α β : Type} [BEq α] [LawfulBEq α] [BEq β] [LawfulBEq β]

theorem eraseDups_of_mem {l : List α} {a : α} (h : a ∈ l) : (l ++ [a]).eraseDups = l.eraseDups := by
  simp [List.eraseDups_append, List.removeAll, h]

theorem eraseDups_of_notMem {l : List α} {a : α} (h : a ∉ l) :
    (l ++ [a]).eraseDups = l.eraseDups ++ [a] := by
  simp [List.eraseDups_append, List.eraseDups_cons, List.removeAll, h]

/-- **Dropping repeats** leaves each item where it first occurs. -/
theorem firstSeen_eraseDups (l : List α) : FirstSeen l l.eraseDups := by
  refine ⟨fun a => List.mem_eraseDups, ?_⟩
  induction l using List.reverseRecOn with
  | nil => exact List.Pairwise.nil
  | append_singleton l a ih =>
      -- What was seen keeps its place, whatever stands behind it.
      have hkept : l.eraseDups.Pairwise fun b c => (l ++ [a]).idxOf b < (l ++ [a]).idxOf c := by
        refine ih.imp_of_mem fun hb hc hlt => ?_
        rwa [List.idxOf_append_of_mem (List.mem_eraseDups.mp hb),
          List.idxOf_append_of_mem (List.mem_eraseDups.mp hc)]
      by_cases ha : a ∈ l
      · rwa [eraseDups_of_mem ha]
      · rw [eraseDups_of_notMem ha]
        refine List.pairwise_append.mpr ⟨hkept, List.pairwise_singleton _ _, ?_⟩
        intro b hb c hc
        have hbl := List.mem_eraseDups.mp hb
        obtain rfl := List.mem_singleton.mp hc
        rw [List.idxOf_append_of_mem hbl, List.idxOf_append_of_notMem ha]
        exact Nat.lt_add_right _ (List.idxOf_lt_length_iff.mpr hbl)

theorem eraseDups_map {f : α → β} (hf : Function.Injective f) (l : List α) :
    (l.map f).eraseDups = l.eraseDups.map f := by
  induction l using List.reverseRecOn with
  | nil => rfl
  | append_singleton l a ih =>
      rw [List.map_append, List.map_singleton]
      by_cases ha : a ∈ l
      · rw [eraseDups_of_mem (List.mem_map_of_mem ha), eraseDups_of_mem ha, ih]
      · have hfa : f a ∉ l.map f := by simpa [hf.eq_iff] using ha
        rw [eraseDups_of_notMem hfa, eraseDups_of_notMem ha, ih, List.map_append,
          List.map_singleton]

theorem eraseDups_of_nodup {l : List α} (h : l.Nodup) : l.eraseDups = l := by
  induction l using List.reverseRecOn with
  | nil => rfl
  | append_singleton l a ih =>
      obtain ⟨hl, -, hne⟩ := List.nodup_append.mp h
      rw [eraseDups_of_notMem fun ha => hne a ha a (List.mem_singleton_self a) rfl, ih hl]

/-- What repeats items in front of it can be dropped. -/
theorem eraseDups_append_of_subset {l repeated : List α} (h : ∀ a ∈ repeated, a ∈ l)
    (later : List α) : (l ++ repeated ++ later).eraseDups = (l ++ later).eraseDups := by
  have hrepeated : repeated.removeAll l = [] := by
    simpa [List.removeAll] using h
  have hlater : later.removeAll (l ++ repeated) = later.removeAll l := by
    apply List.filter_congr
    intro a _
    by_cases ha : a ∈ repeated
    · simp [ha, h a ha]
    · simp [ha]
  rw [List.eraseDups_append, List.eraseDups_append, hrepeated, hlater, List.eraseDups_append]
  simp

end Repeats

namespace BraceOptions

variable {options : BraceOptions} {members : List (String × Json)} {words : List String}
  {kinds : List Kind}

/-! ## Names of kinds -/

theorem solid_name (kind : Kind) : Text.Solid kind.name := by
  have hall : (Kind.all.all fun kind => kind.name.toList.all fun c => !Text.isBlank c) = true := by
    decide +kernel
  exact Text.solid_iff_all.mpr (List.all_eq_true.mp hall kind (Kind.mem_all kind))

theorem name_ne_empty (kind : Kind) : kind.name ≠ "" := by
  cases kind <;> decide

theorem comma_notMem_name (kind : Kind) : ',' ∉ kind.name.toList := by
  have hall : (Kind.all.all fun kind => !kind.name.toList.contains ',') = true := by
    decide +kernel
  simpa using List.all_eq_true.mp hall kind (Kind.mem_all kind)

theorem tokenNames_append (words later : List String) :
    tokenNames (words ++ later) = tokenNames words ++ tokenNames later := by
  simp [tokenNames]

theorem tokenNames_cons (word : String) (later : List String) :
    tokenNames (word :: later) = tokenNames [word] ++ tokenNames later :=
  tokenNames_append [word] later

/-- Names that are the same without the blanks around them are read alike. -/
theorem tokenNames_congr {words' : List String}
    (h : words.map Text.trim = words'.map Text.trim) : tokenNames words = tokenNames words' := by
  rw [tokenNames, h, tokenNames]

/-- The names of kinds are read as they are. -/
theorem tokenNames_map_name (kinds : List Kind) :
    tokenNames (kinds.map Kind.name) = kinds.map Kind.name := by
  have htrim : (kinds.map Kind.name).map Text.trim = kinds.map Kind.name := by
    rw [List.map_map]
    exact List.map_congr_left fun kind _ => (solid_name kind).trim_eq
  rw [tokenNames, htrim, List.filter_eq_self]
  intro name hname
  obtain ⟨kind, -, rfl⟩ := List.mem_map.mp hname
  simpa using name_ne_empty kind

theorem tokenNames_empty : tokenNames [""] = [] := by
  decide

/-! ## Other spellings -/

/-- Ways to name the policy: its name in any letter case, with blanks around it. -/
def RespellsPolicy (policy : Policy) (text : String) : Prop :=
  ∃ left word right, Text.Blank left ∧ Text.Blank right ∧
    word.toList.map Char.toUpper = policy.name.toList ∧ text = left ++ word ++ right

/-- Ways to list kinds. From their names in order one comes to any of them by steps: blanks are put
around a name, a name is repeated somewhere behind one of its places, or an empty name is added. -/
inductive RespellsKinds (kinds : List Kind) : List String → Prop
  | plain : RespellsKinds kinds (kinds.map Kind.name)
  | pad {before after : List String} {left word right : String} (hleft : Text.Blank left)
      (hright : Text.Blank right) (h : RespellsKinds kinds (before ++ word :: after)) :
      RespellsKinds kinds (before ++ (left ++ word ++ right) :: after)
  | again {before between after : List String} {word : String}
      (h : RespellsKinds kinds (before ++ word :: (between ++ after))) :
      RespellsKinds kinds (before ++ word :: (between ++ word :: after))
  | empty {before after : List String} (h : RespellsKinds kinds (before ++ after)) :
      RespellsKinds kinds (before ++ "" :: after)

/-- The value lists the words, as an array or as a text with commas between them. -/
def ListsWords (words : List String) (json : Json) : Prop :=
  json = .array (words.map .string) ∨ json = .string (",".intercalate words)

/-- **The members say in other words** what the options are. -/
structure Respells (options : BraceOptions) (members : List (String × Json)) : Prop where
  keys : ∀ member ∈ members, member.1 = "option" ∨ member.1 = "tokens" ∨ member.1 = "severity"
  policy : ∃ text, Json.lookup "option" members = some (.string text) ∧
    RespellsPolicy options.policy text
  kinds : ∃ json words, Json.lookup "tokens" members = some json ∧ ListsWords words json ∧
    RespellsKinds options.kinds words
  severity : Json.lookup "severity" members = some (.string options.severity.label)

theorem RespellsPolicy.policyMeant {policy : Policy} {text : String}
    (h : RespellsPolicy policy text) : PolicyMeant (some (.string text)) policy := by
  obtain ⟨left, word, right, hleft, hright, hword, rfl⟩ := h
  have hcapitals : (policy.name.toList.all fun d => Text.capital d == d) = true := by
    cases policy <;> decide
  have hcapital : ∀ d ∈ policy.name.toList, Text.capital d = d := by
    simpa using hcapitals
  have hsolid : Text.Solid policy.name := by
    apply Text.solid_iff_all.mpr
    cases policy <;> decide
  refine .named ?_
  rw [Text.trim_pad hleft hright, (hsolid.of_toUpper hword).trim_eq,
    Text.capitals_of_toUpper hcapital hword]

namespace RespellsKinds

/-- In every spelling the names that are left are those of the kinds, in the order of their first
places. -/
theorem eraseDups_tokenNames (h : RespellsKinds kinds words) (hnodup : kinds.Nodup) :
    (tokenNames words).eraseDups = kinds.map Kind.name := by
  induction h with
  | plain =>
      rw [tokenNames_map_name]
      refine eraseDups_of_nodup (List.Pairwise.map Kind.name (fun a b hne hname => ?_) hnodup)
      exact hne (Kind.name_injective hname)
  | @pad before after left word right hleft hright _ ih =>
      rw [← ih]
      congr 1
      apply tokenNames_congr
      simp only [List.map_append, List.map_cons, Text.trim_pad hleft hright]
  | @again before between after word _ ih =>
      have hsplit (later : List String) : tokenNames (before ++ word :: (between ++ later)) =
          tokenNames (before ++ word :: between) ++ tokenNames later := by
        rw [← tokenNames_append, List.append_assoc, List.cons_append]
      rw [hsplit] at ih ⊢
      rw [← ih, tokenNames_cons word after, ← List.append_assoc]
      apply eraseDups_append_of_subset
      intro name hname
      rw [tokenNames_append, tokenNames_cons]
      simp [hname]
  | @empty before after _ ih =>
      rw [← ih, tokenNames_append, tokenNames_cons, tokenNames_empty, List.nil_append,
        tokenNames_append]

/-- No name has a comma in it. -/
theorem comma_notMem (h : RespellsKinds kinds words) : ∀ word ∈ words, ',' ∉ word.toList := by
  have hblank {s : String} (hs : Text.Blank s) : ',' ∉ s.toList :=
    fun hcomma => absurd (hs ',' hcomma) (by decide)
  induction h with
  | plain =>
      intro word hword
      obtain ⟨kind, -, rfl⟩ := List.mem_map.mp hword
      exact comma_notMem_name kind
  | pad hleft hright _ ih =>
      rw [List.forall_mem_append, List.forall_mem_cons] at ih ⊢
      refine ⟨ih.1, ?_, ih.2.2⟩
      simp only [String.toList_append, List.mem_append, not_or]
      exact ⟨⟨hblank hleft, ih.2.1⟩, hblank hright⟩
  | again _ ih =>
      simp only [List.forall_mem_append, List.forall_mem_cons] at ih ⊢
      exact ⟨ih.1, ih.2.1, ih.2.2.1, ih.2.1, ih.2.2.2⟩
  | empty _ ih =>
      simp only [List.forall_mem_append, List.forall_mem_cons] at ih ⊢
      exact ⟨ih.1, by simp, ih.2⟩

theorem ne_nil (h : RespellsKinds kinds words) (hany : kinds ≠ []) : words ≠ [] := by
  cases h with
  | plain => simpa using hany
  | pad | again | empty => simp

theorem kindsMeant (h : RespellsKinds kinds words) (hany : kinds ≠ []) (hnodup : kinds.Nodup)
    (hconstructs : ∀ kind ∈ kinds, kind ∈ Kind.constructs) {json : Json}
    (hjson : ListsWords words json) : KindsMeant (some json) kinds := by
  have hwords : Words json words := by
    obtain rfl | rfl := hjson
    · exact .array words
    · have hparts : Text.parts ',' (",".intercalate words) = words :=
        Text.parts_join rfl (h.ne_nil hany) h.comma_notMem
      have htext := Words.text (",".intercalate words)
      rwa [hparts] at htext
  have herased := h.eraseDups_tokenNames hnodup
  have hnamed : ∀ name ∈ tokenNames words, (construct? name).isSome := by
    intro name hname
    rw [← List.mem_eraseDups, herased] at hname
    obtain ⟨kind, hkind, rfl⟩ := List.mem_map.mp hname
    exact Option.isSome_of_eq_some (construct?_eq_some_iff.mpr ⟨rfl, hconstructs kind hkind⟩)
  have hnames := map_name_filterMap_construct? hnamed
  generalize (tokenNames words).filterMap construct? = named at hnames
  have hsame : named.eraseDups = kinds := by
    apply List.map_injective_iff.mpr fun _ _ => Kind.name_injective
    rw [← eraseDups_map fun _ _ => Kind.name_injective, hnames, herased]
  subst hsame
  refine .listed hwords hnames.symm ?_ fun kind hkind => ?_
  · rintro rfl
    exact hany rfl
  · exact hconstructs kind (List.mem_eraseDups.mpr hkind)

end RespellsKinds

/-! ## What accepted options are like -/

/-- The kinds that are named by a value for the kinds, in order and with repeats. -/
inductive NamedBy : Option Json → List Kind → Prop
  | omitted : NamedBy none Kind.defaultConstructs
  | listed {json : Json} {words : List String} {named : List Kind} (hwords : Words json words)
      (hnames : (words.map Text.trim).filter (fun word => !word.isEmpty) = named.map Kind.name) :
      NamedBy (some json) named

/-- The value for the kinds in what is given as options. -/
def givenKinds? : Option Json → Option Json
  | some (.object members) => Json.lookup "tokens" members
  | _ => none

/-- Options as a check leaves them: there are kinds, all of them constructs, and each stands once,
where it was first named. -/
structure Settled (input : Option Json) (options : BraceOptions) : Prop where
  any : options.kinds ≠ []
  nodup : options.kinds.Nodup
  constructs : ∀ kind ∈ options.kinds, kind ∈ Kind.constructs
  firstSeen : ∃ named, NamedBy (givenKinds? input) named ∧ FirstSeen named options.kinds
  severity : options.severity = .error ∨ options.severity = .warning

theorem KindsMeant.settled {json : Option Json} (h : KindsMeant json kinds) :
    kinds ≠ [] ∧ (∀ kind ∈ kinds, kind ∈ Kind.constructs) ∧
      ∃ named, NamedBy json named ∧ FirstSeen named kinds := by
  cases h with
  | omitted =>
      have hdefault : Kind.defaultConstructs.eraseDups = Kind.defaultConstructs := by decide
      have hfirst := firstSeen_eraseDups Kind.defaultConstructs
      rw [hdefault] at hfirst
      exact ⟨by decide, by decide, _, .omitted, hfirst⟩
  | @listed json words named hwords hnames hany hconstructs =>
      have hfirst := firstSeen_eraseDups named
      refine ⟨fun hnone => ?_, fun kind hkind => ?_, named, .listed hwords hnames, hfirst⟩
      · obtain ⟨kind, hkind⟩ := List.exists_mem_of_ne_nil named hany
        have hmem := (hfirst.mem_iff kind).mpr hkind
        rw [hnone] at hmem
        cases hmem
      · exact hconstructs kind ((hfirst.mem_iff kind).mp hkind)

/-- What is accepted are members that mean the options, or nothing at all. -/
theorem resolve_eq_ok_iff {input : Option Json} :
    resolve input = .ok options ↔ ∃ members, Means members options ∧
      (input = some (.object members) ∨ members = [] ∧ (input = none ∨ input = some .null)) := by
  rw [resolve]
  constructor
  · intro h
    split at h
    · next accepted hcheck =>
        cases h
        unfold check at hcheck
        split at hcheck
        · exact ⟨[], checkMembers_eq_ok_iff_means.mp hcheck, .inr ⟨rfl, .inl rfl⟩⟩
        · exact ⟨[], checkMembers_eq_ok_iff_means.mp hcheck, .inr ⟨rfl, .inr rfl⟩⟩
        · exact ⟨_, checkMembers_eq_ok_iff_means.mp hcheck, .inl rfl⟩
        · cases hcheck
    · cases h
  · rintro ⟨members, hmeans, rfl | ⟨rfl, rfl | rfl⟩⟩
    all_goals simp [check, checkMembers_eq_ok_iff_means.mpr hmeans]

/-- Accepted options are settled. -/
theorem settled_of_resolve {input : Option Json} (h : resolve input = .ok options) :
    Settled input options := by
  obtain ⟨members, hmeans, hinput⟩ := resolve_eq_ok_iff.mp h
  have hgiven : givenKinds? input = Json.lookup "tokens" members := by
    obtain rfl | ⟨rfl, rfl | rfl⟩ := hinput <;> rfl
  obtain ⟨hany, hconstructs, named, hnamed, hfirst⟩ := hmeans.kinds.settled
  rw [← hgiven] at hnamed
  exact ⟨hany, hfirst.nodup, hconstructs, ⟨named, hnamed, hfirst⟩,
    hmeans.severity.error_or_warning⟩

/-- **Options in other words mean the same.** -/
theorem Respells.means {input : Option Json} (h : Respells options members)
    (hsettled : Settled input options) : Means members options := by
  obtain ⟨text, htext, hpolicy⟩ := h.policy
  obtain ⟨json, words, hjson, hlists, hkinds⟩ := h.kinds
  refine ⟨h.keys, ?_, ?_, ?_⟩
  · rw [htext]
    exact hpolicy.policyMeant
  · rw [hjson]
    exact hkinds.kindsMeant hsettled.any hsettled.nodup hsettled.constructs hlists
  · rw [h.severity]
    obtain hseverity | hseverity := hsettled.severity
    · rw [hseverity]
      exact .error
    · rw [hseverity]
      exact .warning

/-! ## Kinds as a text -/

theorem strayKeys_put (known : List String) (key : String) (value value' : Json)
    (members : List (String × Json)) :
    strayKeys known (Json.put key value members) = strayKeys known (Json.put key value' members) := by
  have hkeys : (Json.put key value members).map Prod.fst =
      (Json.put key value' members).map Prod.fst := by
    induction members with
    | nil => rfl
    | cons member rest ih =>
        rw [Json.put, Json.put]
        split
        · rfl
        · rw [List.map_cons, List.map_cons, ih]
  rw [strayKeys, hkeys, strayKeys]

/-- A text of kinds makes the same as the array of its parts. -/
theorem checkMembers_put_parts (s : String) (members : List (String × Json)) :
    checkMembers (Json.put "tokens" (.string s) members) =
      checkMembers (Json.put "tokens" (.array ((Text.parts ',' s).map .string)) members) := by
  apply checkMembers_congr
  · rw [Json.lookup_put_of_ne (by decide), Json.lookup_put_of_ne (by decide)]
  · rw [Json.lookup_put_self, Json.lookup_put_self]
    exact checkKinds_of_listedNames? _ (listedNames?_parts s).symm
  · rw [Json.lookup_put_of_ne (by decide), Json.lookup_put_of_ne (by decide)]
  · exact strayKeys_put _ _ _ _ _

/-! ## Resolving again -/

/-- Members that give the options in full, with the kinds listed in some way. -/
theorem Respells.plain (options : BraceOptions) {json : Json}
    (h : ListsWords (options.kinds.map Kind.name) json) :
    Respells options [("option", .string options.policy.name), ("tokens", json),
      ("severity", .string options.severity.label)] where
  keys := by simp
  policy := by
    refine ⟨options.policy.name, rfl, "", options.policy.name, "", by simp [Text.Blank],
      by simp [Text.Blank], ?_, by simp⟩
    cases options.policy <;> decide
  kinds := ⟨json, _, rfl, h, .plain⟩
  severity := rfl

/-- **Resolving normalises.** Accepted options are settled. Written out they are accepted again as
the same, with their kinds listed as an array or as a text, and so they are in any other words. Kinds
given as a text do the same as the array of its parts, whatever else is given, and what is said about
them is what is wrong with the names in it. -/
theorem resolve_respelled :
    (∀ input options, resolve input = .ok options →
      Settled input options ∧
      resolve (some (.object [("option", .string options.policy.name),
        ("tokens", .array (options.kinds.map fun kind => .string kind.name)),
        ("severity", .string options.severity.label)])) = .ok options ∧
      resolve (some (.object [("option", .string options.policy.name),
        ("tokens", .string (",".intercalate (options.kinds.map Kind.name))),
        ("severity", .string options.severity.label)])) = .ok options ∧
      ∀ members, Respells options members → resolve (some (.object members)) = .ok options) ∧
    ∀ s members, let given := resolve (some (.object (Json.put "tokens" (.string s) members)))
      given = resolve (some (.object
        (Json.put "tokens" (.array ((Text.parts ',' s).map .string)) members))) ∧
      ∃ found, Decides found given ∧
        NamesRefused (((Text.parts ',' s).map Text.trim).filter fun name => !name.isEmpty)
          (textsOnKinds found) := by
  constructor
  · intro input options h
    have hsettled := settled_of_resolve h
    have hrespelled (members : List (String × Json)) (hmembers : Respells options members) :
        resolve (some (.object members)) = .ok options :=
      resolve_eq_ok_iff.mpr ⟨members, hmembers.means hsettled, .inl rfl⟩
    refine ⟨hsettled, hrespelled _ (.plain options ?_), hrespelled _ (.plain options (.inr rfl)),
      hrespelled⟩
    exact .inl (by rw [List.map_map]; rfl)
  · intro s members given
    refine ⟨?_, _, decides_resolve _, ?_⟩
    · exact resolve_congr (checkMembers_put_parts s members)
    · exact namesRefused_checkMembers (Json.lookup_put_self _ _ _) rfl

/-- The policy `alone` in other letters, two kinds with one of them named again and an empty name
between them, as one text. -/
theorem resolve_respelled_of_two_kinds :
    let options : BraceOptions := ⟨.alone, [.ifStatement, .classDef], .warning⟩
    let members : List (String × Json) := [("severity", .string "warning"),
      ("tokens", .string "LITERAL_IF,,CLASS_DEF, LITERAL_IF"), ("option", .string " aLone ")]
    resolve (some (.object [("option", .string "alone"),
      ("tokens", .array [.string "LITERAL_IF", .string "CLASS_DEF"]),
      ("severity", .string "warning")])) = .ok options ∧
      Respells options members ∧ resolve (some (.object members)) = .ok options := by
  have hplain : resolve (some (.object [("option", .string "alone"),
      ("tokens", .array [.string "LITERAL_IF", .string "CLASS_DEF"]),
      ("severity", .string "warning")])) =
      .ok ⟨.alone, [.ifStatement, .classDef], .warning⟩ := by
    decide +kernel
  have hblank : Text.Blank " " := Text.blank_iff_all.mpr (by decide)
  have hagain : RespellsKinds [.ifStatement, .classDef]
      ([] ++ "LITERAL_IF" :: (["CLASS_DEF"] ++ "LITERAL_IF" :: [])) :=
    .again .plain
  have hpad : RespellsKinds [.ifStatement, .classDef]
      (["LITERAL_IF", "CLASS_DEF"] ++ (" " ++ "LITERAL_IF" ++ "") :: []) :=
    .pad hblank (by simp [Text.Blank]) hagain
  have hkinds : RespellsKinds [.ifStatement, .classDef]
      (["LITERAL_IF"] ++ "" :: ["CLASS_DEF", " " ++ "LITERAL_IF" ++ ""]) :=
    .empty hpad
  have hrespells : Respells ⟨.alone, [.ifStatement, .classDef], .warning⟩
      [("severity", .string "warning"), ("tokens", .string "LITERAL_IF,,CLASS_DEF, LITERAL_IF"),
        ("option", .string " aLone ")] := by
    refine ⟨by simp, ⟨_, rfl, " ", "aLone", " ", hblank, hblank, by decide, by decide⟩,
      ⟨_, _, rfl, .inr ?_, hkinds⟩, rfl⟩
    exact congrArg Json.string (by decide)
  exact ⟨hplain, hrespells, (resolve_respelled.1 _ _ hplain).2.2.2 _ hrespells⟩

end BraceOptions
end ClosingBrace
