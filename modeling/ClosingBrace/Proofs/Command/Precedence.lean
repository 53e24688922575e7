import ClosingBrace.Proofs.Command.Composition
import ClosingBrace.Proofs.Tool.Agreement

/-!
# Where the configuration of a run comes from

Options on the command line stand above every file, a configuration file that is named stands above
that of the working directory, and this one above the standard configuration. `ChosenFrom` says so
for the values that are given, and what a file then gives: the configuration that it holds, or an
error under its path.

The rule holds as it stands unless the path that is named is empty. Naming an empty path is the same
as naming none, so another file or the standard configuration takes its place and nothing is said
about it.

## Main statements

* `ChosenFrom.unique`: the values given and the files settle the configuration.
* `configuration_chosen`: where the configuration of accepted arguments comes from.
* `configuration_not_chosen_of_empty_path`: the rule fails for an empty path.
-/

namespace ClosingBrace.Command

variable {s : Surroundings} {arguments : List String} {a : Arguments}

/-! ## Files -/

/-- What becomes of the configuration in the file at a path: it is the one that the file holds, or it
is refused under that path. -/
inductive GivenByFile (s : Surroundings) (path : String) : Except ConfigError Config → Prop
  | held {text : String} {json : Json} {config : Config} (hread : s.text path = .ok text)
      (hjson : Json.parse? text = some json) (hconfig : Config.check (some json) = .ok config) :
      GivenByFile s path (.ok config)
  | refused {text : String} {json : Json} {found : List Issue} (hread : s.text path = .ok text)
      (hjson : Json.parse? text = some json) (hfound : Config.check (some json) = .error found) :
      GivenByFile s path (.error ⟨path, .issues found⟩)
  | malformed {text : String} (hread : s.text path = .ok text)
      (hjson : Json.parse? text = none) :
      GivenByFile s path (.error ⟨path, .unreadable (s.complaint text)⟩)
  | unreadable {e : ReadError} (hread : s.text path = .error e) :
      GivenByFile s path (.error ⟨path, .unreadable e.message⟩)

theorem givenByFile_configFromFile (s : Surroundings) (path : String) :
    GivenByFile s path (configFromFile s path) := by
  unfold configFromFile
  split
  · next text hread =>
      unfold Config.parseText
      split
      · next json hjson =>
          unfold Config.parse
          split
          · next config hconfig => exact .held hread hjson hconfig
          · next found hfound => exact .refused hread hjson hfound
      · next hjson => exact .malformed hread hjson
  · next e hread => exact .unreadable hread

variable {path : String} {result result' : Except ConfigError Config}

theorem GivenByFile.unique (h : GivenByFile s path result)
    (h' : GivenByFile s path result') : result = result' := by
  cases h <;> cases h' <;> simp_all

/-- Whatever is refused in a file is refused under its path. -/
theorem GivenByFile.rejected {e : ConfigError} (h : GivenByFile s path (.error e)) :
    e.rejected = path := by
  cases h <;> rfl

/-! ## Precedence -/

/-- **Where a configuration comes from** when the values `option` and `kinds` of the flags for the
rule are given and a path is named. -/
inductive ChosenFrom (s : Surroundings) (option kinds path : Option String) :
    Except ConfigError Config → Prop
  | flags (hany : option.isSome ∨ kinds.isSome) :
      ChosenFrom s option kinds path
        (.ok ⟨[("right-curly", .single (.object (givenOptions option kinds)))]⟩)
  | named {file : String} {result : Except ConfigError Config} (hoption : option = none)
      (hkinds : kinds = none) (hpath : path = some file) (hgiven : GivenByFile s file result) :
      ChosenFrom s option kinds path result
  | directory {result : Except ConfigError Config} (hoption : option = none)
      (hkinds : kinds = none) (hpath : path = none)
      (hhas : s.has (Path.resolve s.workingDirectory "brace-lint.config.json") = true)
      (hgiven : GivenByFile s (Path.resolve s.workingDirectory "brace-lint.config.json") result) :
      ChosenFrom s option kinds path result
  | standard (hoption : option = none) (hkinds : kinds = none) (hpath : path = none)
      (hhas : s.has (Path.resolve s.workingDirectory "brace-lint.config.json") = false) :
      ChosenFrom s option kinds path (.ok .standard)

variable {option kinds : Option String}

theorem ChosenFrom.unique {named : Option String} (h : ChosenFrom s option kinds named result)
    (h' : ChosenFrom s option kinds named result') : result = result' := by
  cases h with
  | flags hany =>
      cases h' with
      | flags => rfl
      | named hoption hkinds | directory hoption hkinds | standard hoption hkinds =>
          simp [hoption, hkinds] at hany
  | named hoption hkinds hpath hgiven =>
      cases h' with
      | flags hany => simp [hoption, hkinds] at hany
      | named _ _ hpath' hgiven' =>
          cases hpath.symm.trans hpath'
          exact hgiven.unique hgiven'
      | directory _ _ hpath' | standard _ _ hpath' => cases hpath.symm.trans hpath'
  | directory hoption hkinds hpath hhas hgiven =>
      cases h' with
      | flags hany => simp [hoption, hkinds] at hany
      | named _ _ hpath' => cases hpath.symm.trans hpath'
      | directory _ _ _ _ hgiven' => exact hgiven.unique hgiven'
      | standard _ _ _ hhas' => cases hhas.symm.trans hhas'
  | standard hoption hkinds hpath hhas =>
      cases h' with
      | flags hany => simp [hoption, hkinds] at hany
      | named _ _ hpath' => cases hpath.symm.trans hpath'
      | directory _ _ _ hhas' => cases hhas.symm.trans hhas'
      | standard => rfl

/-- An empty path counts as no path. -/
def countedPath (path : Option String) : Option String := path.filter (!·.isEmpty)

theorem chosenFrom_configFromDirectory (s : Surroundings) :
    ChosenFrom s none none none (configFromDirectory s) := by
  simp only [configFromDirectory]
  split
  · next hhas => exact .directory rfl rfl rfl hhas (givenByFile_configFromFile ..)
  · next hhas => exact .standard rfl rfl rfl (Bool.eq_false_iff.mpr hhas)

/-- What arguments ask for has its configuration from where it should, if an empty path is no path. -/
theorem chosenFrom_configuration (a : Arguments) (s : Surroundings) :
    ChosenFrom s a.option a.tokens (countedPath a.config) (a.configuration s) := by
  unfold Arguments.configuration
  split
  · next hany => exact .flags (by simpa using hany)
  · next hnone =>
      obtain ⟨hoption, hkinds⟩ : a.option = none ∧ a.tokens = none := by simpa using hnone
      rw [hoption, hkinds]
      cases a.config with
      | none => exact chosenFrom_configFromDirectory s
      | some path =>
          by_cases hempty : path.isEmpty
          · simp only [countedPath, Option.filter_some, hempty]
            exact chosenFrom_configFromDirectory s
          · simp only [countedPath, Option.filter_some, hempty]
            exact .named rfl rfl rfl (givenByFile_configFromFile ..)

/-- **Where the configuration of accepted arguments comes from.** The last value of each flag counts,
and an empty path counts as none. -/
theorem configuration_chosen (hread : read arguments = .ok a) :
    ∃ items, Splits arguments items ∧ ∀ s result,
      ChosenFrom s (last? (Item.given? .option) items) (last? (Item.given? .tokens) items)
        (countedPath (last? (Item.given? .config) items)) result ↔ a.configuration s = result := by
  obtain ⟨items, hitems⟩ := exists_splits hread
  have hmakes := (understood arguments).makes items a hitems hread
  refine ⟨items, hitems, fun s result => ?_⟩
  have hchosen := chosenFrom_configuration a s
  rw [hmakes.option, hmakes.tokens, hmakes.config, Option.or_none, Option.or_none,
    Option.or_none] at hchosen
  constructor
  · exact hchosen.unique
  · rintro rfl
    exact hchosen

/-- A path that is named twice: the second one counts, and its file is refused although there is a
configuration in the first and in the working directory. -/
theorem configuration_chosen_of_malformed :
    let arguments := ["-c", "a.json", "A.ast.json", "--config", "b.json", "--no-color"]
    let a : Arguments := { targets := ["A.ast.json"], config := some "b.json", color := false }
    let file (text : String) : Entry := .file (.ok text.toUTF8.data.toList)
    let s := Surroundings.ofDirectory "/w" (.directory [("a.json", file "\x7b\"rules\":\x7b\x7d\x7d"),
      ("b.json", file "\x7b"), ("brace-lint.config.json", file "\x7b\"rules\":\x7b\x7d\x7d")])
      (fun _ => .ok []) (.ofPipe []) fun text => "not JSON: " ++ text
    read arguments = .ok a ∧
      a.configuration s = .error ⟨"b.json", .unreadable "not JSON: \x7b"⟩ ∧
      ∃ items, Splits arguments items ∧ ∀ s result,
        ChosenFrom s (last? (Item.given? .option) items) (last? (Item.given? .tokens) items)
          (countedPath (last? (Item.given? .config) items)) result ↔ a.configuration s = result := by
  intro arguments a file s
  have hread : s.text "b.json" = .ok "\x7b" := by decide +kernel
  have hjson : Json.parse? "\x7b" = none := by
    rw [← Option.isNone_iff_eq_none]
    decide +kernel
  have hchosen : ChosenFrom s none none (some "b.json") (a.configuration s) :=
    chosenFrom_configuration a s
  have hrefused := hchosen.unique (.named rfl rfl rfl (.malformed hread hjson))
  exact ⟨rfl, hrefused, configuration_chosen rfl⟩

/-- **An empty path is passed over in silence.** It should be refused, because it leads to no file. But
the configuration of the working directory takes its place, and without one the standard
configuration. -/
theorem configuration_not_chosen_of_empty_path :
    let arguments := ["-c", "", "A.ast.json"]
    let items : List Item := [.value "-c" .config "", .target "A.ast.json"]
    let a : Arguments := { targets := ["A.ast.json"], config := some "" }
    let around (entries : List (String × Entry)) :=
      Surroundings.ofDirectory "/w" (.directory entries) (fun _ => .ok []) (.ofPipe []) id
    let bare := around []
    let s := around [("brace-lint.config.json",
      .file (.ok "\x7b\"rules\":\x7b\x7d\x7d".toUTF8.data.toList))]
    let refused : Except ConfigError Config :=
      .error ⟨"", .unreadable "ENOENT: no such file or directory, open ''"⟩
    read arguments = .ok a ∧ a.help = false ∧ Splits arguments items ∧
      last? (Item.given? .option) items = none ∧ last? (Item.given? .tokens) items = none ∧
      last? (Item.given? .config) items = some "" ∧
      ChosenFrom bare none none (some "") refused ∧ ChosenFrom s none none (some "") refused ∧
      a.configuration bare = .ok .standard ∧ a.configuration s = .ok ⟨[]⟩ ∧
      ¬ ChosenFrom bare none none (some "") (a.configuration bare) ∧
      ¬ ChosenFrom s none none (some "") (a.configuration s) := by
  intro arguments items a around bare s refused
  have hsplits : Splits arguments items :=
    .cons (.value "-c" .config "") ⟨by decide, by decide, nofun⟩
      (.cons (.target "A.ast.json") (rfl : isPlain "A.ast.json" = true) .nil)
  have hrefused : ∀ t : Surroundings, t.text "" = .error (.opening .noEntry "") →
      ChosenFrom t none none (some "") refused :=
    fun t hread => .named rfl rfl rfl (.unreadable hread)
  have hbare : ChosenFrom bare none none (some "") refused := hrefused bare rfl
  have hs : ChosenFrom s none none (some "") refused := hrefused s rfl
  have hempty : ∀ t, ChosenFrom t none none none (a.configuration t) := chosenFrom_configuration a
  have hhas : bare.has (Path.resolve bare.workingDirectory "brace-lint.config.json") = false := by
    decide +kernel
  have hstandard : a.configuration bare = .ok .standard :=
    (hempty bare).unique (.standard rfl rfl rfl hhas)
  have hrules : (a.configuration s).toOption.map (·.rules.isEmpty) = some true := by
    decide +kernel
  have hheld : a.configuration s = .ok ⟨[]⟩ := by
    generalize a.configuration s = result at hrules
    obtain e | ⟨_ | _⟩ := result
    · cases hrules
    · rfl
    · cases hrules
  refine ⟨rfl, rfl, hsplits, rfl, rfl, rfl, hbare, hs, hstandard, hheld, fun h => ?_, fun h => ?_⟩
  · exact absurd (hstandard.symm.trans (h.unique hbare)) nofun
  · exact absurd (hheld.symm.trans (h.unique hs)) nofun

end ClosingBrace.Command
