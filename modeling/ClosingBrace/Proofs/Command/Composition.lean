import ClosingBrace.Proofs.Command.Reading
import ClosingBrace.Proofs.Text.LetterCase

/-!
# Arguments as a language

Arguments are accepted if they can be taken apart into switches, flags with their values, and
targets, and then there is one way only to do so. What they ask for is what these items ask for. So
what follows arguments that are accepted is read as it would be read alone, refusals included, and
both together ask for what they ask for one after the other.

## Main statements

* `Item.Valid.read`: what reading an item does.
* `Splits.read`, `exists_splits`: arguments are accepted exactly if they can be taken apart.
* `Splits.unique`: there is one way only.
* `arguments_compose`: what two lists of arguments ask for together.
-/

namespace ClosingBrace.Command

variable {a b : Arguments} {arguments rest : List String}

/-! ## Formats -/

/-- The format of which a text is the word, in any letter case. -/
def Format.named? (given : String) : Option Format :=
  if given.toList.map Char.toLower = Format.json.word.toList then some .json
  else if given.toList.map Char.toLower = Format.text.word.toList then some .text
  else none

theorem isSimple_word (format : Format) : ∀ d ∈ format.word.toList, Text.IsSimple d := by
  -- Deciding the statement itself would try all characters there are.
  have hall : (format.word.toList.all fun d => decide (Text.IsSimple d)) = true := by
    cases format <;> decide +kernel
  simpa using hall

/-- The letters outside ASCII make no difference: none of them becomes a letter of these words. -/
theorem toOption_format? (given : String) : (format? given).toOption = Format.named? given := by
  have hword (format : Format) : Text.small given = format.word ↔
      given.toList.map Char.toLower = format.word.toList :=
    Text.small_eq_iff (isSimple_word format)
  unfold format? Format.named?
  simp only [hword]
  split
  · rfl
  · split <;> rfl

theorem format?_eq_ok_iff {given : String} {format : Format} :
    format? given = .ok format ↔ Format.named? given = some format := by
  rw [← toOption_format?]
  cases format? given <;> simp [Except.toOption]

/-- Whether a value can be taken does not depend on what has been asked for before. -/
theorem ValueFlag.apply_cases (f : ValueFlag) (given : String) :
    ((f = .format → (Format.named? given).isSome) ∧ ∀ a, ∃ b, f.apply a given = .ok b) ∨
      ∃ e, ∀ a, f.apply a given = .error e := by
  cases f with
  | format =>
      cases hread : format? given with
      | ok format =>
          refine .inl ⟨fun _ => by simp [format?_eq_ok_iff.mp hread], fun a => ?_⟩
          exact ⟨{ a with format }, by rw [ValueFlag.apply, hread]; rfl⟩
      | error e => exact .inr ⟨e, fun a => by rw [ValueFlag.apply, hread]; rfl⟩
  | option | tokens | config | includes | excludes =>
      exact .inl ⟨fun h => (by cases h), fun a => ⟨_, rfl⟩⟩

/-! ## Items -/

/-- What stands on the command line: a switch, a flag with its value, or a target. -/
inductive Item where
  | switch (flag : String) (s : Switch)
  | value (flag : String) (f : ValueFlag) (given : String)
  | target (name : String)

namespace Item

/-- The arguments that an item takes up. -/
def words : Item → List String
  | .switch flag _ => [flag]
  | .value flag _ given => [flag, given]
  | .target name => [name]

/-- The item is written as it should be. A value or a target starts with a dash only if it is a lone
one. -/
def Valid : Item → Prop
  | .switch flag s => (flag, s) ∈ switches
  | .value flag f given => (flag, f) ∈ valueFlags ∧ isPlain given = true ∧
      (f = .format → (Format.named? given).isSome)
  | .target name => isPlain name = true

def target? : Item → Option String
  | .target name => some name
  | _ => none

/-- The value that an item gives to a flag. -/
def given? (f : ValueFlag) : Item → Option String
  | .value _ g given => if g = f then some given else none
  | _ => none

/-- The format that an item asks for. -/
def format? (item : Item) : Option Format := (item.given? .format).bind Format.named?

/-- Whether an item asks for ignore files to be respected. -/
def gitignore? : Item → Option Bool
  | .switch _ .gitignore => some true
  | .switch _ .noGitignore => some false
  | _ => none

def isSwitch (s : Switch) : Item → Bool
  | .switch _ s' => s' == s
  | _ => false

end Item

/-- What the last item says about something. -/
def last? {β : Type} (view : Item → Option β) (items : List Item) : Option β :=
  (items.filterMap view).getLast?

/-- What `items` make of `a`. Targets and patterns add up, help and plain output cannot be taken
back, and of everything else the last item counts. -/
structure Makes (a : Arguments) (items : List Item) (b : Arguments) : Prop where
  help : b.help = (a.help || items.any (·.isSwitch .help))
  targets : b.targets = a.targets ++ items.filterMap Item.target?
  format : b.format = (last? Item.format? items).getD a.format
  option : b.option = (last? (Item.given? .option) items).or a.option
  tokens : b.tokens = (last? (Item.given? .tokens) items).or a.tokens
  config : b.config = (last? (Item.given? .config) items).or a.config
  includes : b.includes =
    a.includes ++ (items.filterMap (Item.given? .includes)).flatMap patternList
  excludes : b.excludes =
    a.excludes ++ (items.filterMap (Item.given? .excludes)).flatMap patternList
  useGitignore : b.useGitignore = (last? Item.gitignore? items).getD a.useGitignore
  color : b.color = (a.color && !items.any (·.isSwitch .noColor))

section Last
variable {β : Type} {view : Item → Option β} {items later : List Item}

@[simp] theorem last?_nil : last? view [] = none := rfl

theorem last?_append : last? view (items ++ later) = (last? view later).or (last? view items) := by
  rw [last?, List.filterMap_append, List.getLast?_append]
  rfl

@[simp] theorem last?_singleton (item : Item) : last? view [item] = view item := by
  unfold last?
  cases hview : view item <;> simp [hview]

theorem isSome_last? : (last? view items).isSome = items.any (view · |>.isSome) := by
  unfold last?
  rw [Bool.eq_iff_iff]
  simp [List.findSome?_isSome_iff]

end Last

theorem Makes.nil (a : Arguments) : Makes a [] a := by
  constructor <;> simp

/-- What items make of arguments one after the other. -/
theorem Makes.trans {c : Arguments} {items later : List Item} (hab : Makes a items b)
    (hbc : Makes b later c) : Makes a (items ++ later) c where
  help := by rw [hbc.help, hab.help, List.any_append, Bool.or_assoc]
  targets := by rw [hbc.targets, hab.targets, List.filterMap_append, List.append_assoc]
  format := by rw [hbc.format, hab.format, last?_append, Option.getD_or]
  option := by rw [hbc.option, hab.option, last?_append, Option.or_assoc]
  tokens := by rw [hbc.tokens, hab.tokens, last?_append, Option.or_assoc]
  config := by rw [hbc.config, hab.config, last?_append, Option.or_assoc]
  includes := by
    rw [hbc.includes, hab.includes, List.filterMap_append, List.flatMap_append, List.append_assoc]
  excludes := by
    rw [hbc.excludes, hab.excludes, List.filterMap_append, List.flatMap_append, List.append_assoc]
  useGitignore := by rw [hbc.useGitignore, hab.useGitignore, last?_append, Option.getD_or]
  color := by rw [hbc.color, hab.color, List.any_append, Bool.not_or, Bool.and_assoc]

/-! ## Reading an item -/

/-- What the role of an argument says about it. -/
def Role.Fits (argument : String) : Role → Prop
  | .switch s => (argument, s) ∈ switches
  | .value f => (argument, f) ∈ valueFlags
  | .target => isPlain argument = true
  | .unknown => isPlain argument = false

/-- A flag that is found is listed. -/
theorem mem_of_lookup {β : Type} {flags : List (String × β)} {flag : String} {v : β}
    (h : flags.lookup flag = some v) : (flag, v) ∈ flags := by
  obtain ⟨before, after, rfl, -⟩ := List.lookup_eq_some_iff.mp h
  simp

theorem roleOf_fits (argument : String) : (roleOf argument).Fits argument := by
  unfold roleOf
  split
  · next hswitch => exact mem_of_lookup hswitch
  · split
    · next hflag => exact mem_of_lookup hflag
    · split
      · next hplain => exact hplain
      · next hdash => exact Bool.eq_false_iff.mpr hdash

theorem roleOf_of_mem_switches : ∀ p ∈ switches, roleOf p.1 = .switch p.2 := by
  decide

theorem roleOf_of_mem_valueFlags : ∀ p ∈ valueFlags, roleOf p.1 = .value p.2 := by
  decide

/-- What can be a target is not a flag. -/
theorem lookup_of_isPlain {β : Type} {flags : List (String × β)}
    (hflags : ∀ p ∈ flags, isPlain p.1 = false) {name : String} (hplain : isPlain name = true) :
    flags.lookup name = none := by
  rw [List.lookup_eq_none_iff]
  intro p hp
  rw [bne_iff_ne]
  rintro rfl
  rw [hflags p hp] at hplain
  cases hplain

theorem roleOf_of_isPlain {name : String} (hplain : isPlain name = true) :
    roleOf name = .target := by
  have hswitches : switches.lookup name = none := lookup_of_isPlain (by decide) hplain
  have hvalueFlags : valueFlags.lookup name = none := lookup_of_isPlain (by decide) hplain
  simp [roleOf, hswitches, hvalueFlags, hplain]

/-- A switch does what it says. -/
theorem makes_switch (a : Arguments) (flag : String) (s : Switch) :
    Makes a [.switch flag s] (s.apply a) := by
  cases s <;> constructor <;>
    simp [Switch.apply, Item.isSwitch, Item.target?, Item.given?, Item.format?, Item.gitignore?]

/-- A target is added to the others. -/
theorem makes_target (a : Arguments) (name : String) :
    Makes a [.target name] { a with targets := a.targets ++ [name] } := by
  constructor <;> simp [Item.isSwitch, Item.target?, Item.given?, Item.format?, Item.gitignore?]

/-- A value is taken, and does what it says, unless it should be a format and is none. -/
theorem exists_makes_value (a : Arguments) (flag : String) {f : ValueFlag} {given : String}
    (hformat : f = .format → (Format.named? given).isSome) :
    ∃ b, f.apply a given = .ok b ∧ Makes a [.value flag f given] b := by
  cases f with
  | format =>
      obtain ⟨format, hnamed⟩ := Option.isSome_iff_exists.mp (hformat rfl)
      have hread := format?_eq_ok_iff.mpr hnamed
      refine ⟨{ a with format }, by rw [ValueFlag.apply, hread]; rfl, ?_⟩
      constructor <;>
        simp [Item.isSwitch, Item.target?, Item.given?, Item.format?, Item.gitignore?, hnamed]
  | option | tokens | config | includes | excludes =>
      refine ⟨_, rfl, ?_⟩
      constructor <;>
        simp [Item.isSwitch, Item.target?, Item.given?, Item.format?, Item.gitignore?]

/-- **An item is read as a whole**, whatever comes before and after it. -/
theorem Item.Valid.read {item : Item} (h : item.Valid) (a : Arguments) :
    ∃ b, Makes a [item] b ∧ ∀ rest, readFrom a (item.words ++ rest) = readFrom b rest := by
  cases item with
  | switch flag s =>
      exact ⟨_, makes_switch a flag s, readFrom_switch (roleOf_of_mem_switches _ h) a⟩
  | target name => exact ⟨_, makes_target a name, readFrom_target (roleOf_of_isPlain h) a⟩
  | value flag f given =>
      obtain ⟨hflag, hplain, hformat⟩ := h
      obtain ⟨b, hb, hmakes⟩ := exists_makes_value a flag hformat
      exact ⟨b, hmakes, readFrom_value (roleOf_of_mem_valueFlags _ hflag) hplain hb⟩

/-! ## Taking arguments apart -/

/-- The arguments are those of the items, one after the other, and each of them is used once. -/
structure Splits (arguments : List String) (items : List Item) : Prop where
  words_eq : items.flatMap Item.words = arguments
  valid : ∀ item ∈ items, item.Valid

theorem Splits.nil : Splits [] [] := ⟨rfl, by simp⟩

theorem Splits.cons (item : Item) {items : List Item} (hitem : item.Valid)
    (hrest : Splits rest items) : Splits (item.words ++ rest) (item :: items) where
  words_eq := by rw [List.flatMap_cons, hrest.words_eq]
  valid := List.forall_mem_cons.mpr ⟨hitem, hrest.valid⟩

/-- **Arguments that can be taken apart are read item by item**, and ask for what the items ask for.
-/
theorem Splits.read {items : List Item} (h : Splits arguments items) (a : Arguments) :
    ∃ b, Makes a items b ∧ ∀ rest, readFrom a (arguments ++ rest) = readFrom b rest := by
  obtain ⟨rfl, hvalid⟩ := h
  induction items generalizing a with
  | nil => exact ⟨a, .nil a, fun rest => rfl⟩
  | cons item items ih =>
      obtain ⟨hitem, hitems⟩ := List.forall_mem_cons.mp hvalid
      obtain ⟨b, hab, hread⟩ := hitem.read a
      obtain ⟨c, hbc, hlater⟩ := ih b hitems
      refine ⟨c, hab.trans hbc, fun rest => ?_⟩
      rw [List.flatMap_cons, List.append_assoc, hread, hlater]

/-- Arguments that can be taken apart are accepted. -/
theorem Splits.readFrom_eq_ok {items : List Item} (h : Splits arguments items) (a : Arguments) :
    ∃ b, readFrom a arguments = .ok b ∧ Makes a items b := by
  obtain ⟨b, hmakes, hread⟩ := h.read a
  have hend := hread []
  rw [List.append_nil] at hend
  exact ⟨b, hend, hmakes⟩

/-- **Arguments that are accepted can be taken apart.** -/
theorem exists_splits (h : readFrom a arguments = .ok b) : ∃ items, Splits arguments items := by
  -- Along the cases of reading: the end, a switch, a target, and a flag with its value. In the
  -- others the arguments are refused.
  fun_induction readFrom a arguments with
  | case1 a => exact ⟨[], .nil⟩
  | case2 a argument arguments s hrole ih =>
      obtain ⟨items, hitems⟩ := ih h
      have hfits := roleOf_fits argument
      rw [hrole] at hfits
      exact ⟨_, .cons (.switch argument s) hfits hitems⟩
  | case3 a argument arguments hrole ih =>
      obtain ⟨items, hitems⟩ := ih h
      have hfits := roleOf_fits argument
      rw [hrole] at hfits
      exact ⟨_, .cons (.target argument) hfits hitems⟩
  | case6 a argument f hrole value arguments hvalue c hc ih =>
      obtain ⟨items, hitems⟩ := ih h
      have hfits := roleOf_fits argument
      rw [hrole] at hfits
      obtain ⟨hformat, -⟩ | ⟨e, he⟩ := f.apply_cases value
      · exact ⟨_, .cons (.value argument f value) ⟨hfits, hvalue, hformat⟩ hitems⟩
      · rw [he a] at hc
        cases hc
  | case4 | case5 | case7 | case8 => cases h

/-- **A refusal does not depend on what comes before.** -/
theorem readFrom_eq_error {e : UsageError} (h : readFrom a arguments = .error e) (b : Arguments) :
    readFrom b arguments = .error e := by
  fun_induction readFrom a arguments generalizing b with
  | case1 a => cases h
  | case2 a argument arguments s hrole ih =>
      rw [readFrom_switch hrole]
      exact ih h _
  | case3 a argument arguments hrole ih =>
      rw [readFrom_target hrole]
      exact ih h _
  | case4 a argument arguments hrole =>
      rw [readFrom, hrole]
      exact h
  | case5 a argument f hrole =>
      rw [readFrom, hrole]
      exact h
  | case6 a argument f hrole value arguments hvalue c hc ih =>
      obtain ⟨-, hok⟩ | ⟨e', he⟩ := f.apply_cases value
      · obtain ⟨d, hd⟩ := hok b
        rw [readFrom_value hrole hvalue hd]
        exact ih h _
      · rw [he a] at hc
        cases hc
  | case7 a argument f hrole value arguments hvalue e' he' =>
      obtain ⟨-, hok⟩ | ⟨e'', he⟩ := f.apply_cases value
      · obtain ⟨c, hc⟩ := hok a
        rw [hc] at he'
        cases he'
      · rw [readFrom, hrole]
        simp only [hvalue, he b]
        rw [he a] at he'
        cases he'
        exact h
  | case8 a argument f hrole value arguments hvalue =>
      rw [readFrom, hrole]
      simp only [hvalue]
      exact h

/-! ## One way only -/

namespace Item

/-- The first of the arguments that an item takes up. -/
def first : Item → String
  | .switch flag _ => flag
  | .value flag _ _ => flag
  | .target name => name

def role : Item → Role
  | .switch _ s => .switch s
  | .value _ f _ => .value f
  | .target _ => .target

theorem head?_words (item : Item) (rest : List String) :
    (item.words ++ rest).head? = some item.first := by
  cases item <;> rfl

theorem Valid.roleOf_first {item : Item} (h : item.Valid) : roleOf item.first = item.role := by
  cases item with
  | switch flag s => exact roleOf_of_mem_switches _ h
  | value flag f given => exact roleOf_of_mem_valueFlags _ h.1
  | target name => exact roleOf_of_isPlain h

/-- Its first argument tells what an item is, and so where it ends. -/
theorem Valid.eq_of_words {item item' : Item} (h : item.Valid) (h' : item'.Valid)
    {rest rest' : List String} (hwords : item.words ++ rest = item'.words ++ rest') :
    item = item' ∧ rest = rest' := by
  have hfirst : item.first = item'.first := by
    rw [← Option.some.injEq, ← head?_words item rest, hwords, head?_words]
  have hrole : item.role = item'.role := by
    rw [← h.roleOf_first, ← h'.roleOf_first, hfirst]
  cases item <;> cases item' <;> cases hrole <;> simp_all [words]

end Item

/-- **Arguments can be taken apart in one way only.** -/
theorem Splits.unique {items items' : List Item} (h : Splits arguments items)
    (h' : Splits arguments items') : items = items' := by
  obtain ⟨rfl, hvalid⟩ := h
  obtain ⟨hwords, hvalid'⟩ := h'
  induction items generalizing items' with
  | nil =>
      cases items' with
      | nil => rfl
      | cons item' items' => cases item' <;> cases hwords
  | cons item items ih =>
      cases items' with
      | nil => cases item <;> cases hwords
      | cons item' items' =>
          obtain ⟨hitem, hitems⟩ := List.forall_mem_cons.mp hvalid
          obtain ⟨hitem', hitems'⟩ := List.forall_mem_cons.mp hvalid'
          rw [List.flatMap_cons, List.flatMap_cons] at hwords
          obtain ⟨rfl, hrest⟩ := hitem'.eq_of_words hitem hwords
          rw [ih hitems hrest hitems']

/-! ## Arguments one after the other -/

/-- What arguments `x` and later ones `y` ask for together, where `later` is what the later ones
consist of. -/
structure Joined (later : List Item) (x y z : Arguments) : Prop where
  help : z.help = (x.help || y.help)
  targets : z.targets = x.targets ++ y.targets
  includes : z.includes = x.includes ++ y.includes
  excludes : z.excludes = x.excludes ++ y.excludes
  color : z.color = (x.color && y.color)
  option : z.option =
    if later.any (·.given? .option |>.isSome) then y.option else x.option
  tokens : z.tokens =
    if later.any (·.given? .tokens |>.isSome) then y.tokens else x.tokens
  config : z.config =
    if later.any (·.given? .config |>.isSome) then y.config else x.config
  format : z.format =
    if later.any (·.format?.isSome) then y.format else x.format
  useGitignore : z.useGitignore =
    if later.any (·.gitignore?.isSome) then y.useGitignore else x.useGitignore

section Last
variable {β : Type} {view : Item → Option β} {items : List Item}

/-- The last word on something is that of the items, if they have one. -/
theorem getD_last? (v w : β) : (last? view items).getD v =
    if items.any (view · |>.isSome) then (last? view items).getD w else v := by
  rw [← isSome_last?]
  cases last? view items <;> rfl

theorem or_last? (v : Option β) : (last? view items).or v =
    if items.any (view · |>.isSome) then (last? view items).or none else v := by
  rw [← isSome_last?]
  cases last? view items <;> rfl

end Last

/-- Two readings of the same items, one after `x` and one on its own, show what they add to `x`. -/
theorem Makes.joined {later : List Item} {x y z : Arguments} (hxz : Makes x later z)
    (hy : Makes {} later y) : Joined later x y z where
  help := by rw [hxz.help, hy.help, Bool.false_or]
  targets := by rw [hxz.targets, hy.targets, List.nil_append]
  includes := by rw [hxz.includes, hy.includes, List.nil_append]
  excludes := by rw [hxz.excludes, hy.excludes, List.nil_append]
  color := by rw [hxz.color, hy.color, Bool.true_and]
  option := by rw [hxz.option, hy.option, or_last?]
  tokens := by rw [hxz.tokens, hy.tokens, or_last?]
  config := by rw [hxz.config, hy.config, or_last?]
  format := by rw [hxz.format, hy.format, getD_last?]
  useGitignore := by rw [hxz.useGitignore, hy.useGitignore, getD_last?]

/-- The language of arguments: those that are accepted, how they are taken apart, and what the parts
say. -/
structure Understood (arguments : List String) : Prop where
  accepted_iff : (∃ a, read arguments = .ok a) ↔ ∃ items, Splits arguments items
  unique : ∀ items items', Splits arguments items → Splits arguments items' → items = items'
  makes : ∀ items a, Splits arguments items → read arguments = .ok a →
    Makes { help := arguments.isEmpty } items a

theorem understood (arguments : List String) : Understood arguments where
  accepted_iff := by
    constructor
    · intro ⟨a, ha⟩
      exact exists_splits ha
    · intro ⟨items, hitems⟩
      obtain ⟨a, ha, -⟩ := hitems.readFrom_eq_ok { help := arguments.isEmpty }
      exact ⟨a, ha⟩
  unique := fun _ _ h h' => h.unique h'
  makes := by
    intro items a hitems ha
    obtain ⟨b, hb, hmakes⟩ := hitems.readFrom_eq_ok { help := arguments.isEmpty }
    cases hb.symm.trans ha
    exact hmakes

theorem read_of_ne_nil (h : arguments ≠ []) : read arguments = readFrom {} arguments := by
  rw [read, List.isEmpty_eq_false_iff.mpr h]

/-- **Arguments are read one after the other.** What follows accepted arguments is refused for the
same reasons as alone, and otherwise adds what it asks for alone. So arguments are understood from
what their items say. -/
theorem arguments_compose {first later : List String} {x : Arguments} (hfirst : first ≠ [])
    (hlater : later ≠ []) (hx : read first = .ok x) :
    (∀ e, read (first ++ later) = .error e ↔ read later = .error e) ∧
    (∀ y, read later = .ok y → ∃ z items, read (first ++ later) = .ok z ∧ Splits later items ∧
      Joined items x y z) ∧
    ∀ arguments, Understood arguments := by
  have hboth : read (first ++ later) = readFrom x later := by
    rw [read_of_ne_nil hfirst] at hx
    rw [read_of_ne_nil (by simp [hfirst]), readFrom_append hx]
  rw [hboth, read_of_ne_nil hlater]
  have herror (e : UsageError) : readFrom x later = .error e ↔ readFrom {} later = .error e :=
    ⟨fun h => readFrom_eq_error h {}, fun h => readFrom_eq_error h x⟩
  refine ⟨herror, ?_, understood⟩
  intro y hy
  obtain ⟨items, hitems⟩ := exists_splits hy
  obtain ⟨y', hy', hmakes⟩ := hitems.readFrom_eq_ok {}
  cases hy'.symm.trans hy
  obtain ⟨z, hz, hmakes'⟩ := hitems.readFrom_eq_ok x
  exact ⟨z, items, hz, hitems, hmakes'.joined hmakes⟩

/-- Targets, patterns and a format are followed by others of each, by a value that is a lone dash,
and by a switch for help. -/
theorem arguments_compose_of_dashes :
    let first := ["-", "-f", "JSON", "--no-gitignore", "-I", "a, b", ""]
    let later := ["--gitignore", "-o", "-", "-f", "tExT", "--no-color", "-I", "c,,", "x", "-h"]
    let x : Arguments :=
      { targets := ["-", ""], format := .json, useGitignore := false, includes := ["a", "b"] }
    let y : Arguments :=
      { help := true, targets := ["x"], option := some "-", includes := ["c"], color := false }
    first ≠ [] ∧ later ≠ [] ∧ read first = .ok x ∧ read later = .ok y ∧
    (∀ e, read (first ++ later) = .error e ↔ read later = .error e) ∧
    (∀ arguments, Understood arguments) ∧
    ∃ z items, read (first ++ later) = .ok z ∧ Splits later items ∧ Joined items x y z ∧
      z = { help := true, targets := ["-", "", "x"], option := some "-",
            includes := ["a", "b", "c"], color := false } := by
  intro first later x y
  have hfirst : first ≠ [] := List.cons_ne_nil _ _
  have hlater : later ≠ [] := List.cons_ne_nil _ _
  have hx : read first = .ok x := rfl
  have hy : read later = .ok y := rfl
  obtain ⟨herror, hjoin, hunderstood⟩ := arguments_compose hfirst hlater hx
  obtain ⟨z, items, hz, hitems, hjoined⟩ := hjoin y hy
  refine ⟨hfirst, hlater, hx, hy, herror, hunderstood, z, items, hz, hitems, hjoined, ?_⟩
  exact Except.ok.inj (hz.symm.trans rfl)

end ClosingBrace.Command
