import ClosingBrace.Proofs.Tree.Format

/-!
# Loading accepts exactly the format

Every check of a part judges that part: it accepts what the format allows and reports the faults
that the format forbids, all of them, once each and in order. For nodes this is shown along the
nesting of the data, together for nodes, lists of nodes and the children of a node; a document then
consists of three parts.

## Main statements

* `judges_checkNode`, `judges_check`: the checks of a node and of a document judge them.
* `load_accepts_format`: what is loaded, and what is reported otherwise.
-/

namespace ClosingBrace.Document

open Checked (Judges)

variable {path : List PathStep}

/-! ## Parts that are absent or of another type -/

section Hidden
variable {α : Type} {part : Part} {good : α → Prop}

theorem judges_missing (hpart : part.isOptional = false) (hgood : ∀ a, ¬ good a) :
    Judges keys path good (HasFault part none) (Checked.fault path .missing) := by
  refine .fault hgood fun rest f => ?_
  rw [hasFault_none_iff, and_iff_right hpart]

theorem judges_absent (hpart : part.isOptional = true) {a : α} (hgood : ∀ b, good b ↔ b = a) :
    Judges keys path good (HasFault part none) (.ok a) := by
  refine .ok hgood fun rest f h => ?_
  rw [hasFault_none_iff, hpart] at h
  exact Bool.noConfusion h.1

theorem judges_wrongShape {json : Json} (hshape : json.shape ≠ part.shape)
    (hgood : ∀ a, ¬ good a) :
    Judges keys path good (HasFault part (some json))
      (Checked.fault path (part.wrongShape json.shape)) :=
  .fault hgood fun _ _ => hasFault_of_shape_ne hshape

end Hidden

/-! ## Parts without parts -/

theorem judges_checkString {part : Part} (hpart : part = .file ∨ part = .source) (json : Json) :
    Judges keys path (fun s => json = .string s) (HasFault part (some json))
      (checkString path (some json)) := by
  have hwrong : json.shape ≠ .string → Judges keys path (fun s => json = .string s)
      (HasFault part (some json)) (Checked.fault path (.wrongShape .string json.shape)) := by
    intro hshape
    have hgood : ∀ s, json ≠ .string s := by
      rintro s rfl
      exact hshape rfl
    rcases hpart with rfl | rfl <;> exact judges_wrongShape hshape hgood
  cases json with
  | string s =>
      refine .ok (fun t => ?_) fun _ _ => not_hasFault_string hpart
      rw [Json.string.injEq, eq_comm]
  | null | bool | number | array | object => exact hwrong Json.Shape.noConfusion

theorem judges_checkSource (value : Option Json) :
    Judges keys path (fun s => value = some (.string s)) (HasFault .source value)
      (checkString path value) := by
  cases value with
  | none => exact judges_missing rfl fun s => by simp
  | some json =>
      refine (judges_checkString (.inr rfl) json).congr (fun s => ?_) fun _ _ => Iff.rfl
      rw [Option.some.injEq]

theorem judges_checkFile (value : Option Json) :
    Judges keys path (fun file => value = file.map .string) (HasFault .file value)
      (checkString? path value) := by
  cases value with
  | none =>
      refine judges_absent rfl fun file => ?_
      cases file <;> simp
  | some json =>
      refine (judges_checkString (.inl rfl) json).map fun file => ?_
      cases file <;> simp

/-- A word is read as a kind exactly when it is the name of one. -/
theorem ofName?_eq_some_iff {word : String} {kind : Kind} :
    Kind.ofName? word = some kind ↔ word = kind.name := by
  constructor
  · intro h
    have hname : (kind.name == word) = true :=
      List.find?_some (p := fun kind : Kind => kind.name == word) h
    exact (beq_iff_eq.mp hname).symm
  · rintro rfl
    exact Kind.ofName?_name kind

theorem ofName?_eq_none_iff {word : String} : Kind.ofName? word = none ↔ word ∉ kindNames := by
  rw [Option.eq_none_iff_forall_ne_some, kindNames, List.mem_map]
  simp only [ne_eq, ofName?_eq_some_iff]
  constructor
  · rintro h ⟨kind, -, rfl⟩
    exact h kind rfl
  · rintro h kind rfl
    exact h ⟨kind, Kind.mem_all kind, rfl⟩

theorem judges_checkKind (value : Option Json) :
    Judges keys path (fun kind => value = some (.string kind.name)) (HasFault .kind value)
      (checkKind path value) := by
  have hwrong (json : Json) (hshape : json.shape ≠ .string) :
      Judges keys path (fun kind : Kind => some json = some (.string kind.name))
        (HasFault .kind (some json)) (Checked.fault path (.notWord kindNames json.shape)) := by
    refine judges_wrongShape hshape fun kind h => ?_
    cases h
    exact hshape rfl
  cases value with
  | none => exact judges_missing rfl fun kind => by simp
  | some json =>
      cases json with
      | string word =>
          cases hword : Kind.ofName? word with
          | none =>
              have hcheck : checkKind path (some (.string word)) =
                  Checked.fault path (.otherWord kindNames word) := by
                simp only [checkKind, hword]
              rw [hcheck]
              refine .fault (fun kind h => ?_) fun rest f => ?_
              · cases h
                rw [Kind.ofName?_name] at hword
                cases hword
              · rw [hasFault_kind_iff, and_iff_right (ofName?_eq_none_iff.mp hword)]
          | some kind =>
              have hcheck : checkKind path (some (.string word)) = .ok kind := by
                simp only [checkKind, hword]
              rw [hcheck]
              obtain rfl := ofName?_eq_some_iff.mp hword
              refine .ok (fun other => ?_) fun rest f h => ?_
              · rw [Option.some.injEq, Json.string.injEq]
                exact ⟨fun h => (Kind.name_injective h).symm, fun h => h ▸ rfl⟩
              · rw [hasFault_kind_iff, ← ofName?_eq_none_iff, hword] at h
                cases h.1
      | null | bool | number | array | object => exact hwrong _ Json.Shape.noConfusion

theorem unless_eq_nil_iff {holds : Bool} {f : Fault} :
    (if holds then [] else [f]) = [] ↔ holds = true := by
  cases holds <;> simp

theorem mem_unless_iff {holds : Bool} {f g : Fault} :
    g ∈ (if holds then [] else [f]) ↔ holds = false ∧ g = f := by
  cases holds <;> simp

/-- A number that has to be whole may lack that, or be out of its bound, or both. -/
theorem judges_checkWhole {part : Part} {inBound : Number → Bool} {outside : Fault}
    (hpart : part.isOptional = false) (hshape : part.shape = .number)
    (hwrong : part.wrongShape = .wrongShape .number) (houtside : outside ≠ .notWhole)
    (hconstraints : part.constraints = [(Number.isWhole, .notWhole), (inBound, outside)])
    (value : Option Json) :
    Judges keys path (fun n => value = some (.number n) ∧ n.isWhole = true ∧ inBound n = true)
      (HasFault part value) (checkWhole path inBound outside value) := by
  have hother (json : Json) (hjson : json.shape ≠ .number) :
      Judges keys path
        (fun n => some json = some (.number n) ∧ n.isWhole = true ∧ inBound n = true)
        (HasFault part (some json)) (Checked.fault path (.wrongShape .number json.shape)) := by
    rw [← hwrong]
    refine judges_wrongShape (hshape ▸ hjson) fun n h => ?_
    cases h.1
    exact hjson rfl
  cases value with
  | none => exact judges_missing hpart fun n => by simp
  | some json =>
      cases json with
      | number n =>
          simp only [checkWhole]
          refine Judges.faults (fun m => ?_) (fun rest f => ?_) ?_
          · rw [Option.some.injEq, Json.number.injEq, List.append_eq_nil_iff, unless_eq_nil_iff,
              unless_eq_nil_iff]
            constructor
            · rintro ⟨rfl, hm⟩
              exact ⟨rfl, hm⟩
            · rintro ⟨rfl, hm⟩
              exact ⟨rfl, hm⟩
          · rw [hasFault_number_iff hshape hconstraints, List.mem_append, mem_unless_iff,
              mem_unless_iff]
          · generalize n.isWhole = whole, inBound n = bound
            cases whole <;> cases bound <;> simp [houtside]
      | null | bool | string | array | object => exact hother _ Json.Shape.noConfusion

theorem judges_checkLine (value : Option Json) :
    Judges keys path (fun n => value = some (.number n) ∧ n.isWhole = true ∧ 0 < n)
      (HasFault .line value) (checkLine path value) := by
  refine (judges_checkWhole rfl rfl rfl Fault.noConfusion rfl value).congr (fun n => ?_)
    fun _ _ => Iff.rfl
  rw [decide_eq_true_iff]

theorem judges_checkColumn (value : Option Json) :
    Judges keys path (fun n => value = some (.number n) ∧ n.isWhole = true ∧ 0 ≤ n)
      (HasFault .column value) (checkColumn path value) := by
  refine (judges_checkWhole rfl rfl rfl Fault.noConfusion rfl value).congr (fun n => ?_)
    fun _ _ => Iff.rfl
  rw [decide_eq_true_iff]

/-! ## Nodes -/

/-- The members of a node are judged by their own checks. -/
theorem judges_assemble {members : List (String × Json)} {children : Checked (List Outline)}
    (hchildren : Judges keys (path ++ [.key "children"])
      (AreChildren (Json.lookup "children" members))
      (HasFault .children (Json.lookup "children" members)) children) :
    Judges keys path (IsNode (.object members)) (HasFault .node (some (.object members)))
      (assemble path members children) := by
  have hkind : Judges keys path _ _
      (checkKind (path ++ [.key "kind"]) (Json.lookup "kind" members)) :=
    (judges_checkKind _).below
  have hline : Judges keys path _ _
      (checkLine (path ++ [.key "line"]) (Json.lookup "line" members)) :=
    (judges_checkLine _).below
  have hcolumn : Judges keys path _ _
      (checkColumn (path ++ [.key "column"]) (Json.lookup "column" members)) :=
    (judges_checkColumn _).below
  -- The four parts stand in the order of their keys.
  have hchildren' := hcolumn.both hchildren.below fun _ _ _ _ h h' => h.before h' (by decide)
  have hposition := hline.both hchildren' (by
    rintro _ _ _ _ h (h' | h') <;> exact h.before h' (by decide))
  have hparts := hkind.both hposition (by
    rintro _ _ _ _ h (h' | h' | h') <;> exact h.before h' (by decide))
  refine Judges.map (hparts.congr (fun _ => Iff.rfl) fun rest f => hasFault_node_iff) fun o => ?_
  constructor
  · rintro ⟨hkind, hline, hcolumn, ⟨hline', hcolumn'⟩, hos⟩
    exact ⟨(_, _, _, _), ⟨hkind, ⟨hline, hline'⟩, ⟨hcolumn, hcolumn'⟩, hos⟩, rfl⟩
  · rintro ⟨⟨kind, line, column, os⟩, ⟨hkind, ⟨hline, hline'⟩, ⟨hcolumn, hcolumn'⟩, hos⟩, rfl⟩
    exact .object hkind hline hcolumn ⟨hline', hcolumn'⟩ hos

/-- What is wrong with the items of a list of nodes, the first of them at the place `index`. -/
def ItemFault (index : Nat) (items : List Json) (rest : List PathStep) (f : Fault) : Prop :=
  ∃ i item, items[i]? = some item ∧ Below (.index (index + i)) (HasFault .node (some item)) rest f

theorem itemFault_cons_iff {index : Nat} {item : Json} {items : List Json}
    {rest : List PathStep} {f : Fault} :
    ItemFault index (item :: items) rest f ↔
      Below (.index index) (HasFault .node (some item)) rest f ∨
        ItemFault (index + 1) items rest f := by
  constructor
  · rintro ⟨i, found, hfound, h⟩
    cases i with
    | zero =>
        cases hfound
        exact .inl h
    | succ i =>
        rw [← Nat.add_assoc, Nat.add_right_comm] at h
        exact .inr ⟨i, found, hfound, h⟩
  · rintro (h | ⟨i, found, hfound, h⟩)
    · exact ⟨0, item, rfl, h⟩
    · rw [Nat.add_right_comm, Nat.add_assoc] at h
      exact ⟨i + 1, found, hfound, h⟩

mutual

/-- **The check of a node judges it**, and with it everything below. -/
theorem judges_checkNode (path : List PathStep) : ∀ json : Json,
    Judges keys path (IsNode json) (HasFault .node (some json)) (checkNode path json)
  | .object members => by
      rw [checkNode]
      exact judges_assemble (judges_checkChildrenOf _ members)
  | .null | .bool _ | .number _ | .string _ | .array _ => by
      rw [checkNode]
      · exact judges_wrongShape Json.Shape.noConfusion (by rintro o ⟨⟩)
      · simp

theorem judges_checkChildrenOf (path : List PathStep) : ∀ members : List (String × Json),
    Judges keys path (AreChildren (Json.lookup "children" members))
      (HasFault .children (Json.lookup "children" members)) (checkChildrenOf path members)
  | [] => by
      rw [checkChildrenOf]
      exact judges_absent rfl fun os => areChildren_none_iff
  | (key, value) :: rest => by
      rw [checkChildrenOf, Json.lookup]
      split
      · exact judges_checkChildren path value
      · exact judges_checkChildrenOf path rest

theorem judges_checkChildren (path : List PathStep) : ∀ json : Json,
    Judges keys path (AreChildren (some json)) (HasFault .children (some json))
      (checkChildren path json)
  | .array items => by
      rw [checkChildren]
      refine (judges_checkNodes path 0 items).congr (fun os => areChildren_array_iff)
        fun rest f => ?_
      simp only [hasFault_array_iff, ItemFault, Nat.zero_add]
  | .null | .bool _ | .number _ | .string _ | .object _ => by
      rw [checkChildren]
      · exact judges_wrongShape Json.Shape.noConfusion (by rintro o ⟨⟩)
      · simp

theorem judges_checkNodes (path : List PathStep) (index : Nat) : ∀ items : List Json,
    Judges keys path (AreNodes items) (ItemFault index items) (checkNodes path index items)
  | [] => by
      rw [checkNodes]
      refine .ok (fun os => areNodes_nil_iff) ?_
      rintro rest f ⟨i, item, hitem, -⟩
      cases hitem
  | item :: rest => by
      rw [checkNodes]
      have hfirst := (judges_checkNode (path ++ [.index index]) item).below
      have hboth := hfirst.both (judges_checkNodes path (index + 1) rest) (by
        rintro _ _ _ _ h ⟨i, _, -, h'⟩
        exact h.before h' (by show index < index + 1 + i; omega))
      refine Judges.map (hboth.congr (fun _ => Iff.rfl) fun rest f => itemFault_cons_iff)
        fun os => ?_
      constructor
      · intro h
        cases h with
        | cons ho hos => exact ⟨(_, _), ⟨ho, hos⟩, rfl⟩
      · rintro ⟨⟨o, os⟩, ⟨ho, hos⟩, rfl⟩
        exact .cons ho hos

end

/-! ## Documents -/

theorem judges_checkRoot (value : Option Json) :
    Judges keys path (fun o => ∃ json, value = some json ∧ IsNode json o) (HasFault .node value)
      (checkRoot path value) := by
  cases value with
  | none =>
      refine judges_missing rfl ?_
      rintro o ⟨json, hjson, -⟩
      cases hjson
  | some json =>
      refine (judges_checkNode path json).congr (fun o => ?_) fun _ _ => Iff.rfl
      simp

/-- **The check of a document judges it.** -/
theorem judges_check (data : Option Json) :
    Judges keys [] (Formed data) (HasFault .whole data) (check data) := by
  have hwrong (json : Json) (hshape : json.shape ≠ .object) :
      Judges keys [] (Formed (some json)) (HasFault .whole (some json))
        (Checked.fault [] (.wrongShape .object json.shape)) := by
    refine judges_wrongShape hshape ?_
    rintro d ⟨⟩
    exact hshape rfl
  cases data with
  | none => exact judges_missing rfl (by rintro d ⟨⟩)
  | some json =>
      cases json with
      | object members =>
          have hfile : Judges keys [] _ _
              (checkString? [.key "file"] (Json.lookup "file" members)) :=
            Judges.below (judges_checkFile _)
          have hsource : Judges keys [] _ _
              (checkString [.key "source"] (Json.lookup "source" members)) :=
            Judges.below (judges_checkSource _)
          have hroot : Judges keys [] _ _
              (checkRoot [.key "root"] (Json.lookup "root" members)) :=
            Judges.below (judges_checkRoot _)
          have hrest := hsource.both hroot fun _ _ _ _ h h' => h.before h' (by decide)
          have hparts := hfile.both hrest (by
            rintro _ _ _ _ h (h' | h') <;> exact h.before h' (by decide))
          refine Judges.map (hparts.congr (fun _ => Iff.rfl) fun rest f => hasFault_whole_iff)
            fun d => ?_
          constructor
          · rintro ⟨hfile, hsource, hroot, hnode⟩
            exact ⟨(_, _, _), ⟨hfile, hsource, _, hroot, hnode⟩, rfl⟩
          · rintro ⟨⟨file, source, root⟩, ⟨hfile, hsource, json, hroot, hnode⟩, rfl⟩
            exact .object hfile hsource hroot hnode
      | null | bool | number | string | array => exact hwrong _ Json.Shape.noConfusion

/-- The path of an issue as messages give it, with steps between dots; the path of a whole document
is left out. -/
def lead (path : List PathStep) : String :=
  if path = [] then "" else ".".intercalate (path.map PathStep.text) ++ ": "

theorem texts_eq (found : List Issue) : Issue.texts found =
    "; ".intercalate (found.map fun issue => lead issue.path ++ issue.fault.text) := by
  have htext : ∀ issue : Issue, issue.text = lead issue.path ++ issue.fault.text := by
    rintro ⟨path, f⟩
    unfold Issue.text lead
    cases path with
    | nil => simp
    | cons step path => simp
  rw [Issue.texts, funext htext]

/-- **Loading accepts exactly the format.** What is loaded is the tree of a document of the format,
under the document's own name or else the given one. A value is such a document exactly when it has
no fault; otherwise it is refused under the given name, with a message that lists its faults: each
of them once, in the order of the schema and depth first, each after the path that leads to it. -/
theorem load_accepts_format (data : Option Json) (name : String) :
    (∀ loaded, load data name = .ok loaded ↔ ∃ d, Formed data d ∧
      loaded = ⟨d.file.getD name, d.source, Tree.ofOutline d.source d.root⟩) ∧
    ((∃ d, Formed data d) ↔ ∀ path f, ¬ HasFault .whole data path f) ∧
    ((∃ d, Formed data d) ∨ ∃ found, load data name = .error ⟨name, .issues found⟩ ∧
      found ≠ [] ∧ found.Nodup ∧
      (∀ issue, issue ∈ found ↔ HasFault .whole data issue.path issue.fault) ∧
      found.Pairwise (Issue.Before keys) ∧
      DocumentError.message ⟨name, .issues found⟩ = "Invalid syntax tree in " ++ name ++ ": " ++
        "; ".intercalate (found.map fun issue => lead issue.path ++ issue.fault.text)) := by
  have hjudges := judges_check data
  refine ⟨fun loaded => ?_, hjudges.exists_good_iff, ?_⟩
  · simp only [load_eq_ok_iff, hjudges.eq_ok_iff]
    rfl
  · cases hcheck : check data with
    | ok d => exact .inl ⟨d, (hjudges.eq_ok_iff d).mp hcheck⟩
    | error found =>
        have hissues : (check data).issues = found := by
          rw [hcheck]
          rfl
        right
        refine ⟨found, ?_, ?_, ?_, ?_, ?_, ?_⟩
        · unfold load
          rw [hcheck]
        · exact hjudges.ne_nil found hcheck
        · exact hissues ▸ hjudges.nodup
        · intro issue
          rw [← hissues, hjudges.mem_issues_iff]
          simp
        · exact hissues ▸ hjudges.ordered
        · show "Invalid syntax tree in " ++ name ++ ": " ++ Issue.texts found = _
          rw [texts_eq]

/-- A number can be wrong in two ways, and what is inside a value of the wrong type is not seen. -/
example :
    (check (some (.object [("root", .object [("kind", .string "SLIST"), ("line", .bool true),
      ("column", .number (.ofRat (-1 / 2))), ("children", .array [.null])])]))).issues.map
        Issue.text =
      ["source: Required", "root.line: Expected number, received boolean",
        "root.column: Expected integer, received float",
        "root.column: Number must be greater than or equal to 0",
        "root.children.0: Expected object, received null"] := by
  decide +kernel

end ClosingBrace.Document
