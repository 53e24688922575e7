import ClosingBrace.Proofs.Schema.Judging
import ClosingBrace.Tree.Document

/-!
# The format of documents

What a document has to look like, said without regard to how it is checked. `Formed` describes the
documents of the format together with what they mean; `HasFault` lists, part by part, what may be
wrong with any other value, each fault with the path that leads to it.

A missing part and a part of the wrong type have that one fault only: what stands inside a part is
looked at only if the part has the right type.

## Main statements

* `hasFault_none_iff`, `hasFault_of_shape_ne`: the faults that hide all others.
* `hasFault_object_iff`, `hasFault_array_iff`: the faults of a whole are those of its parts.
-/

namespace ClosingBrace

/-- A line counted from 1 and a column counted from 0, both whole. -/
def Placed (line column : Number) : Prop :=
  (line.isWhole = true ∧ 0 < line) ∧ column.isWhole = true ∧ 0 ≤ column

namespace Document

/-! ## Documents of the format -/

mutual

/-- The value is a node: it has a kind and a position, and its children are nodes. -/
inductive IsNode : Json → Outline → Prop
  | object {members : List (String × Json)} {kind : Kind} {line column : Number}
      {children : List Outline} : Json.lookup "kind" members = some (.string kind.name) →
      Json.lookup "line" members = some (.number line) →
      Json.lookup "column" members = some (.number column) → Placed line column →
      AreChildren (Json.lookup "children" members) children →
      IsNode (.object members) (.node kind line column children)

/-- A node has no children or a list of them. -/
inductive AreChildren : Option Json → List Outline → Prop
  | missing : AreChildren none []
  | array {items : List Json} {os : List Outline} :
      AreNodes items os → AreChildren (some (.array items)) os

/-- The values are nodes, one by one. -/
inductive AreNodes : List Json → List Outline → Prop
  | nil : AreNodes [] []
  | cons {item : Json} {o : Outline} {items : List Json} {os : List Outline} :
      IsNode item o → AreNodes items os → AreNodes (item :: items) (o :: os)

end

theorem areChildren_none_iff {os : List Outline} : AreChildren none os ↔ os = [] := by
  constructor
  · rintro ⟨⟩
    rfl
  · rintro rfl
    exact .missing

theorem areChildren_array_iff {items : List Json} {os : List Outline} :
    AreChildren (some (.array items)) os ↔ AreNodes items os := by
  constructor
  · intro h
    cases h with
    | array h => exact h
  · exact .array

theorem areNodes_nil_iff {os : List Outline} : AreNodes [] os ↔ os = [] := by
  constructor
  · rintro ⟨⟩
    rfl
  · rintro rfl
    exact .nil

/-- The value is a document: it has a source and a root, and perhaps the name of a file. -/
inductive Formed : Option Json → Document → Prop
  | object {members : List (String × Json)} {file : Option String} {source : String} {json : Json}
      {root : Outline} : Json.lookup "file" members = file.map .string →
      Json.lookup "source" members = some (.string source) →
      Json.lookup "root" members = some json → IsNode json root →
      Formed (some (.object members)) ⟨file, source, root⟩

/-! ## Parts and their faults -/

/-- The parts of a document. -/
inductive Part where
  | whole
  | file
  | source
  | node
  | kind
  | line
  | column
  | children
deriving DecidableEq

namespace Part

def isOptional : Part → Bool
  | .file | .children => true
  | .whole | .source | .node | .kind | .line | .column => false

def shape : Part → Json.Shape
  | .whole | .node => .object
  | .file | .source | .kind => .string
  | .line | .column => .number
  | .children => .array

/-- The fault of a part that has another type. -/
def wrongShape (part : Part) (received : Json.Shape) : Fault :=
  match part with
  | .kind => .notWord kindNames received
  | .whole | .file | .source | .node | .line | .column | .children =>
    .wrongShape part.shape received

/-- The parts that a part has under its keys, in the order of the schema. -/
def members : Part → List (String × Part)
  | .whole => [("file", .file), ("source", .source), ("root", .node)]
  | .node => [("kind", .kind), ("line", .line), ("column", .column), ("children", .children)]
  | .file | .source | .kind | .line | .column | .children => []

/-- What a number has to satisfy in the part, each with the fault of a number that does not. -/
def constraints : Part → List ((Number → Bool) × Fault)
  | .line => [(Number.isWhole, .notWhole), (fun n => decide (0 < n), .notPositive)]
  | .column => [(Number.isWhole, .notWhole), (fun n => decide (0 ≤ n), .belowZero)]
  | .whole | .file | .source | .node | .kind | .children => []

/-- Only an object has parts under keys. -/
theorem shape_of_mem_members {part inner : Part} {key : String}
    (h : (key, inner) ∈ part.members) : part.shape = .object := by
  cases part with
  | whole | node => rfl
  | file | source | kind | line | column | children => cases h

/-- Only a number has constraints to satisfy. -/
theorem shape_of_mem_constraints {part : Part} {holds : Number → Bool} {f : Fault}
    (h : (holds, f) ∈ part.constraints) : part.shape = .number := by
  cases part with
  | line | column => rfl
  | whole | file | source | node | kind | children => cases h

end Part

/-- All keys of the format, in the order of the schema. -/
def keys : List String := (Part.whole.members ++ Part.node.members).map Prod.fst

/-- What is wrong with a part: the path from the part to the fault, and the fault. -/
inductive HasFault : Part → Option Json → List PathStep → Fault → Prop
  | missing {part : Part} : part.isOptional = false → HasFault part none [] .missing
  | wrongShape {part : Part} {json : Json} : json.shape ≠ part.shape →
      HasFault part (some json) [] (part.wrongShape json.shape)
  | otherWord {word : String} : word ∉ kindNames →
      HasFault .kind (some (.string word)) [] (.otherWord kindNames word)
  | unmet {part : Part} {n : Number} {holds : Number → Bool} {f : Fault} :
      (holds, f) ∈ part.constraints → holds n = false → HasFault part (some (.number n)) [] f
  | member {part inner : Part} {key : String} {members : List (String × Json)}
      {rest : List PathStep} {f : Fault} : (key, inner) ∈ part.members →
      HasFault inner (Json.lookup key members) rest f →
      HasFault part (some (.object members)) (.key key :: rest) f
  | item {items : List Json} {i : Nat} {json : Json} {rest : List PathStep} {f : Fault} :
      items[i]? = some json → HasFault .node (some json) rest f →
      HasFault .children (some (.array items)) (.index i :: rest) f

variable {part : Part} {json : Json} {rest : List PathStep} {f : Fault}

/-! ## Faults that hide all others -/

theorem hasFault_none_iff :
    HasFault part none rest f ↔ part.isOptional = false ∧ rest = [] ∧ f = .missing := by
  constructor
  · rintro ⟨hpart⟩
    exact ⟨hpart, rfl, rfl⟩
  · rintro ⟨hpart, rfl, rfl⟩
    exact .missing hpart

/-- A part of the wrong type has no other fault. -/
theorem hasFault_of_shape_ne (hshape : json.shape ≠ part.shape) :
    HasFault part (some json) rest f ↔ rest = [] ∧ f = part.wrongShape json.shape := by
  constructor
  · intro h
    cases h with
    | wrongShape => exact ⟨rfl, rfl⟩
    | member hmem => exact absurd (Part.shape_of_mem_members hmem).symm hshape
    | unmet hmem => exact absurd (Part.shape_of_mem_constraints hmem).symm hshape
    | otherWord | item => exact absurd rfl hshape
  · rintro ⟨rfl, rfl⟩
    exact .wrongShape hshape

/-! ## Faults of a part of the right type -/

theorem hasFault_object_iff {members : List (String × Json)} (hshape : part.shape = .object) :
    HasFault part (some (.object members)) rest f ↔ ∃ key inner, (key, inner) ∈ part.members ∧
      Below (.key key) (HasFault inner (Json.lookup key members)) rest f := by
  constructor
  · intro h
    cases h with
    | wrongShape hne => exact absurd hshape.symm hne
    | member hmem h => exact ⟨_, _, hmem, _, rfl, h⟩
  · rintro ⟨key, inner, hmem, path, rfl, h⟩
    exact .member hmem h

/-- The faults of a node are those of its four parts. -/
theorem hasFault_node_iff {members : List (String × Json)} :
    HasFault .node (some (.object members)) rest f ↔
      Below (.key "kind") (HasFault .kind (Json.lookup "kind" members)) rest f ∨
      Below (.key "line") (HasFault .line (Json.lookup "line" members)) rest f ∨
      Below (.key "column") (HasFault .column (Json.lookup "column" members)) rest f ∨
      Below (.key "children") (HasFault .children (Json.lookup "children" members)) rest f := by
  rw [hasFault_object_iff rfl]
  simp [Part.members, or_and_right, exists_or, and_assoc]

/-- The faults of a document are those of its three parts. -/
theorem hasFault_whole_iff {members : List (String × Json)} :
    HasFault .whole (some (.object members)) rest f ↔
      Below (.key "file") (HasFault .file (Json.lookup "file" members)) rest f ∨
      Below (.key "source") (HasFault .source (Json.lookup "source" members)) rest f ∨
      Below (.key "root") (HasFault .node (Json.lookup "root" members)) rest f := by
  rw [hasFault_object_iff rfl]
  simp [Part.members, or_and_right, exists_or, and_assoc]

theorem hasFault_array_iff {items : List Json} :
    HasFault .children (some (.array items)) rest f ↔ ∃ i item, items[i]? = some item ∧
      Below (.index i) (HasFault .node (some item)) rest f := by
  constructor
  · intro h
    cases h with
    | wrongShape hne => exact absurd rfl hne
    | item hitem h => exact ⟨_, _, hitem, _, rfl, h⟩
  · rintro ⟨i, item, hitem, path, rfl, h⟩
    exact .item hitem h

/-- A part that only has to be a string has no fault if it is one. -/
theorem not_hasFault_string (hpart : part = .file ∨ part = .source) {s : String} :
    ¬ HasFault part (some (.string s)) rest f := by
  intro h
  rcases hpart with rfl | rfl <;> cases h with
  | wrongShape hne => exact hne rfl

theorem hasFault_kind_iff {word : String} :
    HasFault .kind (some (.string word)) rest f ↔
      word ∉ kindNames ∧ rest = [] ∧ f = .otherWord kindNames word := by
  constructor
  · intro h
    cases h with
    | wrongShape hne => exact absurd rfl hne
    | otherWord hword => exact ⟨hword, rfl, rfl⟩
  · rintro ⟨hword, rfl, rfl⟩
    exact .otherWord hword

/-- A number that has to be whole and in a bound may lack the one, the other, or both. -/
theorem hasFault_number_iff {n : Number} {inBound : Number → Bool} {outside : Fault}
    (hshape : part.shape = .number)
    (hconstraints : part.constraints = [(Number.isWhole, .notWhole), (inBound, outside)]) :
    HasFault part (some (.number n)) rest f ↔
      rest = [] ∧ (n.isWhole = false ∧ f = .notWhole ∨ inBound n = false ∧ f = outside) := by
  constructor
  · intro h
    cases h with
    | wrongShape hne => exact absurd hshape.symm hne
    | unmet hmem hn =>
        rw [hconstraints, List.mem_pair, Prod.mk.injEq, Prod.mk.injEq] at hmem
        rcases hmem with ⟨rfl, rfl⟩ | ⟨rfl, rfl⟩
        · exact ⟨rfl, .inl ⟨hn, rfl⟩⟩
        · exact ⟨rfl, .inr ⟨hn, rfl⟩⟩
  · rintro ⟨rfl, ⟨hn, rfl⟩ | ⟨hn, rfl⟩⟩
    · refine .unmet ?_ hn
      rw [hconstraints]
      exact List.mem_cons_self
    · refine .unmet ?_ hn
      rw [hconstraints]
      exact List.mem_cons_of_mem _ List.mem_cons_self

end Document
end ClosingBrace
