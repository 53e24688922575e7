import ClosingBrace.Proofs.Brace.Verdicts
import ClosingBrace.Proofs.Number.Whole
import ClosingBrace.Proofs.Text.Displaced
import ClosingBrace.Proofs.Tree.Format
import ClosingBrace.Proofs.Tree.Planting

/-!
# Displaced trees

A tree is displaced by moving every node down by a number of lines and right by a number of columns,
and its source with them. As long as the positions stay below the limit up to which whole numbers
are exact, no two nodes change their order: the displaced tree is like the old one, and what stands
before a node on its line is blank exactly when it was.

## Main statements

* `Tree.ofOutline_displace`: a displaced outline is entered as the displaced tree.
* `Tree.alike_displace`: displaced nodes cannot be told from the old ones.
* `Tree.startsLine_displace`: they start a line when the old ones do.
-/

namespace ClosingBrace

variable {k c : Nat}

/-- A node, `k` lines further down and `c` columns further right. -/
def Node.displace (k c : Nat) (n : Node) : Node :=
  { n with line := n.line + .ofNat k, column := n.column + .ofNat c }

mutual

/-- An outline with every node `k` lines further down and `c` columns further right. -/
def Outline.displace (k c : Nat) : Outline → Outline
  | .node kind line column children =>
    .node kind (line + .ofNat k) (column + .ofNat c) (displaceAll k c children)

def Outline.displaceAll (k c : Nat) : List Outline → List Outline
  | [] => []
  | o :: rest => o.displace k c :: displaceAll k c rest

end

namespace Tree

variable {t : Tree} {h : Handle}

/-- A tree with its nodes and its source `k` lines further down and `c` columns further right. -/
def displace (k c : Nat) (t : Tree) : Tree where
  lines := (Text.displaceLines k c t.lines.toList).toArray
  nodes := t.nodes.map (Node.displace k c)
  root? := t.root?

/-! ## Entering a displaced outline -/

theorem empty_displace (k c : Nat) (source : String) :
    empty (Text.displace k c source) = (empty source).displace k c := by
  simp [empty, displace, Text.splitLines_displace]

theorem map_modify_displace (nodes : Array Node) (p child : Handle) :
    (nodes.modify p fun n => { n with children := n.children.push child }).map
        (Node.displace k c) =
      (nodes.map (Node.displace k c)).modify p
        fun n => { n with children := n.children.push child } := by
  apply Array.ext
  · simp
  · intro i hi hi'
    simp only [Array.getElem_map, Array.getElem_modify]
    split <;> rfl

/-- Adding a node and displacing can be done in either order. -/
theorem attach_displace (t : Tree) (kind : Kind) (line column : Number)
    (parent : Option Handle) :
    (t.displace k c).attach kind (line + .ofNat k) (column + .ofNat c) parent =
      ((t.attach kind line column parent).1.displace k c,
        (t.attach kind line column parent).2) := by
  cases parent with
  | none => simp [attach, displace, size, Node.displace]
  | some p =>
      have hindex : (fun n : Node => n.children.size) ∘ Node.displace k c =
          fun n => n.children.size := rfl
      simp [attach, displace, size, Node.displace, map_modify_displace, hindex]

mutual

theorem plant_displace (t : Tree) (parent : Option Handle) : ∀ o : Outline,
    (t.displace k c).plant parent (o.displace k c) = (t.plant parent o).displace k c
  | .node kind line column children => by
      rw [Outline.displace, plant, plant, attach_displace]
      exact plantAll_displace _ _ children

theorem plantAll_displace (t : Tree) (parent : Handle) : ∀ os : List Outline,
    (t.displace k c).plantAll parent (Outline.displaceAll k c os) =
      (t.plantAll parent os).displace k c
  | [] => by
      rw [Outline.displaceAll, plantAll, plantAll]
  | o :: rest => by
      rw [Outline.displaceAll, plantAll, plantAll, plant_displace, plantAll_displace]

end

/-- **A displaced outline is entered as the displaced tree.** -/
theorem ofOutline_displace (k c : Nat) (source : String) (o : Outline) :
    ofOutline (Text.displace k c source) (o.displace k c) = (ofOutline source o).displace k c := by
  rw [ofOutline, ofOutline, empty_displace, plant_displace]

/-! ## Reading a displaced tree -/

theorem getElem?_nodes_displace (h : Handle) :
    (t.displace k c).nodes[h]? = t.nodes[h]?.map (Node.displace k c) :=
  Array.getElem?_map

@[simp] theorem size_displace : (t.displace k c).size = t.size := Array.size_map

@[simp] theorem kids_displace : (t.displace k c).kids h = t.kids h := by
  rw [kids, kids, getElem?_nodes_displace, Option.map_map]
  rfl

@[simp] theorem above?_displace : (t.displace k c).above? h = t.above? h := by
  rw [above?, above?, getElem?_nodes_displace, Option.bind_map]
  rfl

@[simp] theorem place_displace : (t.displace k c).place h = t.place h := by
  rw [place, place, getElem?_nodes_displace, Option.map_map]
  rfl

@[simp] theorem kindAt_displace : (t.displace k c).kindAt h = t.kindAt h := by
  rw [kindAt, kindAt, getElem?_nodes_displace, Option.map_map]
  rfl

theorem lineAt_displace (hh : h < t.size) :
    (t.displace k c).lineAt h = t.lineAt h + .ofNat k := by
  have hn : t.nodes[h]? = some t.nodes[h] := Array.getElem?_eq_getElem hh
  simp [lineAt, getElem?_nodes_displace, hn, Node.displace]

theorem columnAt_displace (hh : h < t.size) :
    (t.displace k c).columnAt h = t.columnAt h + .ofNat c := by
  have hn : t.nodes[h]? = some t.nodes[h] := Array.getElem?_eq_getElem hh
  simp [columnAt, getElem?_nodes_displace, hn, Node.displace]

/-- Displacing leaves all links as they are. -/
theorem sameLinks_displace (t : Tree) : SameLinks t (t.displace k c) :=
  ⟨rfl, size_displace, fun _ => kids_displace, fun _ => above?_displace, fun _ => place_displace⟩

end Tree

/-! ## Positions that can be displaced -/

/-- A line counted from 1 and a column counted from 0 that can be displaced and stay exact. -/
structure Displaceable (k c : Nat) (line column : Number) : Prop where
  line : ∃ m, line = .ofNat (m + 1) ∧ m + 1 + k < Number.wholeLimit
  column : ∃ n, column = .ofNat n ∧ n + c < Number.wholeLimit

/-- A position that stays below the limit can be displaced. -/
theorem Placed.displaceable {line column : Number} (hplaced : Placed line column)
    (hline : line.toRat + k < Number.wholeLimit) (hcolumn : column.toRat + c < Number.wholeLimit) :
    Displaceable k c line column := by
  have hk : (0 : Rat) ≤ k := Nat.cast_nonneg k
  have hc : (0 : Rat) ≤ c := Nat.cast_nonneg c
  obtain ⟨⟨hwhole, hpos⟩, hwhole', hnonneg⟩ := hplaced
  constructor
  · obtain ⟨m, hm, rfl⟩ := Number.exists_eq_ofNat hwhole hpos.le (by linarith)
    have hm0 : 0 < m := (Number.ofNat_lt_ofNat (Nat.zero_le _) hm).mp hpos
    obtain ⟨i, rfl⟩ := Nat.exists_eq_succ_of_ne_zero hm0.ne'
    rw [Number.toRat_ofNat_of_small hm] at hline
    exact ⟨i, rfl, by exact_mod_cast hline⟩
  · obtain ⟨n, hn, rfl⟩ := Number.exists_eq_ofNat hwhole' hnonneg (by linarith)
    rw [Number.toRat_ofNat_of_small hn] at hcolumn
    exact ⟨n, rfl, by exact_mod_cast hcolumn⟩

theorem placed_ofNat {m n : Nat} (hm : m + 1 ≤ Number.wholeLimit) (hn : n ≤ Number.wholeLimit) :
    Placed (.ofNat (m + 1)) (.ofNat n) := by
  refine ⟨⟨Number.isWhole_ofNat hm, ?_⟩, Number.isWhole_ofNat hn, ?_⟩
  · exact (Number.ofNat_lt_ofNat (Nat.zero_le _) hm).mpr (Nat.succ_pos m)
  · exact (Number.ofNat_le_ofNat (Nat.zero_le _) hn).mpr (Nat.zero_le n)

namespace Displaceable
variable {line column line' column' : Number}

/-- Lines that are displaced together keep their order. -/
theorem line_lt_iff (h : Displaceable k c line column) (h' : Displaceable k c line' column') :
    line + .ofNat k < line' + .ofNat k ↔ line < line' := by
  obtain ⟨m, rfl, hm⟩ := h.line
  obtain ⟨m', rfl, hm'⟩ := h'.line
  exact Number.ofNat_add_lt_iff hm.le hm'.le

theorem line_inj (h : Displaceable k c line column) (h' : Displaceable k c line' column') :
    line + .ofNat k = line' + .ofNat k ↔ line = line' := by
  obtain ⟨m, rfl, hm⟩ := h.line
  obtain ⟨m', rfl, hm'⟩ := h'.line
  exact Number.ofNat_add_inj hm.le hm'.le

theorem column_lt_iff (h : Displaceable k c line column) (h' : Displaceable k c line' column') :
    column + .ofNat c < column' + .ofNat c ↔ column < column' := by
  obtain ⟨n, rfl, hn⟩ := h.column
  obtain ⟨n', rfl, hn'⟩ := h'.column
  exact Number.ofNat_add_lt_iff hn.le hn'.le

/-- A position that can be displaced is one of a document. -/
theorem placed (h : Displaceable k c line column) : Placed line column := by
  obtain ⟨m, rfl, hm⟩ := h.line
  obtain ⟨n, rfl, hn⟩ := h.column
  exact placed_ofNat (by omega) (by omega)

/-- So is the position that it is displaced to. -/
theorem placed_displaced (h : Displaceable k c line column) :
    Placed (line + .ofNat k) (column + .ofNat c) := by
  obtain ⟨m, rfl, hm⟩ := h.line
  obtain ⟨n, rfl, hn⟩ := h.column
  rw [Number.ofNat_add_ofNat hm.le, Number.ofNat_add_ofNat hn.le, Nat.add_right_comm m 1 k]
  exact placed_ofNat (by omega) hn.le

/-- Counting from 1 and displacing can be done in either order. -/
theorem column_add_one (h : Displaceable k c line column) :
    column + .ofNat c + 1 = column + 1 + .ofNat c := by
  obtain ⟨n, rfl, hn⟩ := h.column
  show Number.ofNat n + .ofNat c + .ofNat 1 = .ofNat n + .ofNat 1 + .ofNat c
  rw [Number.ofNat_add_ofNat hn.le, Number.ofNat_add_ofNat hn, Number.ofNat_add_ofNat (by omega),
    Number.ofNat_add_ofNat (by omega), Nat.add_right_comm]

end Displaceable

namespace Tree

variable {t : Tree} {h : Handle}

/-! ## Displaced nodes are like the old ones -/

/-- **Displaced nodes cannot be told from the old ones.** -/
theorem alike_displace (ht : t.WellFormed) (hall : t.All (Displaceable k c)) :
    Alike t.Same t (t.displace k c) := by
  refine ht.alike_of_same ((sameLinks_displace t).wellFormed ht) size_displace (fun _ _ => kindAt_displace)
    (fun _ _ => kids_displace) ?_ ?_
  · intro a b ha hb
    rw [lineAt_displace ha, lineAt_displace hb]
    exact (hall a ha).line_inj (hall b hb)
  · intro a b ha hb
    simp only [position, Prod.Lex.toLex_lt_toLex, lineAt_displace ha, lineAt_displace hb,
      columnAt_displace ha, columnAt_displace hb, (hall a ha).line_inj (hall b hb),
      (hall a ha).line_lt_iff (hall b hb), (hall a ha).column_lt_iff (hall b hb)]

end Tree

/-! ## The start of a line -/

theorem blankBefore_ofNat {n : Nat} (hn : n ≤ Number.wholeLimit) (line : String) :
    blankBefore (.ofNat n) line = Text.blankWithin n line.toList :=
  blankBefore_of_toNat? (Number.toNat?_ofNat hn) line

/-- An indented line starts with blanks as far as the old one does. -/
theorem blankBefore_indent {n : Nat} (hn : n + c ≤ Number.wholeLimit) (line : String) :
    blankBefore (.ofNat (n + c)) (Text.indent c line) = blankBefore (.ofNat n) line := by
  rw [blankBefore_ofNat hn, blankBefore_ofNat (by omega), Text.indent, String.toList_ofList,
    Text.blankWithin_indent]

namespace Tree

variable {t : Tree} {h : Handle}

theorem sourceLine_ofNat (t : Tree) {m : Nat} (hm : m + 1 ≤ Number.wholeLimit) :
    t.sourceLine (.ofNat (m + 1)) = t.lines[m]?.getD "" := by
  apply sourceLine_of_index
  rw [Number.ofNat_sub_one hm, Number.toNat?_ofNat (Nat.le_of_succ_le hm)]

/-- A line of the source is found indented, `k` lines further down; outside the source there is
none. -/
theorem sourceLine_displace (t : Tree) {m : Nat} (hm : m + 1 + k ≤ Number.wholeLimit) :
    (t.displace k c).sourceLine (.ofNat (m + 1 + k)) =
      (t.lines[m]?.map (Text.indent c)).getD "" := by
  have hm' : m + k + 1 ≤ Number.wholeLimit := by omega
  rw [Nat.add_right_comm m 1 k, sourceLine_ofNat _ hm', displace, List.getElem?_toArray,
    Text.getElem?_displaceLines, Array.getElem?_toList]

/-- **Displaced nodes start a line when the old ones do.** -/
theorem startsLine_displace (hall : t.All (Displaceable k c)) (hh : h < t.size) :
    (t.displace k c).startsLine h = t.startsLine h := by
  obtain ⟨⟨m, hline, hm⟩, n, hcolumn, hn⟩ := hall h hh
  have hmle : m + 1 ≤ Number.wholeLimit := by omega
  rw [startsLine, startsLine, lineAt_displace hh, columnAt_displace hh, hline, hcolumn,
    Number.ofNat_add_ofNat hm.le, Number.ofNat_add_ofNat hn.le, sourceLine_displace t hm.le,
    sourceLine_ofNat t hmle]
  cases t.lines[m]? with
  | some line => exact blankBefore_indent hn.le line
  | none =>
      -- Below the end of the source both lines are empty.
      show blankBefore _ "" = blankBefore _ ""
      rw [blankBefore_ofNat hn.le, blankBefore_ofNat (by omega), String.toList_empty,
        Text.blankWithin_nil, Text.blankWithin_nil]

end Tree
end ClosingBrace
