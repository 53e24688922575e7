import ClosingBrace.Proofs.Brace.Verdicts
import ClosingBrace.Proofs.Tree.Format
import ClosingBrace.Proofs.Tree.Planting

/-!
# One tree over two sources

The nodes of a tree and the lines of its source are kept apart, so the same nodes can be laid over
another source. Nothing about the nodes changes by that: the two trees are alike, and every node has
the same closing brace in both. All that may differ is whether a node starts its line, and an edit
right of the closing braces leaves that as it is for each of them.

## Main statements

* `ofOutline_onSource`: an outline is entered over each source in the same way.
* `alike_onSource`: nodes cannot be told from the same nodes over another source.
* `startsLine_onSource`: an edit right of the closing braces is not noticed at any of them.
-/

namespace ClosingBrace
namespace Tree

variable {t : Tree} {h : Handle}

/-- The nodes of a tree over another source. -/
def onSource (source : String) (t : Tree) : Tree :=
  { t with lines := (Text.splitLines source).toArray }

/-! ## Entering an outline -/

theorem attach_onSource (source : String) (t : Tree) (kind : Kind) (line column : Number)
    (parent : Option Handle) :
    (t.onSource source).attach kind line column parent =
      ((t.attach kind line column parent).1.onSource source,
        (t.attach kind line column parent).2) := by
  cases parent <;> rfl

mutual

theorem plant_onSource (source : String) (t : Tree) (parent : Option Handle) : ∀ o : Outline,
    (t.onSource source).plant parent o = (t.plant parent o).onSource source
  | .node kind line column children => by
      rw [plant, plant, attach_onSource]
      exact plantAll_onSource source _ _ children

theorem plantAll_onSource (source : String) (t : Tree) (parent : Handle) : ∀ os : List Outline,
    (t.onSource source).plantAll parent os = (t.plantAll parent os).onSource source
  | [] => by
      rw [plantAll, plantAll]
  | o :: rest => by
      rw [plantAll, plantAll, plant_onSource, plantAll_onSource]

end

/-- **An outline is entered over each source in the same way.** -/
theorem ofOutline_onSource (source source' : String) (o : Outline) :
    ofOutline source' o = (ofOutline source o).onSource source' :=
  plant_onSource source' (empty source) none o

theorem lines_ofOutline (source : String) (o : Outline) :
    (ofOutline source o).lines = (Text.splitLines source).toArray := by
  rw [ofOutline_onSource source source o]
  rfl

end Tree

/-- The tree of a document has the lines of its source. -/
theorem Document.lines_of_load {data : Option Json} {name : String} {loaded : LoadedTree}
    (h : load data name = .ok loaded) :
    loaded.tree.lines = (Text.splitLines loaded.source).toArray := by
  obtain ⟨document, -, rfl⟩ := load_eq_ok_iff.mp h
  exact Tree.lines_ofOutline document.source document.root

namespace Tree

variable {t : Tree} {h : Handle}

/-! ## The nodes -/

/-- Laying a tree over another source leaves all links as they are. -/
theorem WellFormed.onSource (ht : t.WellFormed) (source : String) :
    (t.onSource source).WellFormed where
  root_eq := ht.root_eq
  above?_lt := ht.above?_lt
  root_of_above? := ht.root_of_above?
  kids_iff := ht.kids_iff
  kids_sorted := ht.kids_sorted

/-- **Nodes cannot be told from the same nodes over another source.** -/
theorem WellFormed.alike_onSource (ht : t.WellFormed) (source : String) :
    Alike t.Same t (t.onSource source) :=
  ht.alike_of_same (ht.onSource source) rfl (fun _ _ => rfl) (fun _ _ => rfl)
    (fun _ _ _ _ => Iff.rfl) fun _ _ _ _ => Iff.rfl

/-! ## The starts of lines -/

/-- The closing brace of a construct stands on line `i` of the source, counted from 0, at column
`n`. -/
def HasBraceAt (t : Tree) (i n : Nat) : Prop :=
  ∃ construct brace, t.closingBrace? construct = some brace ∧
    (t.lineAt brace - 1).toNat? = some i ∧ (t.columnAt brace).toNat? = some n

/-- **An edit right of the closing braces** is not noticed at any of them. -/
theorem WellFormed.startsLine_onSource (ht : t.WellFormed) (hall : t.All Placed)
    {source source' : String} (hlines : t.lines = (Text.splitLines source).toArray)
    (hedit : Text.EditedRightOf t.HasBraceAt source source') {construct brace : Handle}
    (hbrace : t.closingBrace? construct = some brace) :
    t.startsLine brace = (t.onSource source').startsLine brace := by
  obtain ⟨-, hwhole, hnonneg⟩ := hall brace (ht.closingBrace?_lt hbrace).2
  obtain ⟨n, hn⟩ := Number.exists_toNat? hwhole hnonneg
  show blankBefore (t.columnAt brace) (t.sourceLine (t.lineAt brace)) =
    blankBefore (t.columnAt brace) ((t.onSource source').sourceLine (t.lineAt brace))
  rw [blankBefore_of_toNat? hn, blankBefore_of_toNat? hn]
  cases hi : (t.lineAt brace - 1).toNat? with
  | none => rw [sourceLine_of_no_index t hi, sourceLine_of_no_index _ hi]
  | some i =>
      have hlines' : (t.onSource source').lines = (Text.splitLines source').toArray := rfl
      rw [sourceLine_of_index t hi, sourceLine_of_index _ hi, hlines, hlines',
        List.getElem?_toArray, List.getElem?_toArray]
      exact (hedit.blankWithin_eq ⟨construct, brace, hbrace, hi, hn⟩).symm

end Tree
end ClosingBrace
