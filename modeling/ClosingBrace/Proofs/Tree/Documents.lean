import ClosingBrace.Proofs.Tree.Loading
import ClosingBrace.Proofs.Tree.Planting

/-!
# Trees of documents

What the format says of a document carries over to its tree: additions lead to it, it has a root,
and all its nodes are placed. Conversely every outline of placed nodes can be written as a document,
and is found again when that document is loaded.

## Main statements

* `tree_of_load`: what is known of the tree of a document.
* `load_write`: an outline that is written as a document is loaded again.
-/

namespace ClosingBrace.Document

/-! ## Loaded trees -/

mutual

/-- All nodes of the format are placed. -/
theorem IsNode.placed : ∀ {json : Json} {o : Outline}, IsNode json o → o.All Placed
  | _, _, .object _ _ _ hplaced hchildren => by
      rw [Outline.All]
      exact ⟨hplaced, hchildren.placed⟩

theorem AreChildren.placed : ∀ {value : Option Json} {os : List Outline},
    AreChildren value os → Outline.AllOf Placed os
  | _, _, .missing => trivial
  | _, _, .array hnodes => hnodes.placed

theorem AreNodes.placed : ∀ {items : List Json} {os : List Outline},
    AreNodes items os → Outline.AllOf Placed os
  | _, _, .nil => trivial
  | _, _, .cons hnode hnodes => by
      rw [Outline.AllOf]
      exact ⟨hnode.placed, hnodes.placed⟩

end

theorem placed_of_check {data : Option Json} {d : Document} (h : check data = .ok d) :
    d.root.All Placed := by
  cases ((judges_check data).eq_ok_iff d).mp h with
  | object _ _ _ hroot => exact hroot.placed

/-- **The tree of a document** is one that additions lead to, it has a root, and its nodes are
placed. -/
theorem tree_of_load {data : Option Json} {name : String} {loaded : LoadedTree}
    (h : load data name = .ok loaded) :
    loaded.tree.Reachable ∧ 0 < loaded.tree.size ∧ loaded.tree.All Placed := by
  obtain ⟨d, hcheck, rfl⟩ := load_eq_ok_iff.mp h
  have hroot := placed_of_check hcheck
  exact ⟨Tree.reachable_ofOutline _ _, Tree.size_ofOutline_pos _ _, Tree.all_ofOutline _ hroot⟩

/-! ## Written outlines -/

mutual

/-- An outline as a value. -/
def write : Outline → Json
  | .node kind line column children =>
    writeNode (.string kind.name) (.number line) (.number column) (writeAll children)

/-- Several outlines as values. -/
def writeAll : List Outline → List Json
  | [] => []
  | o :: rest => write o :: writeAll rest

end

/-- The parts of a written node are found under their keys. -/
theorem isNode_writeNode {kind : Kind} {line column : Number} (hplaced : Placed line column)
    {children : List Json} {os : List Outline} (hos : AreNodes children os) :
    IsNode (writeNode (.string kind.name) (.number line) (.number column) children)
      (.node kind line column os) := by
  refine .object (by simp [Json.lookup]) (by simp [Json.lookup]) (by simp [Json.lookup]) hplaced ?_
  -- Children are written only if there are any.
  cases hos with
  | nil => simpa [Json.lookup] using AreChildren.missing
  | cons ho hos => simpa [Json.lookup] using AreChildren.array (.cons ho hos)

mutual

theorem isNode_write : ∀ o : Outline, o.All Placed → IsNode (write o) o
  | .node kind line column children, ho => by
      rw [Outline.All] at ho
      rw [write]
      exact isNode_writeNode ho.1 (areNodes_writeAll children ho.2)

theorem areNodes_writeAll : ∀ os : List Outline, Outline.AllOf Placed os →
    AreNodes (writeAll os) os
  | [], _ => by
      rw [writeAll]
      exact .nil
  | o :: rest, hos => by
      rw [Outline.AllOf] at hos
      rw [writeAll]
      exact .cons (isNode_write o hos.1) (areNodes_writeAll rest hos.2)

end

theorem check_write (source : String) {o : Outline} (ho : o.All Placed) :
    check (some (.object [("source", .string source), ("root", write o)])) =
      .ok ⟨none, source, o⟩ := by
  rw [(judges_check _).eq_ok_iff]
  exact .object (by simp [Json.lookup]) (by simp [Json.lookup]) (by simp [Json.lookup])
    (isNode_write o ho)

/-- A written outline of placed nodes is loaded again. -/
theorem load_write (source name : String) {o : Outline} (ho : o.All Placed) :
    load (some (.object [("source", .string source), ("root", write o)])) name =
      .ok ⟨name, source, Tree.ofOutline source o⟩ :=
  load_eq_ok_iff.mpr ⟨_, check_write source ho, rfl⟩

end ClosingBrace.Document
