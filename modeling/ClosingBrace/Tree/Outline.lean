import ClosingBrace.Tree.Basic

/-!
# Outlines

An outline is a tree as it is written down: a node with its kind and position, and below it the
outlines of its children. `Tree.ofOutline` enters an outline into a tree in pre-order, so that the
root has handle 0 and every node comes before its children and after everything to its left.

## Main statements

* `size_ofOutline`: the tree has a node for every node of the outline.
-/

namespace ClosingBrace

/-- A node with everything below it. -/
inductive Outline where
  | node (kind : Kind) (line column : Number) (children : List Outline)
deriving Inhabited

mutual

def Outline.size : Outline → Nat
  | .node _ _ _ children => 1 + Outline.sizes children

def Outline.sizes : List Outline → Nat
  | [] => 0
  | o :: rest => o.size + Outline.sizes rest

end

namespace Tree

mutual

/-- Enters an outline below `parent`, or as the root. -/
def plant (t : Tree) (parent : Option Handle) : Outline → Tree
  | .node kind line column children =>
    plantAll (t.attach kind line column parent).1 (t.attach kind line column parent).2 children

/-- Enters several outlines below `parent`, one after the other. -/
def plantAll (t : Tree) (parent : Handle) : List Outline → Tree
  | [] => t
  | o :: rest => plantAll (plant t (some parent) o) parent rest

end

def ofOutline (source : String) (outline : Outline) : Tree :=
  plant (empty source) none outline

/-! ### Laws -/

mutual

theorem size_plant (t : Tree) (parent : Option Handle) :
    ∀ o : Outline, (t.plant parent o).size = t.size + o.size
  | .node kind line column children => by
    rw [plant, size_plantAll, size_attach, Outline.size]
    omega

theorem size_plantAll (t : Tree) (parent : Handle) :
    ∀ os : List Outline, (t.plantAll parent os).size = t.size + Outline.sizes os
  | [] => by simp [plantAll, Outline.sizes]
  | o :: rest => by
    rw [plantAll, size_plantAll, size_plant, Outline.sizes]
    omega

end

theorem size_ofOutline (source : String) (o : Outline) : (ofOutline source o).size = o.size := by
  rw [ofOutline, size_plant]
  simp [empty, size]

end Tree
end ClosingBrace
