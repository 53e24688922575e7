import ClosingBrace.Proofs.Tree.Planting
import ClosingBrace.Proofs.Tree.Ranks

/-!
# Outlines in a tree

A planted outline is found again in the tree: its nodes have the next handles, in pre-order, and the
nodes that were there before keep everything but the children of the one below which it was planted.
So each part of the outline, which is a node with everything below it, has an interval of handles to
itself, and reading the tree from the first of them gives the part back.

## Main statements

* `holds_plant`: a planted outline has the next handles, and all else stays.
* `Holds.part`, `Holds.listed`: where the parts of an outline are, and the pre-order of the tree.
* `Holds.outlineWithin_eq`: reading an outline back.
-/

namespace ClosingBrace

/-! ## Parts -/

mutual

/-- Every node of an outline with everything below it, in pre-order. -/
def Outline.parts : Outline → List Outline
  | .node kind line column children => .node kind line column children :: Outline.partsOf children

def Outline.partsOf : List Outline → List Outline
  | [] => []
  | o :: rest => o.parts ++ Outline.partsOf rest

end

mutual

theorem Outline.length_parts : ∀ o : Outline, o.parts.length = o.size
  | .node kind line column children => by
      rw [parts, size, List.length_cons, length_partsOf, Nat.add_comm]

theorem Outline.length_partsOf : ∀ os : List Outline, (partsOf os).length = sizes os
  | [] => rfl
  | o :: rest => by
      rw [partsOf, sizes, List.length_append, length_parts, length_partsOf]

end

/-- The handles of several outlines that follow one another, from `first` on. -/
def Outline.tops (first : Handle) : List Outline → List Handle
  | [] => []
  | o :: rest => first :: Outline.tops (first + o.size) rest

namespace Tree

variable {t u v : Tree} {kind : Kind} {line column : Number} {parent : Option Handle}

/-! ## What planting leaves alone -/

/-- All nodes of `t` are in `u` as they were, but `parent` has `tops` as further children. -/
def Extended (t u : Tree) (parent : Option Handle) (tops : List Handle) : Prop :=
  ∀ h < t.size, u.nodes[h]? =
    if parent = some h then
      (t.nodes[h]?).map fun n => { n with children := n.children ++ tops.toArray }
    else t.nodes[h]?

theorem extended_attach (hroom : t.Room parent) :
    t.Extended (t.attach kind line column parent).1 parent [t.size] := by
  intro h hh
  cases parent with
  | none => simp [getElem?_attach_none, Nat.ne_of_lt hh]
  | some p =>
      rw [getElem?_attach_some _ _ _ _ hroom, if_neg (Nat.ne_of_lt hh)]
      simp [eq_comm]

/-- What is added below a new node does not show in the nodes that were there before. -/
theorem Extended.below (htu : t.Extended u parent [t.size]) (hsize : t.size < u.size)
    {tops : List Handle} (huv : u.Extended v (some t.size) tops) :
    t.Extended v parent [t.size] := by
  intro h hh
  rw [huv h (hh.trans hsize), if_neg (by simpa using Nat.ne_of_gt hh), htu h hh]

/-- What is added below one node in two steps comes in that order. -/
theorem Extended.append {as bs : List Handle} (htu : t.Extended u parent as)
    (hsize : t.size ≤ u.size) (huv : u.Extended v parent bs) : t.Extended v parent (as ++ bs) := by
  intro h hh
  rw [huv h (Nat.lt_of_lt_of_le hh hsize), htu h hh]
  by_cases hp : parent = some h
  · simp [hp, Function.comp_def]
  · simp [hp]

/-! ## Where an outline is -/

mutual

/-- The nodes from `first` on are those of an outline, in pre-order. -/
def Holds (t : Tree) (first : Handle) : Outline → Prop
  | .node kind line column children =>
    (∃ parent index, t.nodes[first]? =
      some ⟨kind, line, column, parent, index, (Outline.tops (first + 1) children).toArray⟩) ∧
    t.HoldsAll (first + 1) children

/-- The nodes from `first` on are those of several outlines, one after the other. -/
def HoldsAll (t : Tree) (first : Handle) : List Outline → Prop
  | [] => True
  | o :: rest => t.Holds first o ∧ t.HoldsAll (first + o.size) rest

end

mutual

/-- Where an outline is depends on its own handles only. -/
theorem Holds.congr {first : Nat} : ∀ {o : Outline}, t.Holds first o →
    (∀ m : Nat, first ≤ m → m < first + o.size → u.nodes[m]? = t.nodes[m]?) → u.Holds first o
  | .node kind line column children, hholds, hsame => by
      rw [Holds] at hholds ⊢
      rw [Outline.size] at hsame
      refine ⟨?_, hholds.2.congr fun m hge hlt => hsame m (by omega) (by omega)⟩
      rw [hsame first (Nat.le_refl _) (by omega)]
      exact hholds.1

theorem HoldsAll.congr {first : Nat} : ∀ {os : List Outline}, t.HoldsAll first os →
    (∀ m : Nat, first ≤ m → m < first + Outline.sizes os → u.nodes[m]? = t.nodes[m]?) →
      u.HoldsAll first os
  | [], _, _ => trivial
  | o :: rest, hholds, hsame => by
      rw [HoldsAll] at hholds ⊢
      rw [Outline.sizes] at hsame
      exact ⟨hholds.1.congr fun m hge hlt => hsame m hge (by omega),
        hholds.2.congr fun m hge hlt => hsame m (by omega) (by omega)⟩

end

mutual

/-- **A planted outline has the next handles**, in pre-order, and apart from the new child of the
parent nothing else changes. -/
theorem holds_plant {t : Tree} {parent : Option Handle} (hroom : t.Room parent) :
    ∀ o : Outline, t.Extended (t.plant parent o) parent [t.size] ∧
      (t.plant parent o).Holds t.size o
  | .node kind line column children => by
      rw [plant, attach_snd, Holds]
      have hlt : t.size < (t.attach kind line column parent).1.size := by simp
      obtain ⟨hbefore, hchildren⟩ := holds_plantAll hlt children
      rw [size_attach] at hbefore hchildren
      refine ⟨(extended_attach hroom).below hlt hbefore, ?_, hchildren⟩
      obtain ⟨index, hnew⟩ := getElem?_attach_size t kind line column hroom.lt_size
      refine ⟨parent, index, ?_⟩
      rw [hbefore t.size hlt, if_pos rfl, hnew]
      simp

theorem holds_plantAll {t : Tree} {p : Handle} (hp : p < t.size) :
    ∀ os : List Outline, t.Extended (t.plantAll p os) (some p) (Outline.tops t.size os) ∧
      (t.plantAll p os).HoldsAll t.size os
  | [] => by
      rw [plantAll, HoldsAll, Outline.tops]
      exact ⟨fun h hh => by simp, trivial⟩
  | o :: rest => by
      rw [plantAll, HoldsAll, Outline.tops]
      have hroom : t.Room (some p) := hp
      obtain ⟨hbefore, hfirst⟩ := holds_plant hroom o
      have hsize : (t.plant (some p) o).size = t.size + o.size := size_plant t _ o
      obtain ⟨hlater, hrest⟩ := holds_plantAll (hroom.plant o) rest
      rw [hsize] at hlater hrest
      refine ⟨hbefore.append (by omega) hlater, ?_, hrest⟩
      -- What is planted later does not touch the nodes of the first outline.
      apply hfirst.congr
      intro m hge hlt
      have hne : p ≠ m := Nat.ne_of_lt (Nat.lt_of_lt_of_le hp hge)
      rw [hlater m (hsize ▸ hlt), if_neg (by simpa using hne)]

end

theorem holds_ofOutline (source : String) (o : Outline) : (ofOutline source o).Holds 0 o :=
  (holds_plant (room_empty source) o).2

/-! ## Parts of an outline in a tree -/

mutual

/-- **The parts of an outline begin at consecutive handles.** -/
theorem Holds.part {first : Handle} : ∀ {o : Outline}, t.Holds first o → ∀ {i : Nat}
    {part : Outline}, o.parts[i]? = some part → t.Holds (first + i) part
  | .node kind line column children, hholds, 0, part, hpart => by
      rw [Outline.parts, List.getElem?_cons_zero] at hpart
      cases hpart
      exact hholds
  | .node kind line column children, hholds, i + 1, part, hpart => by
      rw [Outline.parts, List.getElem?_cons_succ] at hpart
      rw [Holds] at hholds
      have hbelow := hholds.2.part hpart
      rwa [Nat.add_assoc, Nat.add_comm 1] at hbelow

theorem HoldsAll.part {first : Handle} : ∀ {os : List Outline}, t.HoldsAll first os → ∀ {i : Nat}
    {part : Outline}, (Outline.partsOf os)[i]? = some part → t.Holds (first + i) part
  | [], _, i, part, hpart => by simp [Outline.partsOf] at hpart
  | o :: rest, hholds, i, part, hpart => by
      rw [HoldsAll] at hholds
      rw [Outline.partsOf, List.getElem?_append, o.length_parts] at hpart
      split at hpart
      · exact hholds.1.part hpart
      · next hge =>
          have hlater := hholds.2.part hpart
          rwa [Nat.add_assoc, Nat.add_sub_cancel' (Nat.le_of_not_lt hge)] at hlater

end

theorem Holds.node_eq {first : Handle} {children : List Outline}
    (hholds : t.Holds first (.node kind line column children)) :
    t.kind first = .ok kind ∧ t.line first = .ok line ∧ t.column first = .ok column ∧
      t.children first = .ok (Outline.tops (first + 1) children) := by
  rw [Holds] at hholds
  obtain ⟨⟨parent, index, hn⟩, -⟩ := hholds
  simp [Tree.kind, Tree.line, Tree.column, Tree.children, node, hn, bind, Except.bind, pure,
    Except.pure]

mutual

/-- The handles of an outline are in pre-order. -/
theorem Holds.listed {first : Handle} : ∀ {o : Outline}, t.Holds first o →
    t.Listed [first] (List.range' first o.size)
  | .node kind line column children, hholds => by
      rw [Outline.size, Nat.add_comm, List.range'_succ]
      have hchildren := hholds.node_eq.2.2.2
      rw [Holds] at hholds
      exact .singleton hchildren hholds.2.listed

theorem HoldsAll.listed {first : Handle} : ∀ {os : List Outline}, t.HoldsAll first os →
    t.Listed (Outline.tops first os) (List.range' first (Outline.sizes os))
  | [], _ => .nil
  | o :: rest, hholds => by
      rw [HoldsAll] at hholds
      rw [Outline.sizes, ← List.range'_append_1]
      exact hholds.1.listed.append hholds.2.listed

end

/-! ## Reading an outline back -/

/-- The outline of a subtree, read from its top through the children. There is none if a handle is
unknown or if there are more than so many levels. -/
def outlineWithin (t : Tree) : (levels : Nat) → Handle → Option Outline
  | 0, _ => none
  | levels + 1, h => do
    let kind ← (t.kind h).toOption
    let line ← (t.line h).toOption
    let column ← (t.column h).toOption
    let children ← (t.children h).toOption
    return .node kind line column (← children.mapM (t.outlineWithin levels))

mutual

/-- **Reading the tree from the first handle of an outline gives the outline back.** No more levels
are needed than it has nodes. -/
theorem Holds.outlineWithin_eq {first : Handle} : ∀ {o : Outline}, t.Holds first o →
    ∀ {levels : Nat}, o.size ≤ levels → t.outlineWithin levels first = some o
  | .node kind line column children, _, 0, hlevels => by
      rw [Outline.size] at hlevels
      omega
  | .node kind line column children, hholds, levels + 1, hlevels => by
      obtain ⟨hkind, hline, hcolumn, hchildren⟩ := hholds.node_eq
      rw [Holds] at hholds
      rw [Outline.size] at hlevels
      have hbelow := hholds.2.mapM_outlineWithin (by omega : Outline.sizes children ≤ levels)
      rw [outlineWithin, hkind, hline, hcolumn, hchildren]
      simp [Except.toOption, hbelow]

theorem HoldsAll.mapM_outlineWithin {first : Handle} : ∀ {os : List Outline},
    t.HoldsAll first os → ∀ {levels : Nat}, Outline.sizes os ≤ levels →
      (Outline.tops first os).mapM (t.outlineWithin levels) = some os
  | [], _, _, _ => rfl
  | o :: rest, hholds, levels, hlevels => by
      rw [HoldsAll] at hholds
      rw [Outline.sizes] at hlevels
      rw [Outline.tops, List.mapM_cons, hholds.1.outlineWithin_eq (by omega),
        hholds.2.mapM_outlineWithin (by omega)]
      rfl

end

end Tree

end ClosingBrace
