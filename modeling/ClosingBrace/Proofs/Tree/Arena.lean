import ClosingBrace.Tree.Navigation

/-!
# The arena of a tree

A tree says three times how its nodes hang together: a node names its parent, it remembers its place
among its siblings, and the parent lists its children. `WellFormed` says that the three agree, that
handles grow from parents to children, and that only the first node is a root. Adding a node keeps
this, whatever was added before and however many additions were refused on the way. Lines and
columns have no part in it, so they may be of any type.

## Main statements

* `Reachable.wellFormed`: every tree that additions lead to is well formed.
* `reachable_replay`: a run of requests, some of them refused, leads to a reachable tree.
-/

namespace ClosingBrace.Tree

variable {α : Type}

/-! ## Views

What reading a node gives, with nothing in place of an error. Proofs speak of these; the lemmas
`children_eq_ok_iff` and `parent_eq_ok_iff` lead back to reading. -/

/-- The children of a node; none for a handle that has not been given out. -/
def kids (t : Tree α) (h : Handle) : List Handle := ((t.nodes[h]?).map (·.children.toList)).getD []

/-- The parent of a node; absent for the root and for a handle that has not been given out. -/
def above? (t : Tree α) (h : Handle) : Option Handle := (t.nodes[h]?).bind (·.parent)

/-- The place that a node remembers to have among the children of its parent. -/
def place (t : Tree α) (h : Handle) : Nat := ((t.nodes[h]?).map (·.index)).getD 0

/-- The kind of a node. -/
def kindAt (t : Tree α) (h : Handle) : Kind := ((t.nodes[h]?).map (·.kind)).getD default

/-- The line of a node. -/
def lineAt [Inhabited α] (t : Tree α) (h : Handle) : α :=
  ((t.nodes[h]?).map (·.line)).getD default

/-- The column of a node. -/
def columnAt [Inhabited α] (t : Tree α) (h : Handle) : α :=
  ((t.nodes[h]?).map (·.column)).getD default

/-- The sibling just after a node. -/
def right? (t : Tree α) (h : Handle) : Option Handle :=
  (t.above? h).bind fun p => (t.kids p)[t.place h + 1]?

/-- The sibling just before a node. -/
def left? (t : Tree α) (h : Handle) : Option Handle :=
  (t.above? h).bind fun p => if t.place h = 0 then none else (t.kids p)[t.place h - 1]?

theorem kids_of_getElem? {t : Tree α} {h : Handle} {n : Node α} (hn : t.nodes[h]? = some n) :
    t.kids h = n.children.toList := by
  simp [kids, hn]

theorem above?_of_getElem? {t : Tree α} {h : Handle} {n : Node α} (hn : t.nodes[h]? = some n) :
    t.above? h = n.parent := by
  simp [above?, hn]

theorem place_of_getElem? {t : Tree α} {h : Handle} {n : Node α} (hn : t.nodes[h]? = some n) :
    t.place h = n.index := by
  simp [place, hn]

/-- A handle that has not been given out has no links. -/
theorem links_of_not_lt {t : Tree α} {h : Handle} (hh : ¬ h < t.size) :
    t.kids h = [] ∧ t.above? h = none := by
  have hnone : t.nodes[h]? = none := Array.getElem?_eq_none (Nat.le_of_not_lt hh)
  simp [kids, above?, hnone]

theorem lt_of_above? {t : Tree α} {h p : Handle} (hp : t.above? h = some p) : h < t.size := by
  refine Decidable.byContradiction fun hh => ?_
  rw [(links_of_not_lt hh).2] at hp
  cases hp

theorem children_eq_ok_iff {t : Tree α} {h : Handle} {cs : List Handle} :
    t.children h = .ok cs ↔ h < t.size ∧ t.kids h = cs := by
  by_cases hh : h < t.size
  · have hn : t.nodes[h]? = some t.nodes[h] := Array.getElem?_eq_getElem hh
    simp [children, node_of_lt hh, kids_of_getElem? hn, hh, bind, Except.bind, pure, Except.pure]
  · simp [children, node_of_not_lt hh, hh, bind, Except.bind]

theorem kind_of_lt {t : Tree α} {h : Handle} (hh : h < t.size) : t.kind h = .ok (t.kindAt h) := by
  simp [kind, kindAt, node_of_lt hh, Array.getElem?_eq_getElem hh, bind, Except.bind, pure,
    Except.pure]

theorem kind_eq_ok_iff {t : Tree α} {h : Handle} {k : Kind} :
    t.kind h = .ok k ↔ h < t.size ∧ t.kindAt h = k := by
  by_cases hh : h < t.size
  · simp [kind_of_lt hh, hh]
  · simp [kind, node_of_not_lt hh, hh, bind, Except.bind]

theorem line_of_lt [Inhabited α] {t : Tree α} {h : Handle} (hh : h < t.size) :
    t.line h = .ok (t.lineAt h) := by
  simp [line, lineAt, node_of_lt hh, Array.getElem?_eq_getElem hh, bind, Except.bind, pure,
    Except.pure]

theorem column_of_lt [Inhabited α] {t : Tree α} {h : Handle} (hh : h < t.size) :
    t.column h = .ok (t.columnAt h) := by
  simp [column, columnAt, node_of_lt hh, Array.getElem?_eq_getElem hh, bind, Except.bind, pure,
    Except.pure]

theorem parent_eq_ok_iff {t : Tree α} {h : Handle} {p : Option Handle} :
    t.parent h = .ok p ↔ h < t.size ∧ t.above? h = p := by
  by_cases hh : h < t.size
  · have hn : t.nodes[h]? = some t.nodes[h] := Array.getElem?_eq_getElem hh
    simp [parent, node_of_lt hh, above?_of_getElem? hn, hh, bind, Except.bind, pure, Except.pure]
  · simp [parent, node_of_not_lt hh, hh, bind, Except.bind]

theorem children_of_lt {t : Tree α} {h : Handle} (hh : h < t.size) :
    t.children h = .ok (t.kids h) :=
  children_eq_ok_iff.mpr ⟨hh, rfl⟩

theorem parent_of_lt {t : Tree α} {h : Handle} (hh : h < t.size) : t.parent h = .ok (t.above? h) :=
  parent_eq_ok_iff.mpr ⟨hh, rfl⟩

/-- A node has a parent only if it has been given out. -/
theorem parent_eq_some_iff {t : Tree α} {h p : Handle} :
    t.parent h = .ok (some p) ↔ t.above? h = some p := by
  rw [parent_eq_ok_iff]
  exact ⟨And.right, fun hp => ⟨lt_of_above? hp, hp⟩⟩

/-! ## The invariant -/

/-- The links of a tree agree: a child is listed by its parent alone, once, at the place that it
remembers. -/
structure WellFormed (t : Tree α) : Prop where
  root_eq : t.root? = if t.size = 0 then none else some 0
  above?_lt : ∀ {h p}, t.above? h = some p → p < h
  root_of_above? : ∀ {h}, h < t.size → t.above? h = none → h = 0
  kids_iff : ∀ {p i h}, (t.kids p)[i]? = some h ↔ t.above? h = some p ∧ t.place h = i
  kids_sorted : ∀ p, (t.kids p).Pairwise (· < ·)

theorem wellFormed_empty (source : String) : WellFormed (empty source : Tree α) := by
  constructor <;> simp [empty, size, kids, above?]

/-! ### What an addition changes -/

section Attach
variable (t : Tree α) (kind : Kind) (line column : α)

theorem getElem?_attach_none (h : Handle) :
    (t.attach kind line column none).1.nodes[h]? =
      if h = t.size then some ⟨kind, line, column, none, 0, #[]⟩ else t.nodes[h]? :=
  Array.getElem?_push

/-- Below a parent, the new node comes last among its children and remembers that place. -/
theorem getElem?_attach_some {p : Handle} (hp : p < t.size) (h : Handle) :
    (t.attach kind line column (some p)).1.nodes[h]? =
      if h = t.size then some ⟨kind, line, column, some p, (t.kids p).length, #[]⟩
      else if h = p then
        (t.nodes[h]?).map fun n => { n with children := n.children.push t.size }
      else t.nodes[h]? := by
  have hn : t.nodes[p]? = some t.nodes[p] := Array.getElem?_eq_getElem hp
  simp only [attach, size, Array.getElem?_push, Array.size_modify, Array.getElem?_modify, hn,
    kids_of_getElem? hn, Option.map_some, Option.getD_some, Array.length_toList, eq_comm (a := p)]

theorem kids_attach_none (h : Handle) : (t.attach kind line column none).1.kids h = t.kids h := by
  unfold kids
  rw [getElem?_attach_none]
  split
  · next heq => simp [heq, size]
  · rfl

theorem kids_attach_some {p : Handle} (hp : p < t.size) (h : Handle) :
    (t.attach kind line column (some p)).1.kids h =
      if h = p then t.kids p ++ [t.size] else t.kids h := by
  unfold kids
  rw [getElem?_attach_some t kind line column hp]
  by_cases hhp : h = p
  · subst hhp
    rw [if_neg (Nat.ne_of_lt hp), if_pos rfl, if_pos rfl]
    simp [Array.getElem?_eq_getElem hp]
  · rw [if_neg hhp, if_neg hhp]
    split
    · next heq => simp [heq, size]
    · rfl

/-- The only new entry in a list of children is the new handle, at the end of that of `p`. -/
theorem getElem?_kids_attach_some {p : Handle} (hp : p < t.size) (q i h : Nat) :
    ((t.attach kind line column (some p)).1.kids q)[i]? = some h ↔
      (t.kids q)[i]? = some h ∨ q = p ∧ h = t.size ∧ i = (t.kids p).length := by
  rw [kids_attach_some t kind line column hp]
  by_cases hqp : q = p
  · subst hqp
    rw [if_pos rfl, List.getElem?_append]
    grind
  · rw [if_neg hqp]
    simp [hqp]

/-- A node that was there before keeps everything but its children. -/
theorem map_getElem?_attach {β : Type} (read : Node α → β)
    (hread : ∀ n children, read { n with children := children } = read n) {parent : Option Handle}
    (hparent : ∀ p ∈ parent, p < t.size) {h : Handle} (hh : h ≠ t.size) :
    ((t.attach kind line column parent).1.nodes[h]?).map read = (t.nodes[h]?).map read := by
  cases parent with
  | none => rw [getElem?_attach_none, if_neg hh]
  | some p =>
      rw [getElem?_attach_some t kind line column (hparent p rfl), if_neg hh]
      split
      · rw [Option.map_map]
        exact congrArg (Option.map · _) (funext fun n => hread n _)
      · rfl

/-- The new node is what was asked for. -/
theorem getElem?_attach_size {parent : Option Handle} (hparent : ∀ p ∈ parent, p < t.size) :
    ∃ index, (t.attach kind line column parent).1.nodes[t.size]? =
      some ⟨kind, line, column, parent, index, #[]⟩ := by
  cases parent with
  | none =>
      rw [getElem?_attach_none, if_pos rfl]
      exact ⟨0, rfl⟩
  | some p =>
      rw [getElem?_attach_some t kind line column (hparent p rfl), if_pos rfl]
      exact ⟨_, rfl⟩

theorem above?_attach {parent : Option Handle} (hparent : ∀ p ∈ parent, p < t.size) (h : Handle) :
    (t.attach kind line column parent).1.above? h =
      if h = t.size then parent else t.above? h := by
  by_cases hh : h = t.size
  · obtain ⟨index, hnew⟩ := getElem?_attach_size t kind line column hparent
    rw [if_pos hh, hh, above?_of_getElem? hnew]
  · have hold := map_getElem?_attach t kind line column (·.parent) (fun _ _ => rfl) hparent hh
    have hjoin (u : Tree α) : u.above? h = ((u.nodes[h]?).map (·.parent)).join := by
      unfold above?
      cases u.nodes[h]? <;> rfl
    rw [if_neg hh, hjoin, hold, ← hjoin]

theorem lineAt_attach [Inhabited α] {parent : Option Handle} (hparent : ∀ p ∈ parent, p < t.size)
    (h : Handle) :
    (t.attach kind line column parent).1.lineAt h = if h = t.size then line else t.lineAt h := by
  unfold lineAt
  split
  · next hh =>
      obtain ⟨index, hnew⟩ := getElem?_attach_size t kind line column hparent
      rw [hh, hnew]
      rfl
  · next hh => rw [map_getElem?_attach t kind line column (·.line) (fun _ _ => rfl) hparent hh]

theorem columnAt_attach [Inhabited α] {parent : Option Handle} (hparent : ∀ p ∈ parent, p < t.size)
    (h : Handle) :
    (t.attach kind line column parent).1.columnAt h =
      if h = t.size then column else t.columnAt h := by
  unfold columnAt
  split
  · next hh =>
      obtain ⟨index, hnew⟩ := getElem?_attach_size t kind line column hparent
      rw [hh, hnew]
      rfl
  · next hh => rw [map_getElem?_attach t kind line column (·.column) (fun _ _ => rfl) hparent hh]

theorem place_attach_none (h : Handle) :
    (t.attach kind line column none).1.place h = t.place h := by
  unfold place
  rw [getElem?_attach_none]
  split
  · next heq => simp [heq, size]
  · rfl

theorem place_attach_some {p : Handle} (hp : p < t.size) (h : Handle) :
    (t.attach kind line column (some p)).1.place h =
      if h = t.size then (t.kids p).length else t.place h := by
  unfold place
  rw [getElem?_attach_some t kind line column hp]
  split
  · rfl
  · split
    · cases t.nodes[h]? <;> rfl
    · rfl

end Attach

/-! ### What keeps the invariant -/

theorem WellFormed.kids_getElem?_lt {t : Tree α} (ht : t.WellFormed) {p i h : Handle}
    (hi : (t.kids p)[i]? = some h) : p < h ∧ h < t.size := by
  have hp := (ht.kids_iff.mp hi).1
  exact ⟨ht.above?_lt hp, lt_of_above? hp⟩

/-- The new node is no child yet, and it has no children. -/
theorem WellFormed.kids_getElem?_size {t : Tree α} (ht : t.WellFormed) (p i : Nat) :
    (t.kids p)[i]? ≠ some t.size := by
  intro hi
  exact Nat.lt_irrefl _ (ht.kids_getElem?_lt hi).2

/-- A tree without a root is empty. -/
theorem WellFormed.size_eq_zero {t : Tree α} (ht : t.WellFormed) (hroot : t.root? = none) :
    t.size = 0 := by
  refine Decidable.byContradiction fun hne => ?_
  rw [ht.root_eq, if_neg hne] at hroot
  cases hroot

theorem WellFormed.attach_root {t : Tree α} (ht : t.WellFormed) (hroot : t.root? = none)
    (kind : Kind) (line column : α) : (t.attach kind line column none).1.WellFormed := by
  have hsize := ht.size_eq_zero hroot
  have habove (h : Handle) : (t.attach kind line column none).1.above? h = t.above? h := by
    rw [above?_attach _ _ _ _ (by simp)]
    split
    · next heq => rw [heq, (links_of_not_lt (Nat.lt_irrefl _)).2]
    · rfl
  constructor
  · show some t.size = _
    rw [size_attach, hsize]
    rfl
  · intro h p hp
    exact ht.above?_lt (habove h ▸ hp)
  · -- The new node is the only one.
    intro h hh _
    rw [size_attach, hsize] at hh
    exact Nat.lt_one_iff.mp hh
  · intro p i h
    rw [kids_attach_none, habove, place_attach_none]
    exact ht.kids_iff
  · intro p
    rw [kids_attach_none]
    exact ht.kids_sorted p

theorem WellFormed.attach_child {t : Tree α} (ht : t.WellFormed) {p : Handle} (hp : p < t.size)
    (kind : Kind) (line column : α) :
    (t.attach kind line column (some p)).1.WellFormed := by
  have hparent : ∀ q ∈ some p, q < t.size := by simpa using hp
  have habove := above?_attach t kind line column hparent
  constructor
  · show t.root? = _
    rw [size_attach, ht.root_eq, if_neg (Nat.ne_zero_of_lt hp), if_neg (Nat.succ_ne_zero _)]
  · intro h q hq
    rw [habove] at hq
    split at hq
    · next heq => cases hq; exact heq ▸ hp
    · exact ht.above?_lt hq
  · intro h hh hnone
    rw [habove] at hnone
    rw [size_attach] at hh
    split at hnone
    · cases hnone
    · next hne =>
        exact ht.root_of_above? (Nat.lt_of_le_of_ne (Nat.le_of_lt_succ hh) hne) hnone
  · intro q i h
    rw [getElem?_kids_attach_some _ _ _ _ hp, habove, place_attach_some _ _ _ _ hp]
    by_cases hh : h = t.size
    · -- The new handle is listed nowhere so far.
      subst hh
      rw [if_pos rfl, if_pos rfl]
      constructor
      · rintro (hi | ⟨rfl, -, rfl⟩)
        · exact absurd hi (ht.kids_getElem?_size q i)
        · exact ⟨rfl, rfl⟩
      · rintro ⟨hpq, rfl⟩
        exact .inr ⟨(Option.some.inj hpq).symm, rfl, rfl⟩
    · rw [if_neg hh, if_neg hh, ht.kids_iff]
      exact ⟨fun hi => hi.resolve_right fun h => hh h.2.1, .inl⟩
  · intro q
    rw [kids_attach_some _ _ _ _ hp]
    split
    · -- The new handle is greater than every handle so far, and it is appended.
      rw [List.pairwise_append]
      refine ⟨ht.kids_sorted p, List.pairwise_singleton _ _, fun a ha b hb => ?_⟩
      obtain ⟨i, hi⟩ := List.getElem?_of_mem ha
      rw [List.mem_singleton.mp hb]
      exact (ht.kids_getElem?_lt hi).2
    · exact ht.kids_sorted q

/-! ## Reachable trees -/

/-- An addition that succeeds adds one node, as the root of a tree without one or below a node of
the tree. -/
theorem addNode_eq_ok {t t' : Tree α} {kind : Kind} {line column : α} {parent : Option Handle}
    {new : Handle} (h : t.addNode kind line column parent = .ok (t', new)) :
    (t', new) = t.attach kind line column parent ∧
      (parent = none ∧ t.root? = none ∨ ∃ p, parent = some p ∧ p < t.size) := by
  cases parent with
  | none =>
      cases hroot : t.root? with
      | some r => simp [addNode, hroot] at h
      | none =>
          rw [addNode_root hroot] at h
          exact ⟨(Except.ok.inj h).symm, .inl ⟨rfl, rfl⟩⟩
  | some p =>
      by_cases hp : p < t.size
      · rw [addNode_child hp] at h
        exact ⟨(Except.ok.inj h).symm, .inr ⟨p, rfl, hp⟩⟩
      · simp [addNode, node_of_not_lt hp, bind, Except.bind] at h

/-- The trees that additions lead to, in any order and with any arguments. -/
inductive Reachable : Tree α → Prop
  | empty (source : String) : Reachable (empty source)
  | add {t t' : Tree α} {kind : Kind} {line column : α} {parent : Option Handle} {new : Handle} :
      Reachable t → t.addNode kind line column parent = .ok (t', new) → Reachable t'

theorem WellFormed.addNode {t t' : Tree α} (ht : t.WellFormed) {kind : Kind} {line column : α}
    {parent : Option Handle} {new : Handle}
    (h : t.addNode kind line column parent = .ok (t', new)) : t'.WellFormed := by
  obtain ⟨heq, ⟨rfl, hroot⟩ | ⟨p, rfl, hp⟩⟩ := addNode_eq_ok h
  · rw [show t' = _ from congrArg Prod.fst heq]
    exact ht.attach_root hroot kind line column
  · rw [show t' = _ from congrArg Prod.fst heq]
    exact ht.attach_child hp kind line column

/-- **The links agree in every tree that additions lead to.** -/
theorem Reachable.wellFormed {t : Tree α} (h : Reachable t) : t.WellFormed := by
  induction h with
  | empty source => exact wellFormed_empty source
  | add _ hadd ih => exact ih.addNode hadd

/-! ### Runs of requests -/

/-- A request for a node. The parent is named by a number, which need not be a handle at all. -/
structure Request (α : Type := Number) where
  kind : Kind
  line : α
  column : α
  parent : Option Number

/-- The answer to a request. -/
def Request.answer (r : Request α) (t : Tree α) : Except Error (Tree α × Handle) := do
  match r.parent with
  | none => t.addNode r.kind r.line r.column none
  | some x => t.addNode r.kind r.line r.column (some (← t.resolve x))

/-- The tree after a request; a refused request leaves it as it was. -/
def after (t : Tree α) (r : Request α) : Tree α :=
  match r.answer t with
  | .ok (t', _) => t'
  | .error _ => t

/-- The tree after any number of requests, granted or refused. -/
def replay (source : String) (requests : List (Request α)) : Tree α :=
  requests.foldl after (empty source)

theorem Reachable.after {t : Tree α} (ht : Reachable t) (r : Request α) :
    Reachable (t.after r) := by
  unfold Tree.after
  split
  · next t' new hanswer =>
      unfold Request.answer at hanswer
      cases hparent : r.parent with
      | none =>
          rw [hparent] at hanswer
          exact ht.add hanswer
      | some x =>
          cases hx : t.resolve x with
          | error e => simp [hparent, hx, bind, Except.bind] at hanswer
          | ok p =>
              simp only [hparent, hx, bind, Except.bind] at hanswer
              exact ht.add hanswer
  · exact ht

theorem reachable_replay (source : String) (requests : List (Request α)) :
    Reachable (replay source requests) := by
  have hfold : ∀ (rs : List (Request α)) (t : Tree α), Reachable t →
      Reachable (rs.foldl after t) := by
    intro rs
    induction rs with
    | nil => exact fun _ ht => ht
    | cons r rs ih => exact fun t ht => ih (t.after r) (ht.after r)
  exact hfold requests _ (.empty source)

end ClosingBrace.Tree
