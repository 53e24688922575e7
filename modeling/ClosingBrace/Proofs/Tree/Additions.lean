import ClosingBrace.Proofs.Outcome
import ClosingBrace.Proofs.Tree.Links
import ClosingBrace.Proofs.Tree.Planting

/-!
# What an addition changes

A request for a node is refused, and then nothing at all has happened, or it is granted. A granted
request gives out the next handle and puts the new node at the end of the children of its parent. No
other reading of the nodes that were there before changes, except that the former last child of the
parent now has a next sibling; the first node becomes the root.

## Main statements

* `WellFormed.right?_attach`, `WellFormed.left?_attach`: siblings after an addition.
* `WellFormed.added_attach`: everything that reading shows of an addition.
* `Request.Refused.perform_eq`, `Request.Names.perform_eq`: the single writes of a request.
* `request_changes_least`: requests, granted or refused, in any state that requests lead to.
-/

namespace ClosingBrace.Tree

variable {t u : Tree} {kind : Kind} {line column : Number} {parent : Option Handle}

/-! ## Siblings -/

section Child
variable {p h : Handle}

/-- A child has its place in the list of its parent, and is the last one if the list ends there. -/
theorem WellFormed.place_lt (ht : t.WellFormed) (hp : t.above? h = some p) :
    t.place h < (t.kids p).length ∧
      ((t.kids p).getLast? = some h ↔ t.place h + 1 = (t.kids p).length) := by
  have hat : (t.kids p)[t.place h]? = some h := ht.kids_iff.mpr ⟨hp, rfl⟩
  have hlt := (List.getElem?_eq_some_iff.mp hat).1
  refine ⟨hlt, ?_⟩
  rw [ht.getLast?_kids_iff]
  simp only [right?, hp, Option.bind_some, List.getElem?_eq_none_iff, true_and]
  omega

/-- A node that was there before keeps its previous sibling. -/
theorem WellFormed.left?_attach (ht : t.WellFormed) (hp : p < t.size) (hh : h ≠ t.size) :
    (t.attach kind line column (some p)).1.left? h = t.left? h := by
  unfold left?
  rw [above?_attach _ _ _ _ (by simpa using hp), if_neg hh, place_attach_some _ _ _ _ hp, if_neg hh]
  cases hq : t.above? h with
  | none => rfl
  | some q =>
      have hlt := (ht.place_lt hq).1
      rw [Option.bind_some, Option.bind_some, kids_attach_some _ _ _ _ hp]
      by_cases hqp : q = p
      · subst hqp
        rw [if_pos rfl, List.getElem?_append_left (by omega)]
      · rw [if_neg hqp]

/-- The former last child of the parent has the new node as its next sibling, and every other node
keeps the one it had. -/
theorem WellFormed.right?_attach (ht : t.WellFormed) (hp : p < t.size) (hh : h ≠ t.size) :
    (t.attach kind line column (some p)).1.right? h =
      if (t.kids p).getLast? = some h then some t.size else t.right? h := by
  have hnot (hne : t.above? h ≠ some p) : (t.kids p).getLast? ≠ some h :=
    fun hlast => hne (ht.getLast?_kids_iff.mp hlast).1
  unfold right?
  rw [above?_attach _ _ _ _ (by simpa using hp), if_neg hh, place_attach_some _ _ _ _ hp, if_neg hh]
  cases hq : t.above? h with
  | none => rw [if_neg (hnot (by simp [hq]))]; rfl
  | some q =>
      obtain ⟨hlt, hlast⟩ := ht.place_lt hq
      rw [Option.bind_some, Option.bind_some, kids_attach_some _ _ _ _ hp]
      by_cases hqp : q = p
      · subst hqp
        rw [if_pos rfl]
        split
        · next hend =>
            rw [hlast.mp hend, List.getElem?_append_right (Nat.le_refl _), Nat.sub_self]
            rfl
        · next hinside =>
            have hne := mt hlast.mpr hinside
            rw [List.getElem?_append_left (by omega)]
      · rw [if_neg hqp, if_neg (hnot (by simpa [hq] using hqp))]

end Child

/-! ## Reading -/

/-- What is read from a node is the same in two trees if the node has it in both. -/
theorem read_congr {β : Type} (read : Node → β) {h : Handle}
    (heq : (u.nodes[h]?).map read = (t.nodes[h]?).map read) :
    (do return read (← u.node h) : Except Error β) = do return read (← t.node h) := by
  unfold node
  cases hu : u.nodes[h]? <;> cases ht : t.nodes[h]? <;> rw [hu, ht] at heq
  case some.some => exact congrArg Except.ok (Option.some.inj heq)
  all_goals cases heq

/-- A node reads the same in both trees, but for what is below it and on its right. -/
structure SameButBelow (t u : Tree) (h : Handle) : Prop where
  kind : u.kind h = t.kind h
  line : u.line h = t.line h
  column : u.column h = t.column h
  parent : u.parent h = t.parent h
  previousSibling : u.previousSibling h = t.previousSibling h

/-- What reading shows of an addition: `u` is `t` with one more node, of the kind and at the place
asked for, as the root or below `parent`. -/
structure Added (t u : Tree) (kind : Kind) (line column : Number) (parent : Option Handle)
    (new : Handle) : Prop where
  /-- The next handle is given out. -/
  new_eq : new = t.size
  size_eq : u.size = t.size + 1
  sourceLine : ∀ n, u.sourceLine n = t.sourceLine n
  /-- The new node is as asked for, with nothing below it and nothing on its right. -/
  asked : u.kind new = .ok kind ∧ u.line new = .ok line ∧ u.column new = .ok column ∧
    u.parent new = .ok parent
  leaf : u.children new = .ok [] ∧ u.nextSibling new = .ok none
  /-- Without a parent it is the first node and becomes the root. -/
  root : parent = none → t.size = 0 ∧ u.root = .ok new ∧ u.previousSibling new = .ok none
  /-- A parent has it as one more child, next to the last child so far. The root stays. -/
  child : ∀ p, parent = some p → u.root = t.root ∧ ∃ cs, t.children p = .ok cs ∧
    u.children p = .ok (cs ++ [new]) ∧ u.previousSibling new = .ok cs.getLast? ∧
      ∀ last, cs.getLast? = some last → u.nextSibling last = .ok (some new)
  /-- Everything else is as it was. -/
  same : ∀ h, h ≠ new → SameButBelow t u h
  children_same : ∀ h, h ≠ new → parent ≠ some h → u.children h = t.children h
  nextSibling_same : ∀ h, h ≠ new → (∀ p, parent = some p → t.lastChild p ≠ .ok (some h)) →
    u.nextSibling h = t.nextSibling h

/-- An addition to a place that is free keeps the links in agreement. -/
theorem WellFormed.attach (ht : t.WellFormed) (hroom : t.Room parent) :
    (t.attach kind line column parent).1.WellFormed := by
  cases parent with
  | none => exact ht.attach_root hroom kind line column
  | some p => exact ht.attach_child hroom kind line column

section Old
variable {h : Handle}

/-- Of the nodes that were there before only the parent is written to. -/
theorem getElem?_attach_of_ne (hroom : t.Room parent) (hh : h ≠ t.size) (hp : parent ≠ some h) :
    (t.attach kind line column parent).1.nodes[h]? = t.nodes[h]? := by
  cases parent with
  | none => rw [getElem?_attach_none, if_neg hh]
  | some p =>
      rw [getElem?_attach_some _ _ _ _ hroom, if_neg hh, if_neg]
      rintro rfl
      exact hp rfl

theorem previousSibling_of_not_lt (hh : ¬ h < t.size) :
    t.previousSibling h = .error (.unknownHandle (.ofNat h)) := by
  simp [previousSibling, node_of_not_lt hh, bind, Except.bind]

theorem nextSibling_of_not_lt (hh : ¬ h < t.size) :
    t.nextSibling h = .error (.unknownHandle (.ofNat h)) := by
  simp [nextSibling, node_of_not_lt hh, bind, Except.bind]

theorem not_lt_size_attach (hh : h ≠ t.size) (hlt : ¬ h < t.size) :
    ¬ h < (t.attach kind line column parent).1.size := by
  rw [size_attach]
  exact fun h => hlt (Nat.lt_of_le_of_ne (Nat.le_of_lt_succ h) hh)

theorem lt_size_attach (hlt : h < t.size) : h < (t.attach kind line column parent).1.size := by
  rw [size_attach]
  exact Nat.lt_succ_of_lt hlt

/-- The previous sibling reads as before, also for a handle that is still not given out. -/
theorem WellFormed.previousSibling_attach (ht : t.WellFormed) (hroom : t.Room parent)
    (hh : h ≠ t.size) :
    (t.attach kind line column parent).1.previousSibling h = t.previousSibling h := by
  by_cases hlt : h < t.size
  · rw [(ht.attach hroom).previousSibling_of_lt (lt_size_attach hlt), ht.previousSibling_of_lt hlt]
    cases parent with
    | none => exact absurd hlt (by simp [ht.size_eq_zero hroom])
    | some p => rw [ht.left?_attach hroom hh]
  · rw [previousSibling_of_not_lt hlt, previousSibling_of_not_lt (not_lt_size_attach hh hlt)]

/-- So does the next sibling, but for the former last child of the parent. -/
theorem WellFormed.nextSibling_attach (ht : t.WellFormed) (hroom : t.Room parent)
    (hh : h ≠ t.size) (hlast : ∀ p, parent = some p → t.lastChild p ≠ .ok (some h)) :
    (t.attach kind line column parent).1.nextSibling h = t.nextSibling h := by
  by_cases hlt : h < t.size
  · rw [(ht.attach hroom).nextSibling_of_lt (lt_size_attach hlt), ht.nextSibling_of_lt hlt]
    cases parent with
    | none => exact absurd hlt (by simp [ht.size_eq_zero hroom])
    | some p =>
        have hne := hlast p rfl
        rw [lastChild_of_lt hroom, Ne, Except.ok.injEq] at hne
        rw [ht.right?_attach hroom hh, if_neg hne]
  · rw [nextSibling_of_not_lt hlt, nextSibling_of_not_lt (not_lt_size_attach hh hlt)]

theorem WellFormed.sameButBelow_attach (ht : t.WellFormed) (hroom : t.Room parent)
    (hh : h ≠ t.size) : SameButBelow t (t.attach kind line column parent).1 h where
  kind := read_congr (·.kind)
    (map_getElem?_attach t kind line column _ (fun _ _ => rfl) hroom.lt_size hh)
  line := read_congr (·.line)
    (map_getElem?_attach t kind line column _ (fun _ _ => rfl) hroom.lt_size hh)
  column := read_congr (·.column)
    (map_getElem?_attach t kind line column _ (fun _ _ => rfl) hroom.lt_size hh)
  parent := read_congr (·.parent)
    (map_getElem?_attach t kind line column _ (fun _ _ => rfl) hroom.lt_size hh)
  previousSibling := ht.previousSibling_attach hroom hh

end Old

/-! ## The new node -/

theorem lines_attach : (t.attach kind line column parent).1.lines = t.lines := by
  cases parent <;> rfl

/-- The new node is what was asked for, and it has no children. -/
theorem node_attach_size (kind : Kind) (line column : Number) (hroom : t.Room parent) : ∃ index,
    (t.attach kind line column parent).1.node t.size =
      .ok ⟨kind, line, column, parent, index, #[]⟩ := by
  obtain ⟨index, hnew⟩ := getElem?_attach_size t kind line column hroom.lt_size
  exact ⟨index, by simp [node, hnew]⟩

theorem size_lt_attach (t : Tree) (kind : Kind) (line column : Number) (parent : Option Handle) :
    t.size < (t.attach kind line column parent).1.size := by
  rw [size_attach]
  exact Nat.lt_succ_self _

/-- Below a parent the new node stands just after the last child so far. -/
theorem WellFormed.previousSibling_attach_size (ht : t.WellFormed) {p : Handle}
    (hp : p < t.size) :
    (t.attach kind line column (some p)).1.previousSibling t.size = .ok (t.kids p).getLast? := by
  have hroom : t.Room (some p) := hp
  rw [(ht.attach hroom).previousSibling_of_lt (size_lt_attach ..), left?,
    above?_attach _ _ _ _ hroom.lt_size, if_pos rfl, Option.bind_some,
    place_attach_some _ _ _ _ hp, if_pos rfl, kids_attach_some _ _ _ _ hp, if_pos rfl]
  cases hkids : t.kids p with
  | nil => rfl
  | cons c cs =>
      rw [List.getLast?_eq_getElem?, List.getElem?_append_left (by simp)]
      rfl

/-- Nothing stands on the right of the new node. -/
theorem WellFormed.nextSibling_attach_size (ht : t.WellFormed) (hroom : t.Room parent) :
    (t.attach kind line column parent).1.nextSibling t.size = .ok none := by
  rw [(ht.attach hroom).nextSibling_of_lt (size_lt_attach ..), right?,
    above?_attach _ _ _ _ hroom.lt_size, if_pos rfl]
  cases parent with
  | none => rfl
  | some p =>
      rw [Option.bind_some, place_attach_some _ _ _ _ hroom, kids_attach_some _ _ _ _ hroom]
      simp

/-- **An addition adds a node and changes nothing else.** -/
theorem WellFormed.added_attach (ht : t.WellFormed) (hroom : t.Room parent) :
    t.Added (t.attach kind line column parent).1 kind line column parent t.size where
  new_eq := rfl
  size_eq := size_attach t kind line column parent
  sourceLine := by
    intro n
    unfold sourceLine
    rw [lines_attach]
  asked := by
    obtain ⟨index, hnode⟩ := node_attach_size kind line column hroom
    refine ⟨?_, ?_, ?_, ?_⟩ <;>
      simp [Tree.kind, Tree.line, Tree.column, Tree.parent, hnode, ok_bind, pure, Except.pure]
  leaf := by
    obtain ⟨index, hnode⟩ := node_attach_size kind line column hroom
    refine ⟨?_, ht.nextSibling_attach_size hroom⟩
    simp [children, hnode, ok_bind, pure, Except.pure]
  root := by
    rintro rfl
    refine ⟨ht.size_eq_zero hroom, rfl, ?_⟩
    rw [(ht.attach hroom).previousSibling_of_lt (size_lt_attach ..), left?,
      above?_attach _ _ _ _ (by simp), if_pos rfl]
    rfl
  child := by
    rintro p rfl
    refine ⟨rfl, t.kids p, children_of_lt hroom, ?_, ht.previousSibling_attach_size hroom, ?_⟩
    · rw [children_of_lt (lt_size_attach hroom), kids_attach_some _ _ _ _ hroom, if_pos rfl]
    · intro last hlast
      have hlt := (ht.lt_of_mem_kids (List.mem_of_getLast? hlast)).2
      rw [(ht.attach hroom).nextSibling_of_lt (lt_size_attach hlt),
        ht.right?_attach hroom (Nat.ne_of_lt hlt), if_pos hlast]
  same := fun h hh => ht.sameButBelow_attach hroom hh
  children_same := fun h hh hp =>
    read_congr (·.children.toList) (congrArg _ (getElem?_attach_of_ne hroom hh hp))
  nextSibling_same := fun h hh hlast => ht.nextSibling_attach hroom hh hlast

/-! ## Requests -/

/-- A number names a node if it is the handle of one. -/
theorem resolve_eq_ok_iff {x : Number} {h : Handle} :
    t.resolve x = .ok h ↔ x.toNat? = some h ∧ h < t.size := by
  unfold resolve
  cases x.toNat? with
  | none => simp
  | some n =>
      by_cases hn : n < t.size
      · simp only [hn, if_true, Except.ok.injEq, Option.some.injEq]
        exact ⟨fun heq => ⟨heq, heq ▸ hn⟩, And.left⟩
      · simp only [hn, if_false, Option.some.injEq]
        constructor
        · rintro ⟨⟩
        · rintro ⟨rfl, hlt⟩
          exact absurd hlt hn

/-- A number that names no node is what the error speaks of. -/
theorem resolve_eq_error_iff {x : Number} {e : Error} :
    t.resolve x = .error e ↔
      e = .unknownHandle x ∧ ∀ h, x.toNat? = some h → ¬ h < t.size := by
  unfold resolve
  cases x.toNat? with
  | none => simp [eq_comm]
  | some n =>
      by_cases hn : n < t.size
      · simp [hn]
      · simp [hn, Nat.le_of_not_lt hn, eq_comm]

/-- The parent that a request names: none at all, or the node of which it gives the handle. -/
inductive Request.Names (r : Request) (t : Tree) : Option Handle → Prop
  | nothing : r.parent = none → r.Names t none
  | node {x : Number} {h : Handle} : r.parent = some x → x.toNat? = some h → h < t.size →
      r.Names t (some h)

/-- The requests that are refused: for a second root, and for a child of no node of the tree. -/
inductive Request.Refused (r : Request) (t : Tree) : Error → Prop
  | secondRoot {root : Handle} : r.parent = none → t.root = .ok root → r.Refused t .duplicateRoot
  | unknownParent {x : Number} : r.parent = some x →
      (∀ h, x.toNat? = some h → ¬ h < t.size) → r.Refused t (.unknownHandle x)

theorem root_eq_ok_iff_root? {h : Handle} : t.root = .ok h ↔ t.root? = some h := by
  unfold root
  cases t.root? <;> simp

/-- An addition to a place that is free is granted. -/
theorem Request.Names.answer_eq {r : Request} (hnames : r.Names t parent) (hroom : t.Room parent) :
    r.answer t = .ok (t.attach r.kind r.line r.column parent) := by
  cases hnames with
  | nothing hnone =>
      unfold Request.answer
      rw [hnone]
      exact hroom.addNode_eq _ _ _
  | node hx hh hlt =>
      unfold Request.answer
      rw [hx]
      simp only [resolve_eq_ok_iff.mpr ⟨hh, hlt⟩, ok_bind]
      exact hroom.addNode_eq _ _ _

theorem Request.Refused.answer_eq {r : Request} {e : Error} (hrefused : r.Refused t e) :
    r.answer t = .error e := by
  cases hrefused with
  | secondRoot hnone hroot =>
      unfold Request.answer
      rw [hnone]
      simp [addNode, root_eq_ok_iff_root?.mp hroot]
  | unknownParent hx hno =>
      unfold Request.answer
      rw [hx]
      simp only [resolve_eq_error_iff.mpr ⟨rfl, hno⟩]
      rfl

/-- A request is refused, or it names a place that is free. -/
theorem Request.refused_or_room (r : Request) (t : Tree) :
    (∃ e, r.Refused t e) ∨ ∃ parent, r.Names t parent ∧ t.Room parent := by
  cases hparent : r.parent with
  | none =>
      cases hroot : t.root? with
      | none => exact .inr ⟨none, .nothing hparent, hroot⟩
      | some h => exact .inl ⟨_, .secondRoot hparent (root_eq_ok_iff_root?.mpr hroot)⟩
  | some x =>
      cases hx : t.resolve x with
      | ok h =>
          obtain ⟨hh, hlt⟩ := resolve_eq_ok_iff.mp hx
          exact .inr ⟨some h, .node hparent hh hlt, hlt⟩
      | error e => exact .inl ⟨_, .unknownParent hparent (resolve_eq_error_iff.mp hx).2⟩

/-! ## Single writes -/

/-- Steps on a tree, with what has been written staying when a later step fails. -/
abbrev Writing : Type → Type := ExceptT Error (StateM Tree)

/-- A request carried out write by write. -/
def Request.perform (r : Request) : Writing Handle := do
  let h := (← get).size
  match r.parent with
  | none =>
    if (← get).root?.isSome then throw .duplicateRoot
    modify fun t => { t with root? := some h }
    modify fun t => { t with nodes := t.nodes.push ⟨r.kind, r.line, r.column, none, 0, #[]⟩ }
    return h
  | some x =>
    let p ← (← get).resolve x
    let index := (← (← get).children p).length
    modify fun t => { t with nodes := t.nodes.push ⟨r.kind, r.line, r.column, some p, index, #[]⟩ }
    modify fun t =>
      { t with nodes := t.nodes.modify p fun n => { n with children := n.children.push h } }
    return h

section Writing
variable {α β : Type} (t : Tree)

theorem run_get_bind (next : Tree → Writing α) :
    (get >>= next).run.run t = (next t).run.run t := rfl

theorem run_modify_bind (f : Tree → Tree) (next : Unit → Writing α) :
    (modify f >>= next).run.run t = (next ()).run.run (f t) := rfl

theorem run_ok_bind (a : α) (next : α → Writing β) :
    ((liftM (Except.ok a : Except Error α) : Writing α) >>= next).run.run t =
      (next a).run.run t := rfl

theorem run_error_bind (e : Error) (next : α → Writing β) :
    ((liftM (Except.error e : Except Error α) : Writing α) >>= next).run.run t =
      (.error e, t) := rfl

end Writing

/-- Linking a child and then storing it comes to the same as storing it first. -/
theorem modify_push_of_lt {nodes : Array Node} {p : Handle} (hp : p < nodes.size) (n : Node)
    (f : Node → Node) : (nodes.push n).modify p f = (nodes.modify p f).push n := by
  ext i hi hj
  · simp
  · simp only [Array.getElem_modify, Array.getElem_push, Array.size_modify]
    by_cases hlt : i < nodes.size
    · simp [hlt]
    · simp [hlt, Nat.ne_of_lt (Nat.lt_of_lt_of_le hp (Nat.le_of_not_lt hlt))]

/-- Nothing is written before a request is refused. -/
theorem Request.Refused.perform_eq {r : Request} {e : Error} (hrefused : r.Refused t e) :
    r.perform.run.run t = (.error e, t) := by
  unfold perform
  rw [run_get_bind]
  cases hrefused with
  | secondRoot hnone hroot =>
      rw [hnone, run_get_bind, root_eq_ok_iff_root?.mp hroot]
      rfl
  | unknownParent hx hno =>
      rw [hx, run_get_bind, resolve_eq_error_iff.mpr ⟨rfl, hno⟩, run_error_bind]

/-- The writes of a request that is granted add up to the addition. -/
theorem Request.Names.perform_eq {r : Request} (hnames : r.Names t parent) (hroom : t.Room parent) :
    r.perform.run.run t = (.ok t.size, (t.attach r.kind r.line r.column parent).1) := by
  unfold perform
  rw [run_get_bind]
  cases hnames with
  | nothing hnone =>
      rw [hnone, run_get_bind, show t.root? = none from hroom]
      rfl
  | @node x p hx hp hlt =>
      rw [hx, run_get_bind, resolve_eq_ok_iff.mpr ⟨hp, hlt⟩, run_ok_bind, run_get_bind,
        children_of_lt hlt, run_ok_bind]
      have hplace : (t.kids p).length = ((t.nodes[p]?).map (·.children.size)).getD 0 := by
        unfold kids
        cases t.nodes[p]? <;> rfl
      rw [run_modify_bind, run_modify_bind, modify_push_of_lt hlt, hplace]
      rfl

/-- **A request changes no more than it must.** In whatever state requests have led to, the next one
is refused exactly for a second root or for an unknown parent, and then nothing has been written.
Otherwise all that happens is that the new node is there, after everything else. -/
theorem request_changes_least (source : String) (requests : List Request) (r : Request) :
    let t := replay source requests
    (∀ e, r.answer t = .error e ↔ r.Refused t e) ∧
    (∀ e, r.Refused t e → r.perform.run.run t = (.error e, t) ∧ t.after r = t) ∧
    (∀ u new, r.answer t = .ok (u, new) → r.perform.run.run t = (.ok new, u) ∧ t.after r = u ∧
      ∃ parent, r.Names t parent ∧ t.Added u r.kind r.line r.column parent new) := by
  intro t
  have ht : t.WellFormed := (reachable_replay source requests).wellFormed
  refine ⟨fun e => ⟨fun herror => ?_, Request.Refused.answer_eq⟩, fun e hrefused => ?_, ?_⟩
  · obtain ⟨e', hrefused⟩ | ⟨parent, hnames, hroom⟩ := r.refused_or_room t
    · rw [hrefused.answer_eq] at herror
      cases herror
      exact hrefused
    · rw [hnames.answer_eq hroom] at herror
      cases herror
  · exact ⟨hrefused.perform_eq, by simp [after, hrefused.answer_eq]⟩
  · intro u new hanswer
    obtain ⟨e, hrefused⟩ | ⟨parent, hnames, hroom⟩ := r.refused_or_room t
    · rw [hrefused.answer_eq] at hanswer
      cases hanswer
    · have hattach := Except.ok.inj ((hnames.answer_eq hroom).symm.trans hanswer)
      have hadded : t.Added (t.attach r.kind r.line r.column parent).1 r.kind r.line r.column
          parent t.size := ht.added_attach hroom
      have hperform := hnames.perform_eq hroom
      rw [← attach_snd t r.kind r.line r.column parent, hattach] at hadded hperform
      exact ⟨hperform, by simp [after, hanswer], parent, hnames, hadded⟩

end ClosingBrace.Tree
