import ClosingBrace.Proofs.Tree.Tokens

/-!
# Every question has an answer

Asked about nodes of a well-formed tree, the ways to move through it never fail: what they answer is
absent or again a node of the tree, and one that stands where the question says.

## Main statements

* `firstChild_yields`, `lastChild_yields`, `findFirstChild_yields`: answers that are children.
* `nextSibling_yields`: an answer that has the same parent.
* `onSameLine_yields`: two nodes are on one line when both are there and their lines are equal.
-/

namespace ClosingBrace.Tree

variable {t : Tree}

/-- Absent, or a node of the tree. -/
def Known (t : Tree) (x : Option Handle) : Prop := ∀ h ∈ x, h < t.size

/-- Absent, or a child of `p`. -/
def ChildOf (t : Tree) (p : Handle) (x : Option Handle) : Prop := ∀ c ∈ x, t.above? c = some p

/-- Absent, or a child of a child of `p`. -/
def GrandchildOf (t : Tree) (p : Handle) (x : Option Handle) : Prop :=
  ∀ c ∈ x, ∃ b, t.above? c = some b ∧ t.above? b = some p

theorem known_none : t.Known none := by
  intro h hh
  cases hh

theorem known_some {h : Handle} (hh : h < t.size) : t.Known (some h) := by
  rintro g ⟨⟩
  exact hh

theorem ChildOf.known {p : Handle} {x : Option Handle} (hx : t.ChildOf p x) : t.Known x :=
  fun c hc => lt_of_above? (hx c hc)

theorem GrandchildOf.known {p : Handle} {x : Option Handle} (hx : t.GrandchildOf p x) :
    t.Known x := by
  intro c hc
  obtain ⟨b, hb, -⟩ := hx c hc
  exact lt_of_above? hb

theorem WellFormed.known_above? (ht : t.WellFormed) {h : Handle} (hh : h < t.size) :
    t.Known (t.above? h) :=
  fun _ hp => Nat.lt_trans (ht.above?_lt hp) hh

theorem IsNextToken.known {h : Handle} {x : Option Handle} (hx : t.IsNextToken h x) :
    t.Known x := by
  rintro f rfl
  obtain ⟨s, -, hearliest⟩ := hx
  exact hearliest.lt_size

/-! ## Children and siblings -/

theorem WellFormed.firstChild_yields (ht : t.WellFormed) {h : Handle} (hh : h < t.size) :
    Yields (t.firstChild h) (t.ChildOf h) := by
  rw [firstChild_of_lt hh]
  exact .ok fun c hc => (ht.head?_kids_iff.mp hc).1

theorem WellFormed.lastChild_yields (ht : t.WellFormed) {h : Handle} (hh : h < t.size) :
    Yields (t.lastChild h) (t.ChildOf h) := by
  rw [lastChild_of_lt hh]
  exact .ok fun c hc => (ht.getLast?_kids_iff.mp hc).1

/-- The last child of a node that may be absent is absent if the node is. -/
theorem lastChild?_yields {x : Option Handle} (hx : t.Known x) :
    Yields (t.lastChild? x) fun r => ∀ c ∈ r, ∃ b ∈ x, t.lastChild b = .ok (some c) := by
  cases x with
  | none => exact .ok (by simp)
  | some b =>
      have hlast := lastChild_of_lt (hx b rfl)
      refine ⟨_, hlast, fun c hc => ⟨b, rfl, ?_⟩⟩
      rw [hlast, hc]

/-- A search by kind finds a node of the kind, unless there is none. -/
theorem findKind_yields (kind : Kind) {hs : List Handle} (hhs : ∀ h ∈ hs, h < t.size) :
    Yields (t.findKind kind hs) fun x =>
      (∀ c ∈ x, c ∈ hs ∧ t.kindAt c = kind) ∧ (x = none → ∀ c ∈ hs, t.kindAt c ≠ kind) := by
  induction hs with
  | nil => exact .ok (by simp)
  | cons h hs ih =>
      unfold findKind
      refine (Yields.of_eq (kind_of_lt (hhs h List.mem_cons_self))).bind fun k hk => ?_
      split
      · next hkind => exact .ok (by simp [← hk, hkind])
      · next hkind =>
          obtain ⟨x, hx, hfound, hnone⟩ := ih fun g hg => hhs g (List.mem_cons_of_mem _ hg)
          refine ⟨x, hx, fun c hc => ?_, fun hx => ?_⟩
          · exact ⟨List.mem_cons_of_mem _ (hfound c hc).1, (hfound c hc).2⟩
          · simpa [← hk, hkind] using hnone hx

/-- The first child of a kind, unless no child has the kind. -/
theorem WellFormed.findFirstChild_finds (ht : t.WellFormed) {h : Handle} (hh : h < t.size)
    (kind : Kind) : Yields (t.findFirstChild h kind) fun x =>
      (∀ c ∈ x, t.above? c = some h ∧ t.kindAt c = kind) ∧
        (x = none → ∀ c ∈ t.kids h, t.kindAt c ≠ kind) := by
  unfold findFirstChild
  refine (Yields.of_eq (children_of_lt hh)).bind fun cs hcs => ?_
  subst hcs
  simpa [ht.mem_kids_iff] using findKind_yields kind fun c hc => (ht.lt_of_mem_kids hc).2

theorem WellFormed.findFirstChild_yields (ht : t.WellFormed) {h : Handle} (hh : h < t.size)
    (kind : Kind) : Yields (t.findFirstChild h kind) (t.ChildOf h) :=
  (ht.findFirstChild_finds hh kind).mono fun _ hx c hc => (hx.1 c hc).1

theorem WellFormed.nextSibling_yields (ht : t.WellFormed) {h p : Handle} (hp : t.above? h = some p) :
    Yields (t.nextSibling h) (t.ChildOf p) := by
  rw [ht.nextSibling_of_lt (lt_of_above? hp)]
  refine .ok fun c hc => ?_
  obtain ⟨q, hq, hcq, -⟩ := ht.right?_eq_some_iff.mp hc
  rw [hp] at hq
  cases hq
  exact hcq

/-- A sibling of any node is a node; the root has none. -/
theorem WellFormed.nextSibling_known (ht : t.WellFormed) {h : Handle} (hh : h < t.size) :
    Yields (t.nextSibling h) t.Known := by
  rw [ht.nextSibling_of_lt hh]
  refine .ok fun c hc => ?_
  obtain ⟨q, -, hcq, -⟩ := ht.right?_eq_some_iff.mp hc
  exact lt_of_above? hcq

/-- What stands just before a node, the previous sibling or else the parent, is a node. -/
theorem WellFormed.known_before (ht : t.WellFormed) {h : Handle} (hh : h < t.size) :
    t.Known ((t.left? h).or (t.above? h)) := by
  intro m hm
  rcases Option.or_eq_some_iff.mp hm with hleft | ⟨-, habove⟩
  · obtain ⟨p, hp, -, -⟩ := ht.left?_eq_some_iff.mp hleft
    exact lt_of_above? hp
  · exact ht.known_above? hh m habove

/-! ## Kinds and lines -/

theorem isKind_yields {x : Option Handle} (hx : t.Known x) (kind : Kind) :
    Yields (t.isKind x kind) fun b => b = true ↔ ∃ h ∈ x, t.kindAt h = kind := by
  cases x with
  | none => exact .ok (by simp)
  | some h =>
      unfold isKind
      refine (Yields.of_eq (kind_of_lt (hx h rfl))).bind fun k hk => ?_
      subst hk
      exact .ok (by simp)

theorem onSameLine_yields {a b : Option Handle} (ha : t.Known a) (hb : t.Known b) :
    Yields (t.onSameLine a b) fun same =>
      same = true ↔ ∃ x ∈ a, ∃ y ∈ b, t.lineAt x = t.lineAt y := by
  cases a with
  | none => exact .ok (by simp)
  | some x =>
      cases b with
      | none => exact .ok (by simp)
      | some y =>
          unfold onSameLine
          refine (Yields.of_eq (line_of_lt (ha x rfl))).bind fun lx hlx => ?_
          refine (Yields.of_eq (line_of_lt (hb y rfl))).bind fun ly hly => ?_
          subst hlx hly
          exact .ok (by simp)

theorem onSameLine_of_lines {a b : Handle} (ha : a < t.size) (hb : b < t.size)
    (hlines : t.lineAt a ≠ t.lineAt b) : t.onSameLine (some a) (some b) = .ok false := by
  obtain ⟨same, hsame, hiff⟩ := onSameLine_yields (known_some ha) (known_some hb)
  cases same with
  | false => exact hsame
  | true =>
      obtain ⟨x, hx, y, hy, hline⟩ := hiff.mp rfl
      cases hx
      cases hy
      exact absurd hline hlines

/-- An absent node has no next token, and the next token of any other is a node. -/
theorem WellFormed.nextTokenAfter_known (ht : t.WellFormed) {x : Option Handle} (hx : t.Known x) :
    Yields (t.nextTokenAfter x) t.Known := by
  cases x with
  | none =>
      rw [nextTokenAfter_none]
      exact .ok known_none
  | some h =>
      obtain ⟨f, hf, hnext⟩ := ht.nextTokenAfter_yields (hx h rfl)
      exact ⟨f, hf, hnext.known⟩

end ClosingBrace.Tree
