import ClosingBrace.Brace.Context
import ClosingBrace.Proofs.Tree.Answers

/-!
# The landmarks of a construct

However different the five shapes of constructs are, there are two ways in which their landmarks
hang together. In a type the braces are the first and the last child of the body, which comes last.
Everywhere else the opening brace is a child of the construct and has the closing brace as its last
child; then a further part of the statement stands beside the block or beside the construct. Either
way every landmark is a node, the closing brace is a child of a child of the construct, and when the
brace ends the construct, the next landmark is the token after the whole construct.

## Main statements

* `continuedBy_eq_ok`, `ofBranch_eq`: which parts of a statement with several parts they are.
* `extract_hasBlock`, `ofTypeBody_yields`: the two ways in which landmarks hang together.
* `extract_yields`: every node has landmarks in every shape, and they fit it.
-/

namespace ClosingBrace

variable {t : Tree} {construct : Handle}

namespace Context

/-- How landmarks belong to a construct. -/
structure Fits (t : Tree) (construct : Handle) (c : Context) : Prop where
  left_known : t.Known c.left
  right_grandchild : t.GrandchildOf construct c.right
  next_known : t.Known c.next
  next_of_ends : c.ends = true → t.nextTokenAfter (some construct) = .ok c.next

/-- Landmarks of a construct whose block is one of its children. -/
structure HasBlock (t : Tree) (construct : Handle) (c : Context) : Prop where
  left_child : t.ChildOf construct c.left
  right_last : ∀ r ∈ c.right, ∃ b ∈ c.left, t.lastChild b = .ok (some r)
  next_of_ends : c.ends = true → t.nextTokenAfter (some construct) = .ok c.next
  /-- A further part of the statement is another child, or else the sibling just after. -/
  next_of_continued : c.ends = false → ∀ m ∈ c.next,
    (t.above? m = some construct ∧ m ∉ c.left) ∨ t.right? construct = some m
  /-- Only the condition of a do loop can be missing. -/
  missing_next : c.ends = false → c.next = none →
    t.kindAt construct = .doStatement ∧ ∀ b ∈ t.kids construct, t.kindAt b ≠ .doCondition

/-- Landmarks of a type: its last child has the braces as its own first and last child. -/
structure HasTypeBody (t : Tree) (construct : Handle) (c : Context) : Prop where
  ends : c.ends = true
  next : t.nextTokenAfter (some construct) = .ok c.next
  braces : (t.lastChild construct = .ok none ∧ c.left = none ∧ c.right = none) ∨
    ∃ body, t.lastChild construct = .ok (some body) ∧ t.firstChild body = .ok c.left ∧
      t.lastChild body = .ok c.right

theorem HasBlock.fits (ht : t.WellFormed) (hh : construct < t.size) {c : Context}
    (hc : c.HasBlock t construct) : c.Fits t construct where
  left_known := hc.left_child.known
  right_grandchild := by
    intro r hr
    obtain ⟨b, hb, hlast⟩ := hc.right_last r hr
    exact ⟨b, (ht.lastChild_eq_some_iff.mp hlast).1, hc.left_child b hb⟩
  next_known := by
    cases hends : c.ends with
    | true =>
        have hnext := ht.nextTokenAfter_known (Tree.known_some hh)
        exact hnext.of_ok (hc.next_of_ends hends)
    | false =>
        intro m hm
        rcases hc.next_of_continued hends m hm with ⟨hchild, -⟩ | hright
        · exact Tree.lt_of_above? hchild
        · obtain ⟨p, -, hp, -⟩ := ht.right?_eq_some_iff.mp hright
          exact Tree.lt_of_above? hp
  next_of_ends := hc.next_of_ends

theorem HasTypeBody.fits (ht : t.WellFormed) (hh : construct < t.size) {c : Context}
    (hc : c.HasTypeBody t construct) : c.Fits t construct where
  left_known := by
    rcases hc.braces with ⟨-, hleft, -⟩ | ⟨body, -, hleft, -⟩
    · rw [hleft]
      exact Tree.known_none
    · intro l hl
      rw [hl] at hleft
      exact Tree.lt_of_above? (ht.firstChild_eq_some_iff.mp hleft).1
  right_grandchild := by
    intro r hr
    rcases hc.braces with ⟨-, -, hright⟩ | ⟨body, hbody, -, hright⟩
    · rw [hright] at hr
      cases hr
    · rw [hr] at hright
      exact ⟨body, (ht.lastChild_eq_some_iff.mp hright).1, (ht.lastChild_eq_some_iff.mp hbody).1⟩
  next_known := (ht.nextTokenAfter_known (Tree.known_some hh)).of_ok hc.next
  next_of_ends := fun _ => hc.next

/-! ## Blocks -/

section Block
variable {left right : Option Handle}

/-- When the brace ends the construct, the next landmark is the token after it. -/
theorem hasBlock_ended (ht : t.WellFormed) (hh : construct < t.size)
    (hleft : t.ChildOf construct left)
    (hright : ∀ r ∈ right, ∃ b ∈ left, t.lastChild b = .ok (some r)) :
    Yields (do return Context.mk left right (← t.nextTokenAfter (some construct)) true)
      (HasBlock t construct) := by
  obtain ⟨next, hnext, -⟩ := ht.nextTokenAfter_yields hh
  rw [hnext]
  refine .ok ⟨hleft, hright, fun _ => hnext, ?_, ?_⟩
  · intro h
    cases h
  · intro h
    cases h

theorem continuedBy_yields (ht : t.WellFormed) (hh : construct < t.size)
    {continuation : Option Handle} (hleft : t.ChildOf construct left)
    (hright : ∀ r ∈ right, ∃ b ∈ left, t.lastChild b = .ok (some r))
    (hnext : ∀ m ∈ continuation,
      (t.above? m = some construct ∧ m ∉ left) ∨ t.right? construct = some m) :
    Yields (continuedBy t construct left right continuation) (HasBlock t construct) := by
  cases continuation with
  | none => exact hasBlock_ended ht hh hleft hright
  | some next =>
      refine .ok ⟨hleft, hright, ?_, fun _ => hnext, ?_⟩
      · intro h
        cases h
      · intro _ h
        cases h

/-- What follows a part of a statement is its continuation, or else the token after the part. -/
theorem continuedBy_eq_ok (ht : t.WellFormed) (hh : construct < t.size)
    (left right continuation : Option Handle) : ∃ next ends,
      continuedBy t construct left right continuation = .ok ⟨left, right, next, ends⟩ ∧
      (∀ m, continuation = some m → next = some m ∧ ends = false) ∧
      (continuation = none → t.nextTokenAfter (some construct) = .ok next ∧ ends = true) := by
  cases continuation with
  | none =>
      obtain ⟨next, hnext, -⟩ := ht.nextTokenAfter_yields hh
      refine ⟨next, true, ?_, by simp, fun _ => ⟨hnext, rfl⟩⟩
      simp only [continuedBy, hnext, ok_bind]
      rfl
  | some m => exact ⟨some m, false, rfl, by simp, by simp⟩

/-- A sibling just after a child is another child. -/
theorem child_of_right? (ht : t.WellFormed) {b m : Handle} (hb : t.above? b = some construct)
    (hm : t.right? b = some m) : t.above? m = some construct ∧ m ≠ b := by
  obtain ⟨p, hp, hmp, hplace⟩ := ht.right?_eq_some_iff.mp hm
  rw [hb] at hp
  cases hp
  refine ⟨hmp, ?_⟩
  rintro rfl
  omega

/-- A sibling just before a child is another child. -/
theorem child_of_left? (ht : t.WellFormed) {b m : Handle} (hb : t.above? b = some construct)
    (hm : t.left? b = some m) : t.above? m = some construct ∧ m ≠ b := by
  obtain ⟨p, hmp, hp, hplace⟩ := ht.left?_eq_some_iff.mp hm
  rw [hb] at hp
  cases hp
  refine ⟨hmp, ?_⟩
  rintro rfl
  omega

end Block

/-! ## The five shapes -/

theorem tryBlock_yields (ht : t.WellFormed) (hh : construct < t.size) :
    Yields (tryBlock t construct) (t.ChildOf construct) := by
  unfold tryBlock
  refine (ht.firstChild_yields hh).bind fun head hhead => ?_
  cases head with
  | none => exact .ok hhead
  | some resources =>
      have hparent := hhead resources rfl
      refine (Yields.of_eq (Tree.kind_of_lt (Tree.lt_of_above? hparent))).bind fun k _ => ?_
      split
      · exact ht.nextSibling_yields hparent
      · exact .ok hhead

theorem ofTryPart_yields (ht : t.WellFormed) (hh : construct < t.size) :
    Yields (ofTryPart t construct) (HasBlock t construct) := by
  unfold ofTryPart
  refine (Yields.of_eq (Tree.kind_of_lt hh)).bind fun k _ => ?_
  split
  · refine (tryBlock_yields ht hh).bind fun left hleft => ?_
    -- What is done with the part behind the block, whether there is one or not.
    extract_lets rest
    have hrest : ∀ continuation, (∀ m ∈ continuation, t.above? m = some construct ∧ m ∉ left) →
        Yields (rest continuation) (HasBlock t construct) := by
      intro continuation hbeside
      refine (Tree.lastChild?_yields hleft.known).bind fun right hright => ?_
      exact continuedBy_yields ht hh hleft hright fun m hm => .inl (hbeside m hm)
    cases left with
    | none => exact hrest none (by simp)
    | some block =>
        have hblock := hleft block rfl
        refine (Yields.of_eq (ht.nextSibling_of_lt (Tree.lt_of_above? hblock))).bind ?_
        rintro _ rfl
        apply hrest
        intro m hm
        obtain ⟨hchild, hne⟩ := child_of_right? ht hblock hm
        exact ⟨hchild, by simpa using hne.symm⟩
  · refine (ht.lastChild_yields hh).bind fun left hleft => ?_
    refine (Yields.of_eq (ht.nextSibling_of_lt hh)).bind ?_
    rintro _ rfl
    refine (Tree.lastChild?_yields hleft.known).bind fun right hright => ?_
    exact continuedBy_yields ht hh hleft hright fun m hm => .inr hm

/-- **How the landmarks of a branch are found.** Its body stands just before the first else branch,
or else it is the last child, and it has a closing brace only if it is a list of statements. -/
theorem ofBranch_eq (ht : t.WellFormed) (hh : construct < t.size) :
    ∃ elseBranch left right, t.findFirstChild construct .elseBranch = .ok elseBranch ∧
      (∀ e ∈ elseBranch, left = t.left? e) ∧
      (elseBranch = none → left = (t.kids construct).getLast?) ∧
      (∀ r ∈ right, ∃ b ∈ left, t.kindAt b = .statementList ∧ t.lastChild b = .ok (some r)) ∧
      ofBranch t construct = continuedBy t construct left right elseBranch := by
  obtain ⟨elseBranch, helse, hchild⟩ := ht.findFirstChild_yields hh .elseBranch
  unfold ofBranch
  rw [helse, ok_bind]
  -- The body, before the else branch or last, is used in the same way.
  extract_lets rest
  have hrest : ∀ left, t.Known left → ∃ right,
      (∀ r ∈ right, ∃ b ∈ left, t.kindAt b = .statementList ∧ t.lastChild b = .ok (some r)) ∧
      rest left = continuedBy t construct left right elseBranch := by
    intro left hleft
    obtain ⟨listed, hlisted, hiff⟩ := Tree.isKind_yields hleft .statementList
    simp only [rest, hlisted, ok_bind]
    cases listed with
    | false => exact ⟨none, by simp, rfl⟩
    | true =>
        obtain ⟨right, hright, hlast⟩ := Tree.lastChild?_yields hleft
        refine ⟨right, fun r hr => ?_, by rw [if_pos rfl, hright, ok_bind]⟩
        obtain ⟨b, hb, hbr⟩ := hlast r hr
        obtain ⟨b', hb', hkind⟩ := hiff.mp rfl
        obtain rfl := Option.some.inj (hb.symm.trans hb')
        exact ⟨b, hb, hkind, hbr⟩
  cases elseBranch with
  | none =>
      obtain ⟨right, hright, heq⟩ := hrest (t.kids construct).getLast?
        fun c hc => Tree.lt_of_above? (ht.getLast?_kids_iff.mp hc).1
      refine ⟨none, _, right, rfl, by simp, fun _ => rfl, hright, ?_⟩
      rw [← heq]
      simp only [Tree.lastChild_of_lt hh, ok_bind]
  | some e =>
      obtain ⟨right, hright, heq⟩ := hrest (t.left? e)
        fun c hc => by
          obtain ⟨p, hp, -⟩ := ht.left?_eq_some_iff.mp hc
          exact Tree.lt_of_above? hp
      refine ⟨some e, _, right, rfl, by simp, by simp, hright, ?_⟩
      rw [← heq]
      simp only [ht.previousSibling_of_lt (Tree.lt_of_above? (hchild e rfl)), ok_bind]

theorem ofBranch_yields (ht : t.WellFormed) (hh : construct < t.size) :
    Yields (ofBranch t construct) (HasBlock t construct) := by
  obtain ⟨elseBranch, left, right, helse, hbefore, hlast, hright, heq⟩ := ofBranch_eq ht hh
  have hchild := (ht.findFirstChild_yields hh .elseBranch).of_ok helse
  have hright' : ∀ r ∈ right, ∃ b ∈ left, t.lastChild b = .ok (some r) := by
    intro r hr
    obtain ⟨b, hb, -, hbr⟩ := hright r hr
    exact ⟨b, hb, hbr⟩
  rw [heq]
  cases elseBranch with
  | none =>
      obtain rfl := hlast rfl
      refine continuedBy_yields ht hh ?_ hright' (by simp)
      exact fun c hc => (ht.getLast?_kids_iff.mp hc).1
  | some e =>
      obtain rfl := hbefore e rfl
      refine continuedBy_yields ht hh (fun l hl => (child_of_left? ht (hchild e rfl) hl).1) hright' ?_
      rintro _ ⟨⟩
      exact .inl ⟨hchild e rfl, fun hl => (child_of_left? ht (hchild e rfl) hl).2 rfl⟩

theorem ofLoop_yields (ht : t.WellFormed) (hh : construct < t.size) :
    Yields (ofLoop t construct) (HasBlock t construct) := by
  unfold ofLoop
  refine (ht.findFirstChild_finds hh .statementList).bind fun left hblock => ?_
  obtain ⟨hleft, -⟩ := hblock
  have hchild : t.ChildOf construct left := fun c hc => (hleft c hc).1
  refine (Tree.lastChild?_yields hchild.known).bind fun right hright => ?_
  refine (Yields.of_eq (Tree.kind_of_lt hh)).bind fun k hk => ?_
  split
  · next hdo =>
      refine (ht.findFirstChild_finds hh .doCondition).bind fun next hcondition => ?_
      obtain ⟨hnext, hmissing⟩ := hcondition
      refine .ok ⟨hchild, hright, ?_, fun _ m hm => .inl ⟨(hnext m hm).1, ?_⟩, fun _ hnone => ?_⟩
      · intro h
        cases h
      · -- The block and the condition are of different kinds.
        intro hl
        have hlist := (hleft m hl).2
        rw [(hnext m hm).2] at hlist
        cases hlist
      · exact ⟨hk.symm.trans hdo, hmissing hnone⟩
  · exact hasBlock_ended ht hh hchild hright

theorem ofCodeBlock_yields (ht : t.WellFormed) (hh : construct < t.size) :
    Yields (ofCodeBlock t construct) (HasBlock t construct) := by
  unfold ofCodeBlock
  refine (ht.findFirstChild_yields hh .statementList).bind fun left hleft => ?_
  refine (Tree.lastChild?_yields hleft.known).bind fun right hright => ?_
  exact hasBlock_ended ht hh hleft hright

theorem ofTypeBody_yields (ht : t.WellFormed) (hh : construct < t.size) :
    Yields (ofTypeBody t construct) (HasTypeBody t construct) := by
  have hlast := Tree.lastChild_of_lt hh
  obtain ⟨next, hnext, -⟩ := ht.nextTokenAfter_yields hh
  cases hbody : (t.kids construct).getLast? with
  | none =>
      rw [hbody] at hlast
      refine ⟨⟨none, none, next, true⟩, ?_, rfl, hnext, .inl ⟨hlast, rfl, rfl⟩⟩
      simp only [ofTypeBody, hlast, hnext, Tree.lastChild?, ok_bind]
      rfl
  | some body =>
      have hlt := Tree.lt_of_above? (ht.getLast?_kids_iff.mp hbody).1
      have hfirst := Tree.firstChild_of_lt hlt
      have hclose := Tree.lastChild_of_lt hlt
      rw [hbody] at hlast
      refine ⟨⟨(t.kids body).head?, (t.kids body).getLast?, next, true⟩, ?_, rfl, hnext,
        .inr ⟨body, hlast, hfirst, hclose⟩⟩
      simp only [ofTypeBody, hlast, hnext, hfirst, hclose, Tree.lastChild?, ok_bind]
      rfl

/-- **Outside types the block is a child of the construct.** -/
theorem extract_hasBlock (ht : t.WellFormed) (hh : construct < t.size) {category : Category}
    (hcategory : category ≠ .typeBody) :
    Yields (extract t construct category) (HasBlock t construct) := by
  cases category with
  | tryPart => exact ofTryPart_yields ht hh
  | branch => exact ofBranch_yields ht hh
  | loop => exact ofLoop_yields ht hh
  | typeBody => exact absurd rfl hcategory
  | codeBlock => exact ofCodeBlock_yields ht hh

/-- **Every node has landmarks in every shape**, and they fit it. -/
theorem extract_yields (ht : t.WellFormed) (hh : construct < t.size) (category : Category) :
    Yields (extract t construct category) (Fits t construct) := by
  by_cases hcategory : category = .typeBody
  · subst hcategory
    exact (ofTypeBody_yields ht hh).mono fun _ hc => hc.fits ht hh
  · exact (extract_hasBlock ht hh hcategory).mono fun _ hc => hc.fits ht hh

end Context

/-! ## Landmarks with both braces -/

/-- How the landmarks of a construct with both braces belong to it. -/
structure BracedContext.Fits (t : Tree) (construct : Handle) (c : BracedContext) : Prop where
  left_lt : c.left < t.size
  right_grandchild : ∃ b, t.above? c.right = some b ∧ t.above? b = some construct
  next_known : t.Known c.next
  next_of_ends : c.ends = true → t.nextTokenAfter (some construct) = .ok c.next

theorem Context.Fits.braced {c : Context} (hc : c.Fits t construct) {b : BracedContext}
    (hb : c.braced? = some b) : b.Fits t construct := by
  obtain ⟨hleft, hright, hnext, hends⟩ := braced?_eq_some_iff.mp hb
  refine ⟨hc.left_known _ hleft, hc.right_grandchild _ hright, ?_, ?_⟩
  · rw [← hnext]
    exact hc.next_known
  · rw [← hnext, ← hends]
    exact hc.next_of_ends

namespace BracedContext
variable {c : BracedContext}

/-- The braces that are read off a node belong to it. -/
theorem fits_of_extract (ht : t.WellFormed) {kind : Kind} {category : Category} {context : Context}
    (hkind : t.kind construct = .ok kind)
    (hcontext : Context.extract t construct category = .ok context)
    (hbraced : context.braced? = some c) : c.Fits t construct := by
  have hh := (Tree.kind_eq_ok_iff.mp hkind).1
  exact ((Context.extract_yields ht hh category).of_ok hcontext).braced hbraced

theorem Fits.right_below (hc : c.Fits t construct) : t.InSubtree construct c.right := by
  obtain ⟨b, hright, hb⟩ := hc.right_grandchild
  exact (Tree.InSubtree.of_above? hb).trans (.of_above? hright)

theorem Fits.right_lt (hc : c.Fits t construct) : c.right < t.size := by
  obtain ⟨b, hright, -⟩ := hc.right_grandchild
  exact Tree.lt_of_above? hright

theorem Fits.construct_lt (ht : t.WellFormed) (hc : c.Fits t construct) : construct < t.size := by
  obtain ⟨b, -, hb⟩ := hc.right_grandchild
  exact Nat.lt_trans (ht.above?_lt hb) (Tree.lt_of_above? hb)

theorem Fits.left_known (hc : c.Fits t construct) : t.Known (some c.left) :=
  Tree.known_some hc.left_lt

theorem Fits.right_known (hc : c.Fits t construct) : t.Known (some c.right) :=
  Tree.known_some hc.right_lt

end BracedContext
end ClosingBrace
