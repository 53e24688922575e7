import ClosingBrace.Proofs.Brace.Geometry
import ClosingBrace.Proofs.Brace.Verdicts
import ClosingBrace.Proofs.Tree.Numbering

/-!
# Empty blocks

A block is empty when its closing brace comes directly after the opening one in pre-order. The
question is put in two ways: a list of statements is its own opening brace and must have the closing
one as its first child, but in the body of a type the closing brace must be the next sibling of the
opening one. Either way it is about the node of the next rank: the first child of a node comes
directly after the node, and so does the next sibling of a node without children.

## Main statements

* `isEmpty_yields`: a block is empty when the ranks of its braces are neighbours.
* `analyze_aloneOrEmpty`: what the policy finds that excuses empty blocks.
* `empty_iff_next`: in the tree of an outline, where handles are ranks.
-/

namespace ClosingBrace

variable {t : Tree}

/-- The last child of a node is the body of a type, whose first child has no children. -/
def Tree.HasBody (t : Tree) (h : Handle) : Prop :=
  ∃ body first, t.lastChild h = .ok (some body) ∧ t.kind body = .ok .typeBody ∧
    t.firstChild body = .ok (some first) ∧ t.children first = .ok []

namespace BracedContext
variable {c : BracedContext}

/-- **A list of statements is empty** if its closing brace comes directly after its top. -/
theorem isEmpty_yields_of_block (ht : t.WellFormed) {p : Handle}
    (hleft : t.above? c.left = some p) (hkind : t.kindAt p ≠ .typeBody)
    (hlast : t.lastChild c.left = .ok (some c.right)) :
    Yields (c.isEmpty t) fun empty => empty = true ↔ t.rank c.right = t.rank c.left + 1 := by
  have hl := Tree.lt_of_above? hleft
  have hright := (ht.lastChild_eq_some_iff.mp hlast).1
  have hlist : t.isKind (some p) .typeBody = .ok false := by
    have hp := Nat.lt_trans (ht.above?_lt hleft) hl
    simp [Tree.isKind, Tree.kind_of_lt hp, hkind, ok_bind, pure, Except.pure]
  -- A block with a last child has a first one.
  obtain ⟨f, hf⟩ : ∃ f, (t.kids c.left).head? = some f := by
    cases hkids : t.kids c.left with
    | nil =>
        have hmem := ht.mem_kids_iff.mpr hright
        rw [hkids] at hmem
        cases hmem
    | cons f others => exact ⟨f, rfl⟩
  have hflt := Tree.lt_of_above? (ht.head?_kids_iff.mp hf).1
  simp only [isEmpty, Tree.parent_of_lt hl, hleft, hlist, Tree.firstChild_of_lt hl, hf, ok_bind,
    Bool.false_eq_true, if_false]
  refine .ok ?_
  rw [decide_eq_true_iff, Option.some_inj, ← ht.rank_of_head? hf,
    ht.rank_eq_rank_iff (Tree.lt_of_above? hright) hflt, eq_comm]

/-- **The body of a type is empty** if its closing brace comes directly after the opening one. -/
theorem isEmpty_yields_of_body (ht : t.WellFormed) {body : Handle}
    (hkind : t.kind body = .ok .typeBody) (hfirst : t.firstChild body = .ok (some c.left))
    (hlast : t.lastChild body = .ok (some c.right)) (hleaf : t.children c.left = .ok []) :
    Yields (c.isEmpty t) fun empty => empty = true ↔ t.rank c.right = t.rank c.left + 1 := by
  have hleft := (ht.firstChild_eq_some_iff.mp hfirst).1
  have hl := Tree.lt_of_above? hleft
  obtain ⟨hright, hend⟩ := ht.lastChild_eq_some_iff.mp hlast
  have hbody : t.isKind (some body) .typeBody = .ok true := by
    simp [Tree.isKind, hkind, ok_bind, pure, Except.pure]
  simp only [isEmpty, Tree.parent_of_lt hl, hleft, hbody, ht.nextSibling_of_lt hl, ok_bind, if_true]
  refine .ok ?_
  rw [decide_eq_true_iff]
  cases hs : t.right? c.left with
  | none =>
      -- The body has one child only, which is both of its braces.
      have hsame : c.right = c.left := by
        have honly := ht.lastChild_eq_some_iff.mpr ⟨hleft, hs⟩
        rw [hlast] at honly
        exact Option.some.inj (Except.ok.inj honly)
      simp [hsame]
  | some s =>
      obtain ⟨p, -, hsp, -⟩ := ht.right?_eq_some_iff.mp hs
      rw [Option.some_inj, ← ht.rank_of_right?_of_leaf hs hleaf,
        ht.rank_eq_rank_iff (Tree.lt_of_above? hright) (Tree.lt_of_above? hsp), eq_comm]

end BracedContext

section Construct
variable {construct : Handle} {kind : Kind} {category : Category} {context : Context}
  {c : BracedContext}

/-- **Empty means that nothing stands between the braces**, for the constructs of all kinds: the
closing brace has the rank behind that of the opening one. -/
theorem isEmpty_yields (ht : t.WellFormed) (hkind : t.kind construct = .ok kind)
    (hcategory : kind.category? = some category)
    (hcontext : Context.extract t construct category = .ok context)
    (hbraced : context.braced? = some c)
    (htype : kind = .classDef ∨ kind = .annotationDef → t.HasBody construct) :
    Yields (c.isEmpty t) fun empty => empty = true ↔ t.rank c.right = t.rank c.left + 1 := by
  obtain ⟨hh, hkindAt⟩ := Tree.kind_eq_ok_iff.mp hkind
  obtain ⟨hleft, hright, -, -⟩ := Context.braced?_eq_some_iff.mp hbraced
  by_cases hbody : category = .typeBody
  · subst hbody
    obtain ⟨body, first, hlast, hbodyKind, hfirst, hleaf⟩ :=
      htype (Context.category?_eq_typeBody_iff.mp hcategory)
    rcases ((Context.ofTypeBody_yields ht hh).of_ok hcontext).braces with
      ⟨hnone, -⟩ | ⟨last, hbodyLast, hopen, hclose⟩
    · rw [hlast] at hnone
      cases hnone
    · rw [hlast] at hbodyLast
      cases hbodyLast
      rw [hleft] at hopen
      rw [hright] at hclose
      obtain rfl : first = c.left := Option.some.inj (Except.ok.inj (hfirst.symm.trans hopen))
      exact BracedContext.isEmpty_yields_of_body ht hbodyKind hopen hclose hleaf
  · have hblock := (Context.extract_hasBlock ht hh hbody).of_ok hcontext
    have hplain : t.kindAt construct ≠ .typeBody := by
      rw [hkindAt]
      rintro rfl
      cases hcategory
    obtain ⟨b, hb, hlast⟩ := hblock.right_last c.right hright
    obtain rfl : b = c.left := Option.some.inj (hb.symm.trans hleft)
    exact BracedContext.isEmpty_yields_of_block ht (hblock.left_child c.left hleft) hplain hlast

/-- **What the policy reports that excuses empty blocks**: the brace is not alone on its line, and
its block is not empty. -/
theorem analyze_aloneOrEmpty (ht : t.WellFormed) (hkind : t.kind construct = .ok kind)
    (hcategory : kind.category? = some category)
    (hcontext : Context.extract t construct category = .ok context)
    (hbraced : context.braced? = some c) :
    ∃ line alone empty found, t.line c.right = .ok line ∧
      c.isAlone t (t.sourceLine line) = .ok alone ∧ c.isEmpty t = .ok empty ∧
      Finding.analyze t .aloneOrEmpty construct = .ok found ∧
      (found.isSome = true ↔ alone = false ∧ empty = false) := by
  have hc := BracedContext.fits_of_extract ht hkind hcontext hbraced
  obtain ⟨a, ha, hall⟩ := Finding.analyze_of_braces ht hkind hcategory hcontext hbraced
  refine ⟨_, a.alone, a.empty, _, Tree.line_of_lt hc.right_lt, ha.alone, ha.empty,
    hall .aloneOrEmpty, ?_⟩
  simp [BracedContext.Answers.verdict, BracedContext.Answers.violatesAlone]

/-- **Empty means nothing between the braces.** Let a construct of any kind have both braces; in a
type the opening one is a leaf at the front of the body. In the tree of an outline the block is
empty exactly if the handle of the closing brace is the next one after that of the opening brace,
that is, if the closing brace comes directly after the opening one in pre-order. So the policy that
excuses empty blocks finds a brace exactly if it is not alone on its line and something stands
between the braces. -/
theorem empty_iff_next {source : String} {o : Outline} (ht : t = Tree.ofOutline source o)
    (hkind : t.kind construct = .ok kind) (hcategory : kind.category? = some category)
    (hcontext : Context.extract t construct category = .ok context)
    (hbraced : context.braced? = some c)
    (htype : kind = .classDef ∨ kind = .annotationDef → t.HasBody construct) :
    (∃ empty, c.isEmpty t = .ok empty ∧ (empty = true ↔ c.right = c.left + 1)) ∧
    (c.right = c.left + 1 ↔ t.NextInPreorder c.left c.right) ∧
    ∃ line alone found, t.line c.right = .ok line ∧
      c.isAlone t (t.sourceLine line) = .ok alone ∧
      Finding.analyze t .aloneOrEmpty construct = .ok found ∧
      (found.isSome = true ↔ alone = false ∧ ¬ t.NextInPreorder c.left c.right) := by
  have hwf : t.WellFormed := by
    rw [ht]
    exact (Tree.reachable_ofOutline source o).wellFormed
  have hrank : ∀ h < t.size, t.rank h = h := by
    intro h hh
    rw [ht] at hh ⊢
    exact Tree.rank_ofOutline source o hh
  have hc := BracedContext.fits_of_extract hwf hkind hcontext hbraced
  obtain ⟨empty, hempty, hiff⟩ := isEmpty_yields hwf hkind hcategory hcontext hbraced htype
  have hnext := hwf.rank_eq_succ_iff hc.left_lt hc.right_lt
  obtain ⟨line, alone, empty', found, hline, halone, hempty', hfound, hreported⟩ :=
    analyze_aloneOrEmpty hwf hkind hcategory hcontext hbraced
  obtain rfl := Except.ok.inj (hempty.symm.trans hempty')
  refine ⟨⟨empty, hempty, ?_⟩, ?_, line, alone, found, hline, halone, hfound, ?_⟩
  · rw [hiff, hrank _ hc.right_lt, hrank _ hc.left_lt]
  · rw [← hnext, hrank _ hc.right_lt, hrank _ hc.left_lt]
  · rw [hreported, ← hnext, ← hiff, Bool.not_eq_true]

/-- An empty class in the body of another one, in one line with it. -/
theorem empty_iff_next_of_inner_class :
    let o : Outline := .node .classDef 1 0 [.node .typeBody 1 8 [.node .leftCurly 1 8 [],
      .node .classDef 1 10 [.node .identifier 1 16 [],
        .node .typeBody 1 18 [.node .leftCurly 1 18 [], .node .rightCurly 1 19 []]],
      .node .rightCurly 1 21 []]]
    let t := Tree.ofOutline "class A \x7b class B \x7b\x7d \x7d" o
    let c : BracedContext := ⟨6, 7, some 8, true⟩
    t.kind 3 = .ok .classDef ∧ Context.extract t 3 .typeBody = .ok ⟨some 6, some 7, some 8, true⟩ ∧
      t.HasBody 3 ∧ c.right = c.left + 1 ∧
      (∃ empty, c.isEmpty t = .ok empty ∧ (empty = true ↔ c.right = c.left + 1)) ∧
      (c.right = c.left + 1 ↔ t.NextInPreorder c.left c.right) ∧
      ∃ line alone found, t.line c.right = .ok line ∧
        c.isAlone t (t.sourceLine line) = .ok alone ∧
        Finding.analyze t .aloneOrEmpty 3 = .ok found ∧
        (found.isSome = true ↔ alone = false ∧ ¬ t.NextInPreorder c.left c.right) := by
  intro o t c
  have hkind : t.kind 3 = .ok .classDef := by decide +kernel
  have hcontext : Context.extract t 3 .typeBody = .ok ⟨some 6, some 7, some 8, true⟩ := by
    decide +kernel
  have hbody : t.HasBody 3 := by
    refine ⟨5, 6, ?_, ?_, ?_, ?_⟩ <;> decide +kernel
  have hbraced : Context.braced? ⟨some 6, some 7, some 8, true⟩ = some c := rfl
  exact ⟨hkind, hcontext, hbody, rfl,
    empty_iff_next (t := t) (o := o) rfl hkind rfl hcontext hbraced fun _ => hbody⟩

end Construct
end ClosingBrace
