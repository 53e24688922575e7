import ClosingBrace.Proofs.Brace.Alone
import ClosingBrace.Proofs.Tree.Documents
import ClosingBrace.Proofs.Tree.Ranks

/-!
# The line break before a brace

The policy that joins the parts of a statement wants a line break before the closing brace of a
block on several lines. It compares the line of the brace with the line on which the previous
sibling begins. In a tree whose positions follow the order of its nodes that keeps everything off
the line that stands before or on top of this sibling, but not what is below it: a sibling may end on
a later line than it begins on. When the brace ends its construct, nothing but blanks may stand in
front of it in the source either.

## Main statements

* `passed_same_of_lines`: what it takes to pass the policy.
* `line_clear_before_of_same`: what is kept off the line of the brace.
* `line_shared_before_of_same`: a nested block that ends on this line is not noticed.
-/

namespace ClosingBrace

variable {t : Tree} {construct : Handle} {c : BracedContext}

namespace BracedContext

/-! ## The questions about a block on several lines -/

/-- **A line break is in front of a brace** if the previous sibling, or else the parent, is on
another line. -/
theorem hasLineBreakBefore_yields (ht : t.WellFormed) (hc : c.Fits t construct) :
    Yields (c.hasLineBreakBefore t) fun broken => broken = true ↔
      ∀ m ∈ (t.left? c.right).or (t.above? c.right), t.lineAt m ≠ t.lineAt c.right := by
  have hbefore : c.hasLineBreakBefore t =
      (do return !(← t.onSameLine (some c.right) ((t.left? c.right).or (t.above? c.right)))) := by
    simp only [hasLineBreakBefore, ht.previousSibling_of_lt hc.right_lt, ok_bind,
      Tree.parent_of_lt hc.right_lt]
    cases t.left? c.right <;> simp [ok_bind, pure, Except.pure]
  rw [hbefore]
  have hsame := Tree.onSameLine_yields hc.right_known (ht.known_before hc.right_lt)
  refine hsame.bind fun same hsame => .ok ?_
  cases same with
  | true =>
      obtain ⟨x, hx, m, hm, hline⟩ := hsame.mp rfl
      cases hx
      simp only [Bool.not_true, Bool.false_eq_true, false_iff]
      exact fun hall => hall m hm hline.symm
  | false =>
      simp only [Bool.not_false, true_iff]
      intro m hm hline
      cases hsame.mpr ⟨_, rfl, m, hm, hline.symm⟩

namespace Answers
variable {a : Answers} {rightLine : String}

/-- A block on several lines does not stand on one. -/
theorem Hold.singleLine_of_lines (hc : c.Fits t construct) (ha : a.Hold t c rightLine)
    (hlines : t.lineAt c.left ≠ t.lineAt c.right) : a.singleLine = false := by
  obtain ⟨follower, -, h⟩ := bind_eq_ok_iff.mp ha.singleLine
  obtain ⟨semicolon, -, h⟩ := bind_eq_ok_iff.mp h
  rw [Tree.onSameLine_of_lines hc.left_lt hc.right_lt hlines] at h
  exact (Except.ok.inj h).symm

/-- Between braces on different lines a line break is lacking exactly if none is in front of the
closing one. -/
theorem Hold.hasLineBreakBefore_of_lines (hc : c.Fits t construct) (ha : a.Hold t c rightLine)
    (hlines : t.lineAt c.left ≠ t.lineAt c.right) (hlacks : a.lacksLineBreak = false) :
    c.hasLineBreakBefore t = .ok true := by
  obtain ⟨broken, hbroken, h⟩ := bind_eq_ok_iff.mp ha.lacksLineBreak
  cases broken with
  | true => exact hbroken
  | false =>
      rw [Tree.onSameLine_of_lines hc.left_lt hc.right_lt hlines, hlacks] at h
      cases h

end Answers

/-- A verdict of none means that no check applies. -/
theorem Answers.of_verdict_eq_none {a : Answers} {ends : Bool} (h : a.verdict ends .same = none) :
    a.lacksLineBreak = false ∧ (ends = true → a.singleLine = false → a.alone = true) := by
  unfold Answers.verdict Answers.violatesAlone at h
  grind

end BracedContext

/-- **What it takes to pass the policy** with a block on several lines: the previous sibling, or else
the parent, begins on another line, and a brace that ends its construct starts its own. -/
theorem passed_same_of_lines (ht : t.WellFormed) {kind : Kind} {category : Category}
    {context : Context} (hkind : t.kind construct = .ok kind)
    (hcategory : kind.category? = some category)
    (hcontext : Context.extract t construct category = .ok context)
    (hbraced : context.braced? = some c) (hlines : t.lineAt c.left ≠ t.lineAt c.right)
    (hpassed : Finding.analyze t .same construct = .ok none) :
    (∀ m ∈ (t.left? c.right).or (t.above? c.right), t.lineAt m ≠ t.lineAt c.right) ∧
      (c.ends = true → t.startsLine c.right = true) := by
  have hc := BracedContext.fits_of_extract ht hkind hcontext hbraced
  obtain ⟨a, ha, hall⟩ := Finding.analyze_of_braces ht hkind hcategory hcontext hbraced
  rw [hall, Except.ok.injEq, Option.map_eq_none_iff] at hpassed
  obtain ⟨hlacks, halone⟩ := BracedContext.Answers.of_verdict_eq_none hpassed
  constructor
  · have hbroken := ha.hasLineBreakBefore_of_lines hc hlines hlacks
    exact ((BracedContext.hasLineBreakBefore_yields ht hc).of_ok hbroken).mp rfl
  · intro hends
    have hyields := BracedContext.isAlone_yields ht hc (t.sourceLine (t.lineAt c.right))
    have hiff := hyields.of_ok ha.alone
    exact (hiff.mp (halone hends (ha.singleLine_of_lines hc hlines))).2

/-! ## What stands before the last child -/

/-- What a node has before its last child is in the subtree of the sibling before that child, or on
the left of this sibling. -/
theorem Tree.WellFormed.exists_left_of_last (ht : t.WellFormed) {b r x : Handle}
    (hlast : t.lastChild b = .ok (some r)) (hx : t.InSubtree b x) (hne : x ≠ b)
    (hbefore : t.rank x < t.rank r) :
    ∃ s, t.left? r = some s ∧ (t.InSubtree s x ∨ t.LeftOf x s) := by
  obtain ⟨hr, hnone⟩ := ht.lastChild_eq_some_iff.mp hlast
  obtain ⟨d, hd, hdx⟩ := (ht.inSubtree_iff.mp hx).resolve_left hne
  have hdb := ht.mem_kids_iff.mp hd
  have hdat : (t.kids b)[t.place d]? = some d := ht.kids_iff.mpr ⟨hdb, rfl⟩
  have hrat : (t.kids b)[t.place r]? = some r := ht.kids_iff.mpr ⟨hr, rfl⟩
  have hapart : t.place d ≠ t.place r := by
    intro hplace
    rw [hplace, hrat] at hdat
    cases hdat
    have hle := ((ht.inSubtree_iff_rank (lt_of_above? hr) (hdx.lt_size (lt_of_above? hr))).mp hdx).1
    omega
  -- Nothing comes after the last child, so the child above `x` comes before it.
  have hplace : t.place d < t.place r := by
    simp only [right?, hr, Option.bind_some, List.getElem?_eq_none_iff] at hnone
    have hlt := (List.getElem?_eq_some_iff.mp hdat).1
    omega
  have hlt := (List.getElem?_eq_some_iff.mp hrat).1
  obtain ⟨s, hs⟩ : ∃ s, (t.kids b)[t.place r - 1]? = some s :=
    ⟨_, List.getElem?_eq_getElem (by omega)⟩
  have hleft : t.left? r = some s := by
    rw [left?, hr, Option.bind_some, if_neg (by omega), hs]
  refine ⟨s, hleft, ?_⟩
  by_cases hds : t.place d = t.place r - 1
  · rw [hds, hs] at hdat
    cases hdat
    exact .inl hdx
  · exact .inr ⟨b, _, _, d, s, hdat, hs, by omega, hdx, .self⟩

/-- A node of the block stands in front of the closing brace, on its line. -/
structure BracedContext.SharesLine (t : Tree) (c : BracedContext) (x : Handle) : Prop where
  below : t.InSubtree c.left x
  ne : x ≠ c.left
  before : t.rank x < t.rank c.right
  line : t.line x = t.line c.right

/-- **What is kept off the line of the brace.** Let the braces of a construct in a source-ordered
document be on different lines, the closing one the last child of the opening one. If the policy
that joins the parts of a statement finds nothing, then all that the block has before the closing
brace is on other lines, except what is below the previous sibling of the brace. And if the brace
ends its construct, only blanks stand before it on its line of the source. -/
theorem line_clear_before_of_same {data : Option Json} {name : String} {loaded : LoadedTree}
    (hload : Document.load data name = .ok loaded) (hs : loaded.tree.SourceOrdered) {kind : Kind}
    {category : Category} {context : Context} (hkind : loaded.tree.kind construct = .ok kind)
    (hcategory : kind.category? = some category)
    (hcontext : Context.extract loaded.tree construct category = .ok context)
    (hbraced : context.braced? = some c)
    (hlines : loaded.tree.line c.left ≠ loaded.tree.line c.right)
    (hlast : loaded.tree.lastChild c.left = .ok (some c.right))
    (hpassed : Finding.analyze loaded.tree .same construct = .ok none) :
    (∀ x, c.SharesLine loaded.tree x → ∃ s,
      loaded.tree.previousSibling c.right = .ok (some s) ∧ loaded.tree.InSubtree s x ∧ x ≠ s) ∧
    (c.ends = true → ∃ line column, loaded.tree.line c.right = .ok line ∧
      loaded.tree.column c.right = .ok column ∧
      OnlyBlanksBefore column (loaded.tree.sourceLine line)) := by
  have ht := (Document.tree_of_load hload).1.wellFormed
  generalize loaded.tree = t at *
  have hh := (Tree.kind_eq_ok_iff.mp hkind).1
  have hc := ((Context.extract_yields ht hh category).of_ok hcontext).braced hbraced
  rw [Tree.line_of_lt hc.left_lt, Tree.line_of_lt hc.right_lt, Ne, Except.ok.injEq] at hlines
  obtain ⟨hsibling, hstarts⟩ :=
    passed_same_of_lines ht hkind hcategory hcontext hbraced hlines hpassed
  constructor
  · rintro x ⟨hx, hne, hbefore, hline⟩
    obtain ⟨s, hleft, hside⟩ := ht.exists_left_of_last hlast hx hne hbefore
    rw [Tree.line_of_lt (hx.lt_size hc.left_lt), Tree.line_of_lt hc.right_lt,
      Except.ok.injEq] at hline
    have hother : t.lineAt s ≠ t.lineAt c.right := hsibling s (by simp [hleft])
    refine ⟨s, ht.previousSibling_eq_some_iff.mpr hleft, ?_, ?_⟩
    · refine hside.resolve_right fun hxs => ?_
      -- The sibling is before the brace and on another line, and `x` is before the sibling.
      obtain ⟨p, hsp, hrp, hplace⟩ := ht.left?_eq_some_iff.mp hleft
      have hsr : t.LeftOf s c.right := ⟨p, _, _, s, c.right, ht.kids_iff.mpr ⟨hsp, rfl⟩,
        ht.kids_iff.mpr ⟨hrp, rfl⟩, by omega, .self, .self⟩
      have hxline := Tree.lineAt_le_of_position_le (hs.position_le hxs)
      have hsline := Tree.lineAt_le_of_position_le (hs.position_le hsr)
      exact (hxline.trans_lt (lt_of_le_of_ne hsline hother)).ne hline
    · rintro rfl
      exact hother hline
  · intro hends
    exact ⟨_, _, Tree.line_of_lt hc.right_lt, Tree.column_of_lt hc.right_lt,
      blankBefore_iff.mp (hstarts hends)⟩

/-- A loop over one call passes the policy, and its brace has a line for itself. -/
theorem line_clear_before_of_same_in_loop :
    let outline : Outline := .node .whileStatement 1 0 [.node .expression 1 7 [],
      .node .statementList 1 10 [.node .methodCall 2 3 [], .node .rightCurly 3 0 []]]
    let source := "while (a) \x7b\n  b();\n\x7d"
    let t := Tree.ofOutline source outline
    let context : Context := ⟨some 2, some 4, none, true⟩
    let c : BracedContext := ⟨2, 4, none, true⟩
    Document.load (some (.object [("source", .string source),
        ("root", Document.write outline)])) "A.java" = .ok ⟨"A.java", source, t⟩ ∧
      t.SourceOrdered ∧ t.kind 0 = .ok .whileStatement ∧
      Kind.category? .whileStatement = some .loop ∧
      Context.extract t 0 .loop = .ok context ∧ context.braced? = some c ∧
      t.line c.left ≠ t.line c.right ∧ t.lastChild c.left = .ok (some c.right) ∧
      Finding.analyze t .same 0 = .ok none ∧
      (∀ x, c.SharesLine t x →
        ∃ s, t.previousSibling c.right = .ok (some s) ∧ t.InSubtree s x ∧ x ≠ s) ∧
      ∃ line column, t.line c.right = .ok line ∧ t.column c.right = .ok column ∧
        OnlyBlanksBefore column (t.sourceLine line) := by
  intro outline source t context c
  have hplaced : outline.All Placed := by
    simp only [outline, Outline.All, Outline.AllOf, Placed]
    decide +kernel
  have hload := Document.load_write source "A.java" hplaced
  have hs : t.SourceOrdered :=
    (Tree.reachable_ofOutline source outline).wellFormed.sourceOrdered_of_inOrder (by decide +kernel)
  have hkind : t.kind 0 = .ok .whileStatement := by decide +kernel
  have hcontext : Context.extract t 0 .loop = .ok context := by decide +kernel
  have hlines : t.line c.left ≠ t.line c.right := by decide +kernel
  have hlast : t.lastChild c.left = .ok (some c.right) := by decide +kernel
  have hpassed : Finding.analyze t .same 0 = .ok none := by decide +kernel
  obtain ⟨hclear, hblank⟩ :=
    line_clear_before_of_same hload hs hkind rfl hcontext (c := c) rfl hlines hlast hpassed
  exact ⟨hload, hs, hkind, rfl, hcontext, rfl, hlines, hlast, hpassed, hclear, hblank rfl⟩

/-- **A nested block that ends on the line of the brace is not noticed.** It is the previous sibling
of the brace and begins on an earlier line. The brace of the first statement is followed by an else
branch on its line; that of the second ends the statement, and its source is missing. -/
theorem line_shared_before_of_same :
    let nested : List Outline := [.node .expression 1 4 [], .node .statementList 1 7 [
      .node .whileStatement 2 2 [.node .expression 2 9 [], .node .statementList 2 12 [
        .node .rightCurly 3 2 []]], .node .rightCurly 3 4 []]]
    let otherwise : Outline :=
      .node .elseBranch 3 6 [.node .statementList 3 11 [.node .rightCurly 4 0 []]]
    let source := "if (a) \x7b\n  while (b) \x7b\n  \x7d \x7d else \x7b\n\x7d"
    let continued : Outline := .node .ifStatement 1 0 (nested ++ [otherwise])
    let ended : Outline := .node .ifStatement 1 0 nested
    let t := Tree.ofOutline source continued
    let u := Tree.ofOutline "" ended
    let c : BracedContext := ⟨2, 7, some 8, false⟩
    let d : BracedContext := ⟨2, 7, none, true⟩
    (Document.load (some (.object [("source", .string source),
        ("root", Document.write continued)])) "A.java" = .ok ⟨"A.java", source, t⟩ ∧
      t.SourceOrdered ∧ t.kind 0 = .ok .ifStatement ∧
      Context.extract t 0 .branch = .ok ⟨some 2, some 7, some 8, false⟩ ∧
      t.line c.left ≠ t.line c.right ∧ t.lastChild c.left = .ok (some c.right) ∧
      Finding.analyze t .same 0 = .ok none ∧ c.SharesLine t 6) ∧
    (Document.load (some (.object [("source", .string ""),
        ("root", Document.write ended)])) "A.java" = .ok ⟨"A.java", "", u⟩ ∧
      u.SourceOrdered ∧ u.kind 0 = .ok .ifStatement ∧
      Context.extract u 0 .branch = .ok ⟨some 2, some 7, none, true⟩ ∧
      u.line d.left ≠ u.line d.right ∧ u.lastChild d.left = .ok (some d.right) ∧
      Finding.analyze u .same 0 = .ok none ∧ d.SharesLine u 6) := by
  intro nested otherwise source continued ended t u c d
  have hcontinued : continued.All Placed := by
    simp only [continued, nested, otherwise, List.cons_append, List.nil_append, Outline.All,
      Outline.AllOf, Placed]
    decide +kernel
  have hended : ended.All Placed := by
    simp only [ended, nested, Outline.All, Outline.AllOf, Placed]
    decide +kernel
  have ht := (Tree.reachable_ofOutline source continued).wellFormed
  have hu := (Tree.reachable_ofOutline "" ended).wellFormed
  have htshares : c.SharesLine t 6 :=
    ⟨(ht.mem_pathUp_iff (Nat.lt_succ_self 6)).mp (by decide +kernel), by decide,
      by decide +kernel, by decide +kernel⟩
  have hushares : d.SharesLine u 6 :=
    ⟨(hu.mem_pathUp_iff (Nat.lt_succ_self 6)).mp (by decide +kernel), by decide,
      by decide +kernel, by decide +kernel⟩
  refine ⟨⟨Document.load_write source "A.java" hcontinued,
    ht.sourceOrdered_of_inOrder (by decide +kernel), ?_⟩,
    Document.load_write "" "A.java" hended, hu.sourceOrdered_of_inOrder (by decide +kernel), ?_⟩
  · exact ⟨by decide +kernel, by decide +kernel, by decide +kernel, by decide +kernel,
      by decide +kernel, htshares⟩
  · exact ⟨by decide +kernel, by decide +kernel, by decide +kernel, by decide +kernel,
      by decide +kernel, hushares⟩

end ClosingBrace
