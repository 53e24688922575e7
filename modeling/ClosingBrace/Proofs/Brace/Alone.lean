import ClosingBrace.Proofs.Brace.Verdicts

/-!
# A brace alone on its line

The rule looks at one token after a construct, and at nothing further. In a tree whose positions
follow the order of its nodes that is enough: a brace that the strictest policy lets pass really has
nothing but blanks before it on its line and no node of the tree after it.

## Main statements

* `BracedContext.Fits.lineAt_ne_of_leftOf`: one token off the line keeps everything off it.
* `isAlone_of_analyze_alone`: what it takes to pass the strictest policy.
* `line_clear_of_next`: the two together.
-/

namespace ClosingBrace

variable {t : Tree} {construct : Handle} {c : BracedContext}

/-! ## After the brace -/

/-- If the next token is not on the line of the brace, nothing after the construct is. -/
theorem BracedContext.Fits.lineAt_ne_of_leftOf (ht : t.WellFormed) (hs : t.SourceOrdered)
    (hc : c.Fits t construct) (hends : c.ends = true)
    (hnext : ∀ f ∈ c.next, t.lineAt f ≠ t.lineAt c.right) {m : Handle}
    (hm : t.LeftOf construct m) : t.lineAt m ≠ t.lineAt c.right := by
  have htoken := (ht.nextTokenAfter_yields (hc.construct_lt ht)).of_ok (hc.next_of_ends hends)
  cases hf : c.next with
  | none =>
      rw [hf] at htoken
      exact absurd hm (htoken m)
  | some f =>
      rw [hf] at htoken
      -- The brace stands before the token and the token before the rest.
      have hbrace := Tree.lineAt_le_of_position_le
        (hs.le_position_of_isNextToken htoken hc.right_below)
      have hrest := Tree.lineAt_le_of_position_le (hs.position_le_of_isNextToken htoken hm)
      have hlt := lt_of_le_of_ne hbrace (hnext f hf).symm
      exact (hlt.trans_le hrest).ne'

/-! ## Before the brace -/

/-- Every character that starts left of a column is blank. -/
def OnlyBlanksBefore (column : Number) (line : String) : Prop :=
  ∀ before ch after, line.toList = before ++ ch :: after →
    Text.widthOf before < Text.cutPoint column.truncate (Text.widthOf line.toList) →
    Text.isBlank ch = true

theorem blankBefore_iff {column : Number} {line : String} :
    blankBefore column line = true ↔ OnlyBlanksBefore column line :=
  Text.blankWithin_iff _ _

/-! ## The strictest policy -/

theorem BracedContext.verdict_alone {alone : Bool} {rightLine : String}
    (halone : c.isAlone t rightLine = .ok alone) :
    c.verdict t .alone rightLine = .ok (if alone then none else some .lineAlone) := by
  rw [verdict_other_eq t (by decide)]
  simp only [violatesAlone, halone, ok_bind]
  cases alone <;> rfl

/-- To pass the strictest policy a brace has to be alone on its line. -/
theorem isAlone_of_analyze_alone (ht : t.WellFormed) (hc : c.Fits t construct) {kind : Kind}
    {category : Category} {context : Context} (hkind : t.kind construct = .ok kind)
    (hcategory : kind.category? = some category)
    (hcontext : Context.extract t construct category = .ok context)
    (hbraced : context.braced? = some c)
    (hpassed : Finding.analyze t .alone construct = .ok none) :
    ((∃ m ∈ c.next, t.lineAt c.right = t.lineAt m) → c.isDoubleBrace t = .ok true) ∧
      blankBefore (t.columnAt c.right) (t.sourceLine (t.lineAt c.right)) = true := by
  obtain ⟨alone, halone, hiff⟩ :=
    BracedContext.isAlone_yields ht hc (t.sourceLine (t.lineAt c.right))
  rw [Finding.analyze_of_verdict hkind hcategory hcontext hbraced hc.right_lt
    (BracedContext.verdict_alone halone)] at hpassed
  cases alone with
  | true => exact hiff.mp rfl
  | false => cases hpassed

/-! ## The whole line -/

/-- **Checking one token is enough.** In a tree whose positions follow the order of its nodes, let
the closing brace end a construct. If the next token is absent or on another line, no node that
follows the construct is on the line of the brace. So if the strictest policy finds nothing and the
brace is not the inner one of two, only blanks stand before it and nothing after it. -/
theorem line_clear_of_next (ht : t.Reachable) (hs : t.SourceOrdered) {kind : Kind}
    {category : Category} {context : Context} (hkind : t.kind construct = .ok kind)
    (hcategory : kind.category? = some category)
    (hcontext : Context.extract t construct category = .ok context)
    (hbraced : context.braced? = some c) (hends : c.ends = true) :
    ((∀ next, c.next = some next → t.line next ≠ t.line c.right) →
      ∀ m, t.Follows construct m → t.line m ≠ t.line c.right) ∧
    (Finding.analyze t .alone construct = .ok none → c.isDoubleBrace t = .ok false →
      (∃ line column, t.line c.right = .ok line ∧ t.column c.right = .ok column ∧
        OnlyBlanksBefore column (t.sourceLine line)) ∧
      ∀ m, t.Follows construct m → t.line m ≠ t.line c.right) := by
  have hwf := ht.wellFormed
  obtain ⟨hh, -⟩ := Tree.kind_eq_ok_iff.mp hkind
  have hc := ((Context.extract_yields hwf hh category).of_ok hcontext).braced hbraced
  have hlines {m : Handle} (hm : m < t.size) :
      t.line m ≠ t.line c.right ↔ t.lineAt m ≠ t.lineAt c.right := by
    rw [Tree.line_of_lt hm, Tree.line_of_lt hc.right_lt, Ne, Except.ok.injEq]
  have hafter (hnext : ∀ f ∈ c.next, t.lineAt f ≠ t.lineAt c.right) (m : Handle)
      (hm : t.Follows construct m) : t.line m ≠ t.line c.right := by
    obtain ⟨hlt, hleft⟩ := hwf.leftOf_of_follows hm
    exact (hlines hlt).mpr (hc.lineAt_ne_of_leftOf hwf hs hends hnext hleft)
  constructor
  · intro hnext
    exact hafter fun f hf => (hlines (hc.next_known f hf)).mp (hnext f hf)
  · intro hpassed hsingle
    obtain ⟨hapart, hblank⟩ :=
      isAlone_of_analyze_alone hwf hc hkind hcategory hcontext hbraced hpassed
    refine ⟨⟨_, _, Tree.line_of_lt hc.right_lt, Tree.column_of_lt hc.right_lt,
      blankBefore_iff.mp hblank⟩, hafter fun f hf hsame => ?_⟩
    have hdouble := hapart ⟨f, hf, hsame.symm⟩
    rw [hsingle] at hdouble
    cases hdouble

/-- An if statement and an assignment behind it. The operator of the assignment stands above its
operands and right of the first one, and its nodes were added before the block was filled. -/
theorem line_clear_of_next_after_if :
    let t := Tree.replay "if (a) \x7b\n  b();\n\x7d\nc = d;" [⟨.compilationUnit, 1, 0, none⟩,
      ⟨.ifStatement, 1, 0, some 0⟩, ⟨.assign, 4, 2, some 0⟩, ⟨.statementList, 1, 7, some 1⟩,
      ⟨.identifier, 4, 0, some 2⟩, ⟨.methodCall, 2, 3, some 3⟩, ⟨.rightCurly, 3, 0, some 3⟩,
      ⟨.identifier, 4, 4, some 2⟩]
    let context : Context := ⟨some 3, some 6, some 4, true⟩
    let c : BracedContext := ⟨3, 6, some 4, true⟩
    t.Reachable ∧ t.SourceOrdered ∧ t.kind 1 = .ok .ifStatement ∧
      Kind.category? .ifStatement = some .branch ∧ Context.extract t 1 .branch = .ok context ∧
      context.braced? = some c ∧ c.ends = true ∧
      ((∀ next, c.next = some next → t.line next ≠ t.line c.right) →
        ∀ m, t.Follows 1 m → t.line m ≠ t.line c.right) ∧
      (Finding.analyze t .alone 1 = .ok none → c.isDoubleBrace t = .ok false →
        (∃ line column, t.line c.right = .ok line ∧ t.column c.right = .ok column ∧
          OnlyBlanksBefore column (t.sourceLine line)) ∧
        ∀ m, t.Follows 1 m → t.line m ≠ t.line c.right) ∧
      Finding.analyze t .alone 1 = .ok none ∧ c.isDoubleBrace t = .ok false := by
  intro t context c
  have ht : t.Reachable := Tree.reachable_replay _ _
  have hs : t.SourceOrdered := ht.wellFormed.sourceOrdered_of_inOrder (by decide +kernel)
  have hkind : t.kind 1 = .ok .ifStatement := by decide +kernel
  have hcontext : Context.extract t 1 .branch = .ok context := by decide +kernel
  have hclear := line_clear_of_next ht hs hkind rfl hcontext (c := c) rfl rfl
  exact ⟨ht, hs, hkind, rfl, hcontext, rfl, rfl, hclear.1, hclear.2, by decide +kernel,
    by decide +kernel⟩

end ClosingBrace
