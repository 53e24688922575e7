import ClosingBrace.Proofs.Brace.Verdicts
import ClosingBrace.Proofs.Tree.Searches

/-!
# Try statements and their clauses

The block of a try statement is found from the front of its children, the block of a clause from the
back of the clause. The part that continues a try statement is its child and the one that continues
a clause is a sibling. Still the two fit together: every part is continued by the next one, with or
without resources in front and however many clauses there are, and the last part is followed by what
follows the whole statement.

## Main statements

* `TryStatement.ofTryPart_statement`, `TryStatement.ofTryPart_clause`: the landmarks of the parts.
* `analyze_of_next_on_other_line`: a part is reported when the next one is on another line.
* `try_chain`: how the landmarks of all parts lie.
-/

namespace ClosingBrace

variable {t : Tree} {statement block : Handle} {clauses : List Handle}

/-! ## The next part on another line -/

/-- A next part on another line than the brace leaves it. -/
theorem BracedContext.Answers.Hold.leavesNextPart_of_lines {a : Answers} {c : BracedContext}
    {rightLine : String} (ha : a.Hold t c rightLine) (hends : c.ends = false)
    (hright : c.right < t.size) {m : Handle} (hnext : c.next = some m) (hm : m < t.size)
    (hlines : t.lineAt c.right ≠ t.lineAt m) : a.leavesNextPart = true := by
  have hleaves := ha.leavesNextPart
  unfold BracedContext.leavesNextPart at hleaves
  rw [hends, if_neg Bool.false_ne_true, hnext, Tree.onSameLine_of_lines hright hm hlines] at hleaves
  exact (Except.ok.inj hleaves).symm

/-- **A part is reported when the next one is on another line**, if only for lack of a line break in
front of its closing brace. -/
theorem Finding.analyze_of_next_on_other_line (ht : t.WellFormed) {part m : Handle} {kind : Kind}
    {category : Category} {context : Context} {c : BracedContext} (hkind : t.kind part = .ok kind)
    (hcategory : kind.category? = some category)
    (hcontext : Context.extract t part category = .ok context) (hbraced : context.braced? = some c)
    (hends : c.ends = false) (hnext : c.next = some m) (hlines : t.line c.right ≠ t.line m) :
    ∃ f, analyze t .same part = .ok (some f) ∧ f.right = c.right := by
  obtain ⟨a, ha, hall⟩ := analyze_of_braces ht hkind hcategory hcontext hbraced
  have hc := BracedContext.fits_of_extract ht hkind hcontext hbraced
  have hm := hc.next_known m hnext
  rw [Tree.line_of_lt hc.right_lt, Tree.line_of_lt hm] at hlines
  have hleaves := ha.leavesNextPart_of_lines hends hc.right_lt hnext hm (by simpa using hlines)
  rw [hall .same]
  cases hlacks : a.lacksLineBreak <;>
    simp [BracedContext.Answers.verdict, hlacks, hleaves]

/-! ## Try statements -/

namespace Tree

/-- A list of statements with at least one child. -/
def FilledList (t : Tree) (b : Handle) : Prop :=
  t.kind b = .ok .statementList ∧ ∃ cs, t.children b = .ok cs ∧ cs ≠ []

/-- A try statement: resources or none, a block, and clauses with a block at the end of each. -/
structure TryStatement (t : Tree) (statement block : Handle) (clauses : List Handle) : Prop where
  kind : t.kind statement = .ok .tryStatement
  children : ∃ resources : Option Handle,
    t.children statement = .ok (resources.toList ++ block :: clauses) ∧
      ∀ r ∈ resources, t.kind r = .ok .resourceSpecification
  block : t.FilledList block
  clauses : ∀ c ∈ clauses, (t.kind c = .ok .catchClause ∨ t.kind c = .ok .finallyClause) ∧
    ∃ b, t.lastChild c = .ok (some b) ∧ t.FilledList b

theorem FilledList.exists_lastChild {b : Handle} (hb : t.FilledList b) :
    ∃ r, t.lastChild b = .ok (some r) := by
  obtain ⟨-, cs, hcs, hne⟩ := hb
  exact ⟨cs.getLast hne, by rw [lastChild_of_children hcs, List.getLast?_eq_getLast_of_ne_nil hne]⟩

namespace TryStatement

/-- The block of a try statement is found behind the resources, if there are any. -/
theorem tryBlock_eq (ht : t.WellFormed) (htry : t.TryStatement statement block clauses) :
    Context.tryBlock t statement = .ok (some block) := by
  obtain ⟨resources, hcs, hresources⟩ := htry.children
  cases resources with
  | none =>
      have hfirst : t.firstChild statement = .ok (some block) := firstChild_of_children hcs
      simp only [Context.tryBlock, hfirst, htry.block.1, ok_bind]
      rfl
  | some r =>
      have hfirst : t.firstChild statement = .ok (some r) := firstChild_of_children hcs
      have hnext := ht.nextSibling_of_children hcs (i := 0) (a := r) rfl
      simp only [Context.tryBlock, hfirst, hresources r rfl, hnext, ok_bind]
      rfl

/-- Behind the block and behind each clause stands the next clause. -/
theorem nextSibling_eq (ht : t.WellFormed) (htry : t.TryStatement statement block clauses)
    {i : Nat} {a : Handle} (ha : (block :: clauses)[i]? = some a) :
    t.nextSibling a = .ok (block :: clauses)[i + 1]? := by
  obtain ⟨resources, hcs, -⟩ := htry.children
  have hplace : ∀ j, (resources.toList ++ block :: clauses)[resources.toList.length + j]? =
      (block :: clauses)[j]? := by
    intro j
    rw [List.getElem?_append_right (Nat.le_add_right _ _), Nat.add_sub_cancel_left]
  rw [ht.nextSibling_of_children hcs ((hplace i).trans ha), Nat.add_assoc, hplace]

/-- **The landmarks of a try statement** are its block and what stands behind the block. -/
theorem ofTryPart_statement (ht : t.WellFormed) (htry : t.TryStatement statement block clauses)
    {r : Handle} (hr : t.lastChild block = .ok (some r)) :
    Context.ofTryPart t statement =
      Context.continuedBy t statement (some block) (some r) clauses.head? := by
  have hnext := htry.nextSibling_eq ht (i := 0) (a := block) rfl
  simp only [Context.ofTryPart, htry.kind, htry.tryBlock_eq ht, hnext, lastChild?, hr, ok_bind,
    if_true, List.head?_eq_getElem?]
  rfl

/-- **The landmarks of a clause** are its last child and what stands behind the clause. -/
theorem ofTryPart_clause (ht : t.WellFormed) (htry : t.TryStatement statement block clauses)
    {i : Nat} {c b r : Handle} (hc : clauses[i]? = some c) (hb : t.lastChild c = .ok (some b))
    (hr : t.lastChild b = .ok (some r)) :
    Context.ofTryPart t c = Context.continuedBy t c (some b) (some r) clauses[i + 1]? := by
  have hnext : t.nextSibling c = .ok clauses[i + 1]? :=
    htry.nextSibling_eq ht (i := i + 1) hc
  rcases (htry.clauses c (List.mem_of_getElem? hc)).1 with hkind | hkind <;>
    simp [Context.ofTryPart, hkind, hb, hnext, lastChild?, hr, ok_bind]

/-- What follows the last clause follows the whole statement. -/
theorem nextTokenAfter_last (ht : t.WellFormed) (htry : t.TryStatement statement block clauses)
    {i : Nat} {c : Handle} (hc : clauses[i]? = some c) (hlast : clauses[i + 1]? = none) :
    t.nextTokenAfter (some c) = t.nextTokenAfter (some statement) := by
  obtain ⟨resources, hcs, -⟩ := htry.children
  have hlength : clauses.length = i + 1 := by
    have hlt := (List.getElem?_eq_some_iff.mp hc).1
    have hle := List.getElem?_eq_none_iff.mp hlast
    omega
  have hclause : clauses.getLast? = some c := by
    rw [List.getLast?_eq_getElem?, hlength]
    exact hc
  apply ht.nextTokenAfter_of_last
  rw [lastChild_of_children hcs, List.getLast?_append, List.getLast?_cons, hclause]
  rfl

end TryStatement

/-- How the landmarks of a part of a try statement lie whose block is `left` and which has the part
`following` behind it, if any. -/
structure PartLies (t : Tree) (statement part left : Handle) (following : Option Handle)
    (c : BracedContext) : Prop where
  opens : c.left = left
  closes : t.lastChild left = .ok (some c.right)
  continued : ∀ m, following = some m → c.next = some m ∧ c.ends = false
  ended : following = none → t.nextTokenAfter (some statement) = .ok c.next ∧ c.ends = true
  /-- The policy that joins the parts of a statement finds a next part on another line. -/
  reported : ∀ m, following = some m → t.line c.right ≠ t.line m →
    ∃ f, Finding.analyze t .same part = .ok (some f) ∧ f.right = c.right

theorem exists_partLies (ht : t.WellFormed) {part left right : Handle} {following : Option Handle}
    {kind : Kind} (hkind : t.kind part = .ok kind) (hcategory : kind.category? = some .tryPart)
    (hright : t.lastChild left = .ok (some right))
    (hlast : following = none → t.nextTokenAfter (some part) = t.nextTokenAfter (some statement))
    (heq : Context.ofTryPart t part =
      Context.continuedBy t part (some left) (some right) following) :
    ∃ context c, Context.extract t part .tryPart = .ok context ∧ context.braced? = some c ∧
      t.PartLies statement part left following c := by
  have hpart := (kind_eq_ok_iff.mp hkind).1
  obtain ⟨next, ends, hcontinued, hsome, hnone⟩ :=
    Context.continuedBy_eq_ok ht hpart (some left) (some right) following
  have hcontext : Context.extract t part .tryPart = .ok ⟨some left, some right, next, ends⟩ :=
    heq.trans hcontinued
  refine ⟨_, ⟨left, right, next, ends⟩, hcontext, rfl, rfl, hright, hsome, ?_, ?_⟩
  · intro habsent
    obtain ⟨hnext, hends⟩ := hnone habsent
    exact ⟨(hlast habsent).symm.trans hnext, hends⟩
  · intro m hm hlines
    obtain ⟨hnext, hends⟩ := hsome m hm
    exact Finding.analyze_of_next_on_other_line ht hkind hcategory hcontext rfl hends hnext hlines

end Tree

/-- **Try statements with any number of clauses.** The opening brace of the statement is its block
and that of a clause is its last child; the closing brace is the last child of the opening one. Each
part but the last is continued by the next one, and it is reported when that is on another line. The
last part is followed by what follows the statement. -/
theorem try_chain (ht : t.Reachable) (htry : t.TryStatement statement block clauses) :
    (∃ context c, Context.extract t statement .tryPart = .ok context ∧ context.braced? = some c ∧
      t.PartLies statement statement block clauses[0]? c) ∧
    ∀ i clause, clauses[i]? = some clause → ∃ left context c,
      t.lastChild clause = .ok (some left) ∧ Context.extract t clause .tryPart = .ok context ∧
        context.braced? = some c ∧ t.PartLies statement clause left clauses[i + 1]? c := by
  have hwf := ht.wellFormed
  constructor
  · obtain ⟨r, hr⟩ := htry.block.exists_lastChild
    refine Tree.exists_partLies hwf htry.kind rfl hr (fun _ => rfl) ?_
    rw [← List.head?_eq_getElem?]
    exact htry.ofTryPart_statement hwf hr
  · intro i clause hclause
    obtain ⟨hkind, left, hleft, hfilled⟩ := htry.clauses clause (List.mem_of_getElem? hclause)
    obtain ⟨r, hr⟩ := hfilled.exists_lastChild
    have heq := htry.ofTryPart_clause hwf hclause hleft hr
    have hlast := htry.nextTokenAfter_last hwf hclause
    obtain ⟨kind, hkind, hcategory⟩ :
        ∃ kind, t.kind clause = .ok kind ∧ kind.category? = some .tryPart := by
      rcases hkind with hcatch | hfinally
      · exact ⟨_, hcatch, rfl⟩
      · exact ⟨_, hfinally, rfl⟩
    obtain ⟨context, c, hlies⟩ := Tree.exists_partLies hwf hkind hcategory hr hlast heq
    exact ⟨left, context, c, hleft, hlies⟩

/-- A try statement with resources, a clause that catches and a final one. The block of the try
statement is its second child, and the final clause begins on a line of its own. -/
theorem try_chain_of_resources :
    let t := Tree.replay
      "try (r) \x7b\n\x7d catch (E e) \x7b\n\x7d\nfinally \x7b \x7d\nf();"
      [⟨.statementList, 1, 0, none⟩, ⟨.tryStatement, 1, 0, some 0⟩,
        ⟨.resourceSpecification, 1, 4, some 1⟩, ⟨.statementList, 1, 8, some 1⟩,
        ⟨.rightCurly, 2, 0, some 3⟩, ⟨.catchClause, 2, 2, some 1⟩, ⟨.parameterDef, 2, 9, some 5⟩,
        ⟨.statementList, 2, 14, some 5⟩, ⟨.rightCurly, 3, 0, some 7⟩,
        ⟨.finallyClause, 4, 0, some 1⟩, ⟨.statementList, 4, 8, some 9⟩,
        ⟨.rightCurly, 4, 10, some 10⟩, ⟨.expression, 5, 0, some 0⟩]
    t.Reachable ∧ t.TryStatement 1 3 [5, 9] ∧ t.line 8 ≠ t.line 9 ∧
      t.nextTokenAfter (some 1) = .ok (some 12) ∧
      (∃ context c, Context.extract t 1 .tryPart = .ok context ∧ context.braced? = some c ∧
        t.PartLies 1 1 3 (some 5) c) ∧
      ∀ i clause, [5, 9][i]? = some clause → ∃ left context c,
        t.lastChild clause = .ok (some left) ∧ Context.extract t clause .tryPart = .ok context ∧
          context.braced? = some c ∧ t.PartLies 1 clause left [5, 9][i + 1]? c := by
  intro t
  have ht : t.Reachable := Tree.reachable_replay _ _
  have htry : t.TryStatement 1 3 [5, 9] := by
    refine ⟨by decide +kernel, ⟨some 2, by decide +kernel, by decide +kernel⟩, ?_, ?_⟩
    · exact ⟨by decide +kernel, [4], by decide +kernel, by decide⟩
    · refine List.forall_mem_cons.mpr ⟨⟨.inl ?_, 7, ?_, ?_, [8], ?_, ?_⟩,
        List.forall_mem_singleton.mpr ⟨.inr ?_, 10, ?_, ?_, [11], ?_, ?_⟩⟩ <;> decide +kernel
  exact ⟨ht, htry, by decide +kernel, by decide +kernel, try_chain ht htry⟩

end ClosingBrace
