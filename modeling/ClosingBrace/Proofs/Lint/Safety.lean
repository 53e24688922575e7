import ClosingBrace.Proofs.Lint.Blame

/-!
# Every handle in use is known

A tree that requests have built may have any shape: constructs without blocks, blocks without
braces, else branches and conditions in odd places, nodes on line zero or beyond the source. What
the tree answers about a known handle is known again or absent, and the landmarks of a construct are
such answers to such questions. So nothing that a policy or a run asks about is ever unknown, and
none of them fails.

## Main statements

* `Tree.WellFormed.answersAt`: every question about a node is answered with nodes of the tree.
* `BracedContext.Known.exists_verdict`: any two nodes can be judged as a pair of braces.
* `lint_stays_in_tree`: the two together, with what they mean for a run.
-/

namespace ClosingBrace

variable {t : Tree} {h : Handle}

/-! ## What a tree answers -/

namespace Tree

/-- Every question about the node `h` has an answer, and the answer consists of nodes of the
tree. -/
structure AnswersAt (t : Tree) (h : Handle) : Prop where
  parent : Yields (t.parent h) t.Known
  children : Yields (t.children h) fun cs => ∀ c ∈ cs, c < t.size
  previousSibling : Yields (t.previousSibling h) t.Known
  nextSibling : Yields (t.nextSibling h) t.Known
  firstChild : Yields (t.firstChild h) t.Known
  lastChild : Yields (t.lastChild h) t.Known
  findFirstChild : ∀ kind, Yields (t.findFirstChild h kind) t.Known
  firstNode : Yields (t.firstNode h) (· < t.size)
  nextTokenAfter : Yields (t.nextTokenAfter (some h)) t.Known

theorem WellFormed.previousSibling_known (ht : t.WellFormed) (hh : h < t.size) :
    Yields (t.previousSibling h) t.Known := by
  rw [ht.previousSibling_of_lt hh]
  refine .ok fun c hc => ?_
  obtain ⟨p, hcp, -⟩ := ht.left?_eq_some_iff.mp hc
  exact lt_of_above? hcp

/-- **A tree answers with its own nodes.** -/
theorem WellFormed.answersAt (ht : t.WellFormed) (hh : h < t.size) : t.AnswersAt h where
  parent := by
    rw [parent_of_lt hh]
    exact .ok (ht.known_above? hh)
  children := by
    rw [children_of_lt hh]
    exact .ok fun c hc => (ht.lt_of_mem_kids hc).2
  previousSibling := ht.previousSibling_known hh
  nextSibling := ht.nextSibling_known hh
  firstChild := (ht.firstChild_yields hh).mono fun _ => ChildOf.known
  lastChild := (ht.lastChild_yields hh).mono fun _ => ChildOf.known
  findFirstChild kind := (ht.findFirstChild_yields hh kind).mono fun _ => ChildOf.known
  firstNode := (ht.firstNode_yields hh).mono fun _ => IsEarliest.lt_size
  nextTokenAfter := ht.nextTokenAfter_known (known_some hh)

end Tree

/-! ## Known landmarks -/

/-- All landmarks that are there are nodes. -/
structure Context.Known (t : Tree) (c : Context) : Prop where
  left : t.Known c.left
  right : t.Known c.right
  next : t.Known c.next

/-- Both braces are nodes, and so is the token after them if there is one. -/
structure BracedContext.Known (t : Tree) (c : BracedContext) : Prop where
  left : c.left < t.size
  right : c.right < t.size
  next : t.Known c.next

theorem Context.Fits.known {c : Context} (hc : c.Fits t h) : c.Known t :=
  ⟨hc.left_known, hc.right_grandchild.known, hc.next_known⟩

/-- **Any two nodes can be judged as a pair of braces**, whatever stands between them and whatever
the text before the second one is. -/
theorem BracedContext.Known.exists_verdict (ht : t.WellFormed) {c : BracedContext}
    (hc : c.Known t) (policy : Policy) (rightLine : String) :
    ∃ verdict, c.verdict t policy rightLine = .ok verdict := by
  -- Alike trees answer both, and a tree is like itself.
  have hself : c.Related t.Same c :=
    { left := ⟨hc.left, rfl⟩
      right := ⟨hc.right, rfl⟩
      next := hc.next.rel_self
      ends := rfl }
  have hboth : BothYield Eq (c.verdict t policy rightLine) (c.verdict t policy rightLine) :=
    verdict_alike ht.alike_self hself rfl policy
  exact hboth.exists_ok

/-! ## Runs -/

/-- A tree with a root can be linted under every configuration that is accepted. -/
theorem Tree.Reachable.exists_lint (ht : t.Reachable) (hsize : 0 < t.size) {config : Config}
    {rules : List Rule} (hrules : config.createRules = .ok rules) :
    ∃ ds, config.lint t = .ok ds := by
  obtain ⟨made, -, rfl⟩ := Config.createRules_eq_ok hrules
  obtain ⟨-, ds, hrun, -⟩ := run_of_instances ht hsize made
  exact ⟨ds, Config.lint_of_run hrules hrun⟩

/-- **Linting stays in the tree.** Let any requests build a tree with a root, over any source. Every
question about a node is answered with nodes or with absence, and so are the landmarks that any
shape of construct looks for below it. Looking for a finding at a node, judging any two nodes as a
pair of braces, and linting under any configuration that is accepted never fail. -/
theorem lint_stays_in_tree (source : String) (requests : List Tree.Request) {root : Handle}
    (hroot : (Tree.replay source requests).root = .ok root) :
    let t := Tree.replay source requests
    (∀ h, h < t.size → t.AnswersAt h ∧
      (∀ category, Yields (Context.extract t h category) (Context.Known t)) ∧
      ∀ policy, Yields (Finding.analyze t policy h) fun found => ∀ f ∈ found, f.right < t.size) ∧
    (∀ c : BracedContext, c.Known t → ∀ policy rightLine,
      ∃ verdict, c.verdict t policy rightLine = .ok verdict) ∧
    ∀ config rules, Config.createRules config = .ok rules → ∃ ds, config.lint t = .ok ds := by
  intro t
  have ht : t.Reachable := Tree.reachable_replay source requests
  have hwf := ht.wellFormed
  obtain ⟨hsize, -⟩ := hwf.root_eq_ok_iff.mp hroot
  refine ⟨?_, ?_, ?_⟩
  · intro h hh
    refine ⟨hwf.answersAt hh, ?_, ?_⟩
    · intro category
      exact (Context.extract_yields hwf hh category).mono fun _ => Context.Fits.known
    · intro policy
      refine (Finding.analyze_yields hwf hh policy).mono fun found hfound f hf => ?_
      exact (hfound f hf).1
  · intro c hc policy rightLine
    exact hc.exists_verdict hwf policy rightLine
  · intro config rules hrules
    exact ht.exists_lint hsize hrules

/-- A do loop in a tree of odd shape: its block is empty, its condition is the root's only other
child and stands on line zero, and an else branch hangs below the condition. One request is refused,
and the block and the condition are judged as braces. -/
theorem lint_stays_in_tree_of_odd_shape :
    let requests : List Tree.Request := [⟨.doStatement, 3, 0, none⟩,
      ⟨.statementList, 3, 3, some 0⟩, ⟨.rightCurly, 1, 1, some 7⟩, ⟨.doCondition, 0, -4, some 0⟩,
      ⟨.elseBranch, 90, 5, some 2⟩]
    let t := Tree.replay "do" requests
    let c : BracedContext := ⟨2, 1, some 3, true⟩
    t.root = .ok 0 ∧ t.size = 4 ∧ t.AnswersAt 3 ∧
      Context.extract t 0 .loop = .ok ⟨some 1, none, some 2, false⟩ ∧
      Yields (Context.extract t 1 .tryPart) (Context.Known t) ∧
      Yields (Finding.analyze t .same 0) (fun found => ∀ f ∈ found, f.right < t.size) ∧
      (∃ verdict, c.verdict t .same "  \x7d" = .ok verdict) ∧
      ∃ ds, Config.standard.lint t = .ok ds := by
  intro requests t c
  have hroot : t.root = .ok 0 := by decide +kernel
  have hknown : c.Known t :=
    { left := by decide +kernel
      right := by decide +kernel
      next := Tree.known_some (by decide +kernel) }
  obtain ⟨hnodes, hverdicts, hlint⟩ := lint_stays_in_tree "do" requests hroot
  obtain ⟨hanswers, -⟩ := hnodes 3 (by decide +kernel)
  obtain ⟨-, hextract, -⟩ := hnodes 1 (by decide +kernel)
  obtain ⟨-, -, hanalyze⟩ := hnodes 0 (by decide +kernel)
  exact ⟨hroot, by decide +kernel, hanswers, by decide +kernel, hextract .tryPart, hanalyze .same,
    hverdicts c hknown .same _, hlint _ _ rfl⟩

end ClosingBrace
