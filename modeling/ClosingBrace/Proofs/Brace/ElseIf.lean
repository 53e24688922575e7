import ClosingBrace.Proofs.Brace.Skipping
import ClosingBrace.Proofs.Brace.Verdicts

/-!
# Chains of if statements

In a chain `if … else if … else …` every if statement stands below the else branch of the one before
it, so each link is two levels deeper than the last. But every link is the last child of the last
child of the link before, so all parts of the chain are followed by the same token. Wherever the
search begins for the token that a block on one line must not share its line with, it goes past what
is left of the chain and ends at the same node.

## Main statements

* `EndsInElse.extract`, `LacksElse.extract`: the landmarks of a branch with and without an else.
* `ElseIfChain.nextTokenAfter_eq`: one token follows all parts of a chain.
* `else_if_chain`: what this means for the braces of a chain.
-/

namespace ClosingBrace

variable {t : Tree} {h e : Handle}

namespace Tree

/-! ## Branches -/

/-- The last child of a node is an else branch, and no other child is one. -/
def EndsInElse (t : Tree) (h e : Handle) : Prop :=
  ∃ before, t.children h = .ok (before ++ [e]) ∧ t.kind e = .ok .elseBranch ∧
    ∀ c ∈ before, t.kind c ≠ .ok .elseBranch

/-- No child of a node is an else branch. -/
def LacksElse (t : Tree) (h : Handle) : Prop :=
  ∃ cs, t.children h = .ok cs ∧ ∀ c ∈ cs, t.kind c ≠ .ok .elseBranch

section Branch
variable {x : Handle}

theorem lacksElse_of_single {kind : Kind} (hcs : t.children h = .ok [x])
    (hkind : t.kind x = .ok kind) (hne : kind ≠ .elseBranch) : t.LacksElse h := by
  refine ⟨[x], hcs, ?_⟩
  simpa [hkind] using hne

theorem LacksElse.lt_size (hlacks : t.LacksElse h) : h < t.size := by
  obtain ⟨cs, hcs, -⟩ := hlacks
  exact (children_eq_ok_iff.mp hcs).1

theorem EndsInElse.kind (hends : t.EndsInElse h e) : t.kind e = .ok .elseBranch := by
  obtain ⟨-, -, hkind, -⟩ := hends
  exact hkind

theorem EndsInElse.lastChild (hends : t.EndsInElse h e) : t.lastChild h = .ok (some e) := by
  obtain ⟨before, hcs, -, -⟩ := hends
  rw [lastChild_of_children hcs, List.getLast?_concat]

/-- A node ends in one else branch at most. -/
theorem EndsInElse.unique (ht : t.WellFormed) (hends : t.EndsInElse h e)
    (hx : t.parent x = .ok (some h)) (hkind : t.kind x = .ok .elseBranch) : x = e := by
  obtain ⟨before, hcs, -, hbefore⟩ := hends
  have hmem := ht.mem_kids_iff.mpr (parent_eq_some_iff.mp hx)
  rw [(children_eq_ok_iff.mp hcs).2] at hmem
  rcases List.mem_append.mp hmem with hmem | hmem
  · exact absurd hkind (hbefore x hmem)
  · exact List.mem_singleton.mp hmem

theorem LacksElse.kind_ne (ht : t.WellFormed) (hlacks : t.LacksElse h)
    (hx : t.parent x = .ok (some h)) : t.kind x ≠ .ok .elseBranch := by
  obtain ⟨cs, hcs, hnone⟩ := hlacks
  apply hnone
  rw [← (children_eq_ok_iff.mp hcs).2]
  exact ht.mem_kids_iff.mpr (parent_eq_some_iff.mp hx)

/-- The search for an else branch finds it. -/
theorem EndsInElse.find (ht : t.WellFormed) (hends : t.EndsInElse h e) :
    t.findFirstChild h .elseBranch = .ok (some e) := by
  have hlast := (ht.lastChild_eq_some_iff.mp hends.lastChild).1
  have hh := lt_of_lastChild hends.lastChild
  obtain ⟨found, hfind, hfound, hmissing⟩ := ht.findFirstChild_finds hh .elseBranch
  rw [hfind]
  cases found with
  | none =>
      exact absurd (kind_eq_ok_iff.mp hends.kind).2 (hmissing rfl e (ht.mem_kids_iff.mpr hlast))
  | some x =>
      obtain ⟨hx, hkind⟩ := hfound x rfl
      have hkind := kind_eq_ok_iff.mpr ⟨lt_of_above? hx, hkind⟩
      rw [hends.unique ht (parent_eq_some_iff.mpr hx) hkind]

/-- The search for an else branch finds none. -/
theorem LacksElse.find (ht : t.WellFormed) (hlacks : t.LacksElse h) :
    t.findFirstChild h .elseBranch = .ok none := by
  have hh := hlacks.lt_size
  obtain ⟨found, hfind, hfound, -⟩ := ht.findFirstChild_finds hh .elseBranch
  rw [hfind]
  cases found with
  | none => rfl
  | some x =>
      obtain ⟨hx, hkind⟩ := hfound x rfl
      have hkind := kind_eq_ok_iff.mpr ⟨lt_of_above? hx, hkind⟩
      exact absurd hkind (hlacks.kind_ne ht (parent_eq_some_iff.mpr hx))

/-- What follows a branch also follows the else branch in which it ends. -/
theorem EndsInElse.nextTokenAfter_eq (ht : t.WellFormed) (hends : t.EndsInElse h e) :
    t.nextTokenAfter (some e) = t.nextTokenAfter (some h) :=
  ht.nextTokenAfter_of_last hends.lastChild

end Branch

/-- **A branch that ends in an else branch is continued by it.** -/
theorem EndsInElse.extract (ht : t.WellFormed) (hends : t.EndsInElse h e) :
    ∃ c, Context.extract t h .branch = .ok c ∧ c.next = some e ∧ c.ends = false := by
  have hh := lt_of_lastChild hends.lastChild
  obtain ⟨elseBranch, left, right, hfind, -, -, -, heq⟩ := Context.ofBranch_eq ht hh
  obtain rfl := Except.ok.inj ((hends.find ht).symm.trans hfind)
  exact ⟨⟨left, right, some e, false⟩, heq, rfl, rfl⟩

/-- **A branch without an else branch ends the statement.** Its body is its last child, and only a
list of statements has a closing brace. -/
theorem LacksElse.extract (ht : t.WellFormed) (hlacks : t.LacksElse h) :
    ∃ c, Context.extract t h .branch = .ok c ∧ t.nextTokenAfter (some h) = .ok c.next ∧
      c.ends = true ∧ t.lastChild h = .ok c.left ∧
      ∀ r ∈ c.right, ∃ b ∈ c.left, t.kind b = .ok .statementList := by
  have hh := hlacks.lt_size
  obtain ⟨elseBranch, left, right, hfind, -, hlast, hright, heq⟩ := Context.ofBranch_eq ht hh
  obtain rfl := Except.ok.inj ((hlacks.find ht).symm.trans hfind)
  obtain ⟨next, ends, hcontinued, -, hnone⟩ := Context.continuedBy_eq_ok ht hh left right none
  obtain ⟨hnext, hends⟩ := hnone rfl
  refine ⟨_, heq.trans hcontinued, hnext, hends, ?_, fun r hr => ?_⟩
  · rw [hlast rfl, lastChild_of_lt hh]
  · obtain ⟨b, hb, hkind, hbr⟩ := hright r hr
    exact ⟨b, hb, kind_eq_ok_iff.mpr ⟨lt_of_lastChild hbr, hkind⟩⟩

end Tree

/-- **An else branch that holds an if statement has no braces of its own**, so nothing is found at
it. -/
theorem Finding.analyze_of_else_if (ht : t.WellFormed) {next : Handle}
    (hkind : t.kind e = .ok .elseBranch) (hcs : t.children e = .ok [next])
    (hnext : t.kind next = .ok .ifStatement) (policy : Policy) : analyze t policy e = .ok none := by
  have hlacks := Tree.lacksElse_of_single hcs hnext (by decide)
  obtain ⟨c, hc, -, -, hlast, hright⟩ := hlacks.extract ht
  refine analyze_of_no_braces policy hkind rfl hc ?_
  obtain ⟨left, right, following, ends⟩ := c
  cases right with
  | none => cases left <;> rfl
  | some r =>
      -- The body would have to be a list of statements, but it is an if statement.
      obtain ⟨b, hb, hlist⟩ := hright r rfl
      obtain rfl : some next = left :=
        Except.ok.inj ((Tree.lastChild_of_children hcs).symm.trans hlast)
      cases hb
      rw [hnext] at hlist
      cases hlist

namespace Tree

/-! ## Chains -/

/-- The last block of a chain whose last if statement is `h`: the if statement itself, or the else
branch in which it ends and which holds a list of statements. -/
inductive ChainEnd (t : Tree) (h : Handle) : Handle → Prop
  | bare : t.LacksElse h → ChainEnd t h h
  | closed {e b : Handle} : t.EndsInElse h e → t.children e = .ok [b] →
      t.kind b = .ok .statementList → ChainEnd t h e

/-- A chain of if statements with the else branches between them. Each if statement but the last
ends in an else branch whose only child is the next one; `final` is the last block. -/
inductive ElseIfChain (t : Tree) (final : Handle) : List Handle → List Handle → Prop
  | last {h : Handle} : t.kind h = .ok .ifStatement → t.ChainEnd h final →
      ElseIfChain t final [h] []
  | link {h e next : Handle} {ifs elses : List Handle} : t.kind h = .ok .ifStatement →
      t.EndsInElse h e → t.children e = .ok [next] → ElseIfChain t final (next :: ifs) elses →
      ElseIfChain t final (h :: next :: ifs) (e :: elses)

theorem ChainEnd.lacksElse {final : Handle} (hend : t.ChainEnd h final) : t.LacksElse final := by
  cases hend with
  | bare hlacks => exact hlacks
  | closed _ hcs hblock => exact lacksElse_of_single hcs hblock (by decide)

theorem ChainEnd.nextTokenAfter_eq (ht : t.WellFormed) {final : Handle}
    (hend : t.ChainEnd h final) : t.nextTokenAfter (some final) = t.nextTokenAfter (some h) := by
  cases hend with
  | bare _ => rfl
  | closed hends _ _ => exact hends.nextTokenAfter_eq ht

namespace ElseIfChain
variable {final : Handle} {ifs elses : List Handle}

theorem kind_head {first : Handle} (hchain : t.ElseIfChain final (first :: ifs) elses) :
    t.kind first = .ok .ifStatement := by
  cases hchain with
  | last hkind _ => exact hkind
  | link hkind _ _ _ => exact hkind

theorem lacksElse_final (hchain : t.ElseIfChain final ifs elses) : t.LacksElse final := by
  induction hchain with
  | last _ hend => exact hend.lacksElse
  | link _ _ _ _ ih => exact ih

/-- The else branches between the if statements hold an if statement each. -/
theorem exists_of_mem_elses (hchain : t.ElseIfChain final ifs elses) :
    ∀ e ∈ elses, t.kind e = .ok .elseBranch ∧
      ∃ next, t.children e = .ok [next] ∧ t.kind next = .ok .ifStatement := by
  induction hchain with
  | last _ _ => simp
  | @link _ e next _ _ _ hends hcs hrest ih =>
      intro x hx
      rcases List.mem_cons.mp hx with rfl | hx
      · exact ⟨hends.kind, next, hcs, hrest.kind_head⟩
      · exact ih x hx

/-- An if statement of a chain ends in an else branch, or it has none and is the last block. -/
theorem cases_of_mem_ifs (hchain : t.ElseIfChain final ifs elses) :
    ∀ h ∈ ifs, (∃ e, t.EndsInElse h e) ∨ t.LacksElse h := by
  induction hchain with
  | last _ hend =>
      simp only [List.mem_singleton, forall_eq]
      cases hend with
      | bare hlacks => exact .inr hlacks
      | closed hends _ _ => exact .inl ⟨_, hends⟩
  | link _ hends _ _ ih =>
      intro x hx
      rcases List.mem_cons.mp hx with rfl | hx
      · exact .inl ⟨_, hends⟩
      · exact ih x hx

/-- So does every part of a chain. -/
theorem cases_of_mem (hchain : t.ElseIfChain final ifs elses) :
    ∀ b ∈ ifs ++ elses ++ [final], (∃ e, t.EndsInElse b e) ∨ t.LacksElse b := by
  intro b hb
  simp only [List.mem_append, List.mem_singleton] at hb
  obtain (hb | hb) | rfl := hb
  · exact hchain.cases_of_mem_ifs b hb
  · obtain ⟨-, next, hcs, hnext⟩ := hchain.exists_of_mem_elses b hb
    exact .inr (lacksElse_of_single hcs hnext (by decide))
  · exact .inr hchain.lacksElse_final

/-- **One token follows all parts of a chain.** Each link is the last child of the last child of the
link before, so the search climbs from one to the other. -/
theorem nextTokenAfter_eq (ht : t.WellFormed) (hchain : t.ElseIfChain final ifs elses) :
    ∀ b ∈ ifs ++ elses ++ [final], t.nextTokenAfter (some b) = t.nextTokenAfter ifs.head? := by
  induction hchain with
  | @last h _ hend =>
      intro b hb
      obtain rfl | rfl : b = h ∨ b = final := by simpa using hb
      · rfl
      · exact hend.nextTokenAfter_eq ht
  | @link h e next ifs elses _ hends hcs _ ih =>
      have helse := hends.nextTokenAfter_eq ht
      have hinner := ht.nextTokenAfter_of_last (lastChild_of_children hcs)
      intro b hb
      obtain rfl | rfl | hb : b = h ∨ b = e ∨ b ∈ next :: ifs ++ elses ++ [final] := by
        simp only [List.mem_append, List.mem_cons] at hb ⊢
        tauto
      · rfl
      · exact helse
      · exact (ih b hb).trans (hinner.trans helse)

/-- **Wherever the search begins, it ends at the same node**: behind the landmarks of every part of
a chain. -/
theorem skips (ht : t.WellFormed) {first : Handle}
    (hchain : t.ElseIfChain final (first :: ifs) elses) {next stop : Option Handle}
    {passed : List Handle} (hnext : t.nextTokenAfter (some first) = .ok next)
    (hskips : t.Skips next passed stop) :
    ∀ b ∈ first :: ifs ++ elses ++ [final], ∀ c, Context.extract t b .branch = .ok c →
      ∃ passed, t.Skips c.next passed stop := by
  intro b hb c hc
  have hafter := (hchain.nextTokenAfter_eq ht b hb).trans hnext
  rcases hchain.cases_of_mem b hb with ⟨e, hends⟩ | hlacks
  · obtain ⟨d, hd, helse, -⟩ := hends.extract ht
    obtain rfl := Except.ok.inj (hc.symm.trans hd)
    rw [helse]
    exact ⟨e :: passed, .pass hends.kind ((hends.nextTokenAfter_eq ht).trans hafter) hskips⟩
  · obtain ⟨d, hd, hfollowing, -⟩ := hlacks.extract ht
    obtain rfl := Except.ok.inj (hc.symm.trans hd)
    obtain rfl := Except.ok.inj (hafter.symm.trans hfollowing)
    exact ⟨passed, hskips⟩

end ElseIfChain
end Tree

/-- **Chains of if statements of any length.** Nothing is found at the else branches between the if
statements. Each if statement that has an else branch is continued by it, and the last block ends
the chain: what comes next is the token after the first if statement. From the landmarks of every
part with braces the loop over the else branches goes to the same node, where it would also go from
the token after the first if statement. -/
theorem else_if_chain (ht : t.Reachable) {first final : Handle} {ifs elses : List Handle}
    (hchain : t.ElseIfChain final (first :: ifs) elses) :
    (∀ e ∈ elses, ∀ policy, Finding.analyze t policy e = .ok none) ∧
    (∀ h ∈ first :: ifs, ∀ e, t.parent e = .ok (some h) → t.kind e = .ok .elseBranch →
      ∃ c, Context.extract t h .branch = .ok c ∧ c.next = some e ∧ c.ends = false) ∧
    (∃ c, Context.extract t final .branch = .ok c ∧ t.nextTokenAfter (some first) = .ok c.next ∧
      c.ends = true) ∧
    ∃ next passed stop, t.nextTokenAfter (some first) = .ok next ∧ t.Skips next passed stop ∧
      ∀ b ∈ first :: ifs ++ elses ++ [final], ∀ context c,
        Context.extract t b .branch = .ok context → context.braced? = some c →
          BracedContext.skipElse t t.size c.next = .ok stop ∧
            ∃ passed, t.Skips c.next passed stop := by
  have hwf := ht.wellFormed
  have hfinal := hchain.nextTokenAfter_eq hwf final (by simp)
  refine ⟨?_, ?_, ?_, ?_⟩
  · intro e he policy
    obtain ⟨hkind, next, hcs, hnext⟩ := hchain.exists_of_mem_elses e he
    exact Finding.analyze_of_else_if hwf hkind hcs hnext policy
  · intro h hh e he hkind
    rcases hchain.cases_of_mem_ifs h hh with ⟨x, hends⟩ | hlacks
    · obtain rfl := hends.unique hwf he hkind
      exact hends.extract hwf
    · exact absurd hkind (hlacks.kind_ne hwf he)
  · obtain ⟨c, hc, hnext, hends, -⟩ := hchain.lacksElse_final.extract hwf
    exact ⟨c, hc, hfinal.symm.trans hnext, hends⟩
  · have hfirst := (Tree.kind_eq_ok_iff.mp hchain.kind_head).1
    obtain ⟨next, hnext, hknown⟩ := hwf.nextTokenAfter_known (Tree.known_some hfirst)
    obtain ⟨passed, stop, hskips⟩ := hwf.exists_skips hknown
    refine ⟨next, passed, stop, hnext, hskips, fun b hb context c hcontext hbraced => ?_⟩
    obtain ⟨-, -, heq, -⟩ := Context.braced?_eq_some_iff.mp hbraced
    obtain ⟨passed, hpart⟩ := hchain.skips hwf hnext hskips b hb context hcontext
    rw [heq] at hpart
    exact ⟨hpart.skipElse_eq (hpart.length_le_size hwf), passed, hpart⟩

/-- A chain of two if statements that is itself the body of an if statement, without braces around
it. Behind the chain comes the else branch of that statement, and the search goes past it as well,
to the statement on the last line. -/
theorem else_if_chain_of_nested_chain :
    let t := Tree.replay
      ("if (a)\n  if (b) \x7b\n  \x7d else if (c) \x7b\n  \x7d else \x7b\n" ++
        "  \x7d\nelse ;\nf();")
      [⟨.statementList, 1, 0, none⟩, ⟨.ifStatement, 1, 0, some 0⟩, ⟨.expression, 1, 4, some 1⟩,
        ⟨.ifStatement, 2, 2, some 1⟩, ⟨.statementList, 2, 9, some 3⟩, ⟨.rightCurly, 3, 2, some 4⟩,
        ⟨.elseBranch, 3, 4, some 3⟩, ⟨.ifStatement, 3, 9, some 6⟩, ⟨.statementList, 3, 16, some 7⟩,
        ⟨.rightCurly, 4, 2, some 8⟩, ⟨.elseBranch, 4, 4, some 7⟩, ⟨.statementList, 4, 9, some 10⟩,
        ⟨.rightCurly, 5, 2, some 11⟩, ⟨.elseBranch, 6, 0, some 1⟩, ⟨.emptyStatement, 6, 5, some 13⟩,
        ⟨.expression, 7, 0, some 0⟩]
    t.Reachable ∧ t.ElseIfChain 10 [3, 7] [6] ∧ t.Skips (some 13) [13] (some 15) ∧
      (∀ e ∈ [6], ∀ policy, Finding.analyze t policy e = .ok none) ∧
      (∀ h ∈ [3, 7], ∀ e, t.parent e = .ok (some h) → t.kind e = .ok .elseBranch →
        ∃ c, Context.extract t h .branch = .ok c ∧ c.next = some e ∧ c.ends = false) ∧
      (∃ c, Context.extract t 10 .branch = .ok c ∧ t.nextTokenAfter (some 3) = .ok c.next ∧
        c.ends = true) ∧
      ∃ next passed stop, t.nextTokenAfter (some 3) = .ok next ∧ t.Skips next passed stop ∧
        ∀ b ∈ [3, 7, 6, 10], ∀ context c,
          Context.extract t b .branch = .ok context → context.braced? = some c →
            BracedContext.skipElse t t.size c.next = .ok stop ∧
              ∃ passed, t.Skips c.next passed stop := by
  intro t
  have ht : t.Reachable := Tree.reachable_replay _ _
  have hchain : t.ElseIfChain 10 [3, 7] [6] := by
    refine .link (by decide +kernel) ⟨[4], ?_⟩ (by decide +kernel) ?_
    · decide +kernel
    · refine .last (by decide +kernel) (.closed ⟨[8], ?_⟩ (b := 11) ?_ ?_) <;> decide +kernel
  have hskips : t.Skips (some 13) [13] (some 15) := by
    refine .pass (by decide +kernel) (x := some 15) (by decide +kernel) ?_
    exact .stop (by decide +kernel)
  exact ⟨ht, hchain, hskips, else_if_chain ht hchain⟩

end ClosingBrace
