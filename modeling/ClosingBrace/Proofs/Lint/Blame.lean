import ClosingBrace.Proofs.Lint.Coverage
import ClosingBrace.Proofs.Lint.Selection
import Mathlib.Data.List.Nodup
import Mathlib.Data.List.Perm.Subperm

/-!
# No brace is blamed twice

The five shapes of constructs find the closing brace on different ways, and some of them look at no
kind at all. What they have in common is that the brace is a child of a child of the construct. So
a brace belongs to one construct only, however the tree is made, and an instance of the rule cannot
report it for two of them.

## Main statements

* `Context.eq_of_right_eq`, `Finding.eq_of_right_eq`: a brace belongs to one construct.
* `run_of_instances`: what a run over the instances returns, with what each diagnostic is about.
* `brace_blamed_once`: each instance reports each brace at most once.
-/

namespace ClosingBrace

variable {t : Tree}

/-! ## A brace belongs to one construct -/

/-- Two nodes with the same child of a child are the same. -/
theorem Tree.GrandchildOf.unique {a b brace : Handle} {x y : Option Handle}
    (ha : t.GrandchildOf a x) (hb : t.GrandchildOf b y) (hx : x = some brace)
    (hy : y = some brace) : a = b := by
  obtain ⟨block, hblock, hparent⟩ := ha brace hx
  obtain ⟨block', hblock', hparent'⟩ := hb brace hy
  rw [hblock, Option.some.injEq] at hblock'
  rw [← hblock', hparent] at hparent'
  exact Option.some.inj hparent'

/-- Whatever shapes two nodes are taken for, their closing braces differ if the nodes do. -/
theorem Context.eq_of_right_eq (ht : t.WellFormed) {a b brace : Handle}
    {category category' : Category} {c d : Context} (ha : a < t.size) (hb : b < t.size)
    (hc : extract t a category = .ok c) (hd : extract t b category' = .ok d)
    (hcbrace : c.right = some brace) (hdbrace : d.right = some brace) : a = b :=
  ((extract_yields ht ha category).of_ok hc).right_grandchild.unique
    ((extract_yields ht hb category').of_ok hd).right_grandchild hcbrace hdbrace

/-- Whatever the policies, findings at different nodes blame different braces. -/
theorem Finding.eq_of_right_eq (ht : t.WellFormed) {a b : Handle} {policy policy' : Policy}
    {f g : Finding} (hf : analyze t policy a = .ok (some f))
    (hg : analyze t policy' b = .ok (some g)) (hright : f.right = g.right) : a = b := by
  obtain ⟨_, _, _, c, _, hkind, -, hcontext, hbraced, hc, -⟩ := analyze_eq_some hf
  obtain ⟨_, _, _, d, _, hkind', -, hcontext', hbraced', hd, -⟩ := analyze_eq_some hg
  have hcright := (Context.braced?_eq_some_iff.mp hbraced).2.1
  have hdright := (Context.braced?_eq_some_iff.mp hbraced').2.1
  rw [hd, ← hright, ← hc] at hdright
  exact Context.eq_of_right_eq ht (Tree.kind_eq_ok_iff.mp hkind).1 (Tree.kind_eq_ok_iff.mp hkind').1
    hcontext hcontext' hcright hdright

/-! ## What a run over the instances returns -/

variable {made : List BraceOptions}

/-- **A run over the instances** returns one diagnostic for each sighting. -/
theorem run_of_instances (ht : t.Reachable) (hsize : 0 < t.size) (made : List BraceOptions) :
    ∃ seen ds, Rule.run t (made.map BraceOptions.rule) = .ok ds ∧ seen.Nodup ∧
      (∀ s, s ∈ seen ↔ Sighting.Valid t made s) ∧
      List.Forall₂ (Sighting.ToldBy t made) seen ds := by
  obtain ⟨order, horder, -⟩ := ht.wellFormed.exists_preorder hsize
  obtain ⟨seen, found, hfound, hnodup, hvalid, htold⟩ := sightings_of_instances ht hsize made
  obtain ⟨sorted, hperm, hsorted⟩ :=
    exists_perm_forall₂ htold (List.mergeSort_perm found Diagnostic.notAfter).symm
  refine ⟨sorted, _, Rule.run_of_findings ht.wellFormed horder hfound, hperm.nodup hnodup, ?_,
    hsorted⟩
  intro s
  rw [← hperm.mem_iff]
  exact hvalid s

/-! ## How often a brace is reported -/

/-- An instance sights a brace at one node only, and finds one thing there. -/
theorem Sighting.Valid.eq_of_brace (ht : t.WellFormed) {s s' : Sighting} (hs : s.Valid t made)
    (hs' : s'.Valid t made) (hnumber : s.instanceNumber = s'.instanceNumber)
    (hbrace : s.finding.right = s'.finding.right) : s = s' := by
  obtain ⟨number, node, finding⟩ := s
  obtain ⟨number', node', finding'⟩ := s'
  obtain ⟨options, kind, hoptions, -, -, hfound⟩ := hs
  obtain ⟨options', kind', hoptions', -, -, hfound'⟩ := hs'
  obtain rfl : number = number' := hnumber
  obtain rfl : node = node' := Finding.eq_of_right_eq ht hfound hfound' hbrace
  obtain rfl : options = options' := Option.some.inj (hoptions.symm.trans hoptions')
  obtain rfl : finding = finding' := by
    rw [hfound] at hfound'
    exact Option.some.inj (Except.ok.inj hfound')
  rfl

/-- Sightings of one brace come from different instances, so there are no more than instances. -/
theorem length_le_of_brace (ht : t.WellFormed) {seen : List Sighting} (hnodup : seen.Nodup)
    (hvalid : ∀ s ∈ seen, s.Valid t made) {brace : Handle}
    (hbrace : ∀ s ∈ seen, s.finding.right = brace) {numbers : List Nat}
    (hnumbers : ∀ s ∈ seen, s.instanceNumber ∈ numbers) : seen.length ≤ numbers.length := by
  have hdistinct : (seen.map Sighting.instanceNumber).Nodup := by
    apply hnodup.map_on
    intro s hs s' hs' hnumber
    exact (hvalid s hs).eq_of_brace ht (hvalid s' hs') hnumber
      ((hbrace s hs).trans (hbrace s' hs').symm)
  have hsubset : seen.map Sighting.instanceNumber ⊆ numbers := by
    intro i hi
    obtain ⟨s, hs, rfl⟩ := List.mem_map.mp hi
    exact hnumbers s hs
  have hle := (hdistinct.subperm hsubset).length_le
  rwa [List.length_map] at hle

/-- **No brace is blamed twice.** Two nodes have neither contexts nor findings with the same closing
brace. So when instances of the rule are run, each of them reports a brace at most once, and all of
them together no more often than there are instances. -/
theorem brace_blamed_once (ht : t.Reachable) :
    (∀ a b category category' c d brace, a < t.size → b < t.size →
      Context.extract t a category = .ok c → Context.extract t b category' = .ok d →
      c.right = some brace → d.right = some brace → a = b) ∧
    (∀ policy policy' a b f g, Finding.analyze t policy a = .ok (some f) →
      Finding.analyze t policy' b = .ok (some g) → f.right = g.right → a = b) ∧
    ∀ root made, t.root = .ok root → ∃ seen ds,
      Rule.run t (made.map BraceOptions.rule) = .ok ds ∧ seen.Nodup ∧
      (∀ s, s ∈ seen ↔ Sighting.Valid t made s) ∧
      List.Forall₂ (Sighting.ToldBy t made) seen ds ∧
      ∀ brace, (∀ i, (seen.filter fun s => s.finding.right = brace ∧
          s.instanceNumber = i).length ≤ 1) ∧
        (seen.filter fun s => s.finding.right = brace).length ≤ made.length := by
  have hwf := ht.wellFormed
  refine ⟨?_, ?_, ?_⟩
  · intro a b category category' c d brace ha hb hc hd hcbrace hdbrace
    exact Context.eq_of_right_eq hwf ha hb hc hd hcbrace hdbrace
  · intro policy policy' a b f g hf hg hright
    exact Finding.eq_of_right_eq hwf hf hg hright
  · intro root made hroot
    obtain ⟨hsize, -⟩ := hwf.root_eq_ok_iff.mp hroot
    obtain ⟨seen, ds, hrun, hnodup, hvalid, htold⟩ := run_of_instances ht hsize made
    refine ⟨seen, ds, hrun, hnodup, hvalid, htold, fun brace => ⟨fun i => ?_, ?_⟩⟩
    · show _ ≤ [i].length
      have hboth : ∀ s ∈ seen.filter fun s => s.finding.right = brace ∧ s.instanceNumber = i,
          s.finding.right = brace ∧ s.instanceNumber = i :=
        fun s hs => of_decide_eq_true (List.mem_filter.mp hs).2
      refine length_le_of_brace hwf (hnodup.filter _)
        (fun s hs => (hvalid s).mp (List.mem_of_mem_filter hs)) (fun s hs => (hboth s hs).1) ?_
      intro s hs
      exact List.mem_singleton.mpr (hboth s hs).2
    · rw [← List.length_range (n := made.length)]
      refine length_le_of_brace hwf (hnodup.filter _)
        (fun s hs => (hvalid s).mp (List.mem_of_mem_filter hs))
        (fun s hs => of_decide_eq_true (List.mem_filter.mp hs).2) ?_
      intro s hs
      obtain ⟨options, -, hoptions, -⟩ := (hvalid s).mp (List.mem_of_mem_filter hs)
      exact List.mem_range.mpr (List.getElem?_eq_some_iff.mp hoptions).1

/-- An else-if on one line, whose inner block was finished first, under two instances that ask for
the same. Its else branch has no block of its own. -/
theorem brace_blamed_once_in_else_if :
    let t := Tree.replay "if (a) \x7b\x7d else if (b) \x7b\x7d" [⟨.ifStatement, 1, 0, none⟩,
      ⟨.statementList, 1, 7, some 0⟩, ⟨.elseBranch, 1, 10, some 0⟩, ⟨.ifStatement, 1, 15, some 2⟩,
      ⟨.statementList, 1, 22, some 3⟩, ⟨.rightCurly, 1, 23, some 4⟩, ⟨.rightCurly, 1, 8, some 1⟩]
    let options : BraceOptions := ⟨.alone, [.ifStatement, .elseBranch], .error⟩
    let made := [options, options]
    t.Reachable ∧ t.root = .ok 0 ∧
      Context.extract t 0 .branch = .ok ⟨some 1, some 6, some 2, false⟩ ∧
      (∀ b category d, b < t.size → Context.extract t b category = .ok d → d.right = some 6 →
        0 = b) ∧
      Finding.analyze t .alone 3 = .ok (some ⟨.lineAlone, 5, 24⟩) ∧
      (∀ b f, Finding.analyze t .same b = .ok (some f) → 5 = f.right → 3 = b) ∧
      ∃ seen ds, Rule.run t (made.map BraceOptions.rule) = .ok ds ∧ seen.Nodup ∧
        (∀ s, s ∈ seen ↔ Sighting.Valid t made s) ∧
        List.Forall₂ (Sighting.ToldBy t made) seen ds ∧
        ∀ brace, (∀ i, (seen.filter fun s => s.finding.right = brace ∧
            s.instanceNumber = i).length ≤ 1) ∧
          (seen.filter fun s => s.finding.right = brace).length ≤ 2 := by
  intro t options made
  have ht : t.Reachable := Tree.reachable_replay _ _
  have hroot : t.root = .ok 0 := by decide +kernel
  have hcontext : Context.extract t 0 .branch = .ok ⟨some 1, some 6, some 2, false⟩ := by
    decide +kernel
  have hfound : Finding.analyze t .alone 3 = .ok (some ⟨.lineAlone, 5, 24⟩) := by decide +kernel
  obtain ⟨hcontexts, hfindings, hruns⟩ := brace_blamed_once ht
  refine ⟨ht, hroot, hcontext, ?_, hfound, ?_, hruns 0 made hroot⟩
  · intro b category d hb hd hright
    exact hcontexts 0 b .branch category _ d 6 (by decide +kernel) hb hcontext hd rfl hright
  · intro b f hf hright
    exact hfindings .alone .same 3 b _ f hfound hf hright

end ClosingBrace
