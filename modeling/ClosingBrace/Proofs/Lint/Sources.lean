import ClosingBrace.Proofs.Lint.Renumbering
import ClosingBrace.Proofs.Tree.Sources

/-!
# What linting sees of a source

Of all the text of a source, linting looks only at what stands left of closing braces, and there
only whether all of it is blank. Everything else that it asks is about the nodes. So one tree over
two sources that answer this question in the same way has the same diagnostics, and whoever edits a
source right of its closing braces changes none.

## Main statements

* `Tree.WellFormed.lint_onSource`: two sources with the same answers have the same diagnostics.
* `lint_sees_left_of_braces`: the same for outlines, and for documents whose source is edited.
-/

namespace ClosingBrace

variable {t : Tree} {config : Config} {rules : List Rule}

/-- A check reports the same over two sources with the same answers at the closing braces. -/
theorem Tree.WellFormed.check_onSource (ht : t.WellFormed) {source : String}
    (hstarts : ∀ construct, ∀ brace ∈ t.closingBrace? construct,
      t.startsLine brace = (t.onSource source).startsLine brace)
    (options : BraceOptions) {a b : Handle} (hab : t.Same a b) :
    BothYield Eq (options.rule.check t a) (options.rule.check (t.onSource source) b) := by
  refine BraceOptions.check_alike options (ht.alike_onSource source) ?_ ?_ hab
  · rintro x _ ⟨-, rfl⟩ hx
    exact hstarts a x hx
  · rintro x _ ⟨-, rfl⟩
    exact ⟨rfl, rfl⟩

/-- **Two sources with the same answers at the closing braces have the same diagnostics.** -/
theorem Tree.WellFormed.lint_onSource (ht : t.WellFormed) (hsize : 0 < t.size) {source : String}
    (hstarts : ∀ construct, ∀ brace ∈ t.closingBrace? construct,
      t.startsLine brace = (t.onSource source).startsLine brace)
    (hrules : config.createRules = .ok rules) :
    ∃ ds, config.lint t = .ok ds ∧ config.lint (t.onSource source) = .ok ds := by
  obtain ⟨made, -, rfl⟩ := Config.createRules_eq_ok hrules
  have hcheck : ∀ rule ∈ made.map BraceOptions.rule, ∀ a b, t.Same a b →
      BothYield Eq (rule.check t a) (rule.check (t.onSource source) b) := by
    intro rule hrule a b hab
    obtain ⟨options, -, rfl⟩ := List.mem_map.mp hrule
    exact ht.check_onSource hstarts options hab
  obtain ⟨ds, _, hrun, hrun', rfl⟩ := (ht.alike_onSource source).run hsize hcheck
  exact ⟨ds, Config.lint_of_run hrules hrun, Config.lint_of_run hrules hrun'⟩

/-- A document whose source is replaced is the document of the same tree over the other source. -/
theorem Document.load_put_source {members : List (String × Json)} {name : String}
    {loaded : LoadedTree} (h : load (some (.object members)) name = .ok loaded)
    (source : String) :
    load (some (.object (Json.put "source" (.string source) members))) name =
      .ok ⟨loaded.file, source, loaded.tree.onSource source⟩ := by
  obtain ⟨d, hcheck, rfl⟩ := load_eq_ok_iff.mp h
  have hformed := ((judges_check _).eq_ok_iff d).mp hcheck
  cases hformed with
  | @object _ file old json root hfile hsource hroot hnode =>
      refine load_eq_ok_iff.mpr ⟨⟨file, source, root⟩, ?_, ?_⟩
      · rw [(judges_check _).eq_ok_iff]
        refine .object ?_ (Json.lookup_put_self _ _ _) ?_ hnode
        · rw [Json.lookup_put_of_ne (by decide), hfile]
        · rw [Json.lookup_put_of_ne (by decide), hroot]
      · rw [toTree, toTree, ← Tree.ofOutline_onSource]

/-- **Linting sees no text but that left of closing braces**, and of that text only whether it is
blank. Let an outline stand over two sources, and let there be only blanks left of the closing brace
of a construct over the one source exactly if there are over the other. Under every configuration
that is accepted, linting the two trees gives the same diagnostics. So it does after an edit of the
source of an accepted document, if the lines stay and so does what stands on them left of every
closing brace of a construct. -/
theorem lint_sees_left_of_braces (hrules : config.createRules = .ok rules) :
    (∀ outline source source', (∀ construct,
        ∀ brace ∈ (Tree.ofOutline source outline).closingBrace? construct,
          (Tree.ofOutline source outline).startsLine brace =
            (Tree.ofOutline source' outline).startsLine brace) →
      ∃ ds, config.lint (Tree.ofOutline source outline) = .ok ds ∧
        config.lint (Tree.ofOutline source' outline) = .ok ds) ∧
    ∀ members name loaded source', Document.load (some (.object members)) name = .ok loaded →
      Text.EditedRightOf loaded.tree.HasBraceAt loaded.source source' →
      ∃ loaded' ds, Document.load
          (some (.object (Json.put "source" (.string source') members))) name = .ok loaded' ∧
        loaded'.source = source' ∧
        config.lint loaded.tree = .ok ds ∧ config.lint loaded'.tree = .ok ds := by
  constructor
  · intro outline source source' hstarts
    rw [Tree.ofOutline_onSource source source'] at hstarts ⊢
    have hwf := (Tree.reachable_ofOutline source outline).wellFormed
    exact hwf.lint_onSource (Tree.size_ofOutline_pos source outline) hstarts hrules
  · intro members name loaded source' hload hedit
    obtain ⟨htree, hsize, hall⟩ := Document.tree_of_load hload
    have hwf := htree.wellFormed
    have hlines := Document.lines_of_load hload
    obtain ⟨ds, hlint, hlint'⟩ := hwf.lint_onSource hsize
      (fun construct brace hbrace => hwf.startsLine_onSource hall hlines hedit hbrace) hrules
    exact ⟨_, ds, Document.load_put_source hload source', rfl, hlint, hlint'⟩

/-- An if statement that ends in the line of its last call. Over the second source another call
stands there; in the third one the first line, which has no closing brace, is another, and so is the
comment behind the brace. -/
theorem lint_sees_left_of_braces_of_call :
    let outline : Outline := .node .ifStatement 1 0
      [.node .statementList 1 7 [.node .methodCall 2 2 [], .node .rightCurly 2 7 []]]
    let source := "if (a) \x7b\n  b(); \x7d // c"
    let reworded := "if (d) \x7b\n e();  \x7d"
    let edited := "while (f) \x7b;\n  b(); \x7d // \x7d"
    let t := Tree.ofOutline source outline
    let members := [("source", .string source), ("root", Document.write outline)]
    let rules := [(⟨.same, Kind.defaultConstructs, .error⟩ : BraceOptions).rule]
    Config.standard.createRules = .ok rules ∧
      Finding.analyze t .same 0 = .ok (some ⟨.lineBreakBefore, 3, 8⟩) ∧
      (∀ construct, ∀ brace ∈ t.closingBrace? construct,
        t.startsLine brace = (Tree.ofOutline reworded outline).startsLine brace) ∧
      (∃ ds, Config.standard.lint t = .ok ds ∧
        Config.standard.lint (Tree.ofOutline reworded outline) = .ok ds) ∧
      Document.load (some (.object members)) "A.java" = .ok ⟨"A.java", source, t⟩ ∧
      Text.EditedRightOf t.HasBraceAt source edited ∧
      ∃ loaded' ds, Document.load
          (some (.object (Json.put "source" (.string edited) members))) "A.java" = .ok loaded' ∧
        loaded'.source = edited ∧
        Config.standard.lint t = .ok ds ∧ Config.standard.lint loaded'.tree = .ok ds := by
  intro outline source reworded edited t members rules
  have hrules : Config.standard.createRules = .ok rules := rfl
  have hwf : t.WellFormed := (Tree.reachable_ofOutline source outline).wellFormed
  have hclosing : ∀ construct, construct < t.size →
      t.closingBrace? construct = if construct = 0 then some 3 else none := by decide +kernel
  -- There is no closing brace but that of the root.
  have honly : ∀ {construct brace}, t.closingBrace? construct = some brace → brace = 3 := by
    intro construct brace hbrace
    rw [hclosing construct (hwf.closingBrace?_lt hbrace).1] at hbrace
    split at hbrace
    · exact (Option.some.inj hbrace).symm
    · cases hbrace
  have hstarts : ∀ construct, ∀ brace ∈ t.closingBrace? construct,
      t.startsLine brace = (Tree.ofOutline reworded outline).startsLine brace := by
    intro construct brace hbrace
    rw [honly hbrace]
    decide +kernel
  have hplaced : outline.All Placed := by
    simp only [outline, Outline.All, Outline.AllOf, Placed]
    decide +kernel
  have hload : Document.load (some (.object members)) "A.java" = .ok ⟨"A.java", source, t⟩ :=
    Document.load_write source "A.java" hplaced
  have hedit : Text.EditedRightOf t.HasBraceAt source edited := by
    refine ⟨by decide +kernel, ?_⟩
    rintro i n line line' ⟨construct, brace, hbrace, hi, hn⟩ hline hline'
    obtain rfl := honly hbrace
    have hmark : (t.lineAt 3 - 1).toNat? = some 1 ∧ (t.columnAt 3).toNat? = some 7 := by
      decide +kernel
    have hlines : (Text.splitLines source)[1]? = some "  b(); \x7d // c" ∧
        (Text.splitLines edited)[1]? = some "  b(); \x7d // \x7d" := by
      decide +kernel
    rw [hmark.1, Option.some.injEq] at hi
    rw [hmark.2, Option.some.injEq] at hn
    subst hi hn
    rw [hlines.1, Option.some.injEq] at hline
    rw [hlines.2, Option.some.injEq] at hline'
    subst hline hline'
    decide +kernel
  obtain ⟨houtlines, hdocuments⟩ := lint_sees_left_of_braces hrules
  have hedited := hdocuments members "A.java" ⟨"A.java", source, t⟩ edited hload hedit
  exact ⟨hrules, by decide +kernel, hstarts, houtlines outline source reworded hstarts, hload,
    hedit, hedited⟩

end ClosingBrace
