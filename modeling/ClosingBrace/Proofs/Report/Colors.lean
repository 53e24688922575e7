import ClosingBrace.Proofs.Number.Digits
import ClosingBrace.Proofs.Text.LineEnds
import ClosingBrace.Report.Text
import Mathlib.Data.List.Forall2

/-!
# Taking the colors off

A color is switched on by a short sequence that starts with an escape character, and off by another.
`uncolored` reads a text once from left to right and leaves these sequences out. Where nothing that
a report is made of has an escape character, the sequences are all that color adds to its rows.

## Main statements

* `painted_paint`: taking the colors off a painted text leaves the text.
* `painted_block`: the same for the rows of a block.
-/

namespace ClosingBrace.Report

variable {s plain colored : String} {d : Diagnostic}

/-- The characters without the sequences that switch a color on, red or yellow, and off again. -/
def withoutColors : List Char → List Char
  | '\x1b' :: '[' :: '3' :: '1' :: 'm' :: rest => withoutColors rest
  | '\x1b' :: '[' :: '3' :: '3' :: 'm' :: rest => withoutColors rest
  | '\x1b' :: '[' :: '0' :: 'm' :: rest => withoutColors rest
  | c :: rest => c :: withoutColors rest
  | [] => []

/-- The text without colors. -/
def uncolored (s : String) : String := String.ofList (withoutColors s.toList)

/-! ## Texts without escapes -/

/-- No color is switched in the text, nor anything else: it has no escape character. -/
def Unescaped (s : String) : Prop := '\x1b' ∉ s.toList

instance (s : String) : Decidable (Unescaped s) := inferInstanceAs (Decidable ('\x1b' ∉ s.toList))

theorem unescaped_append {t : String} : Unescaped (s ++ t) ↔ Unescaped s ∧ Unescaped t := by
  unfold Unescaped
  rw [String.toList_append, List.mem_append, not_or]

theorem unescaped_times {c : Char} (hc : c ≠ '\x1b') (n : Nat) : Unescaped (times n c) := by
  intro hmem
  rw [times, String.toList_ofList] at hmem
  exact hc (List.eq_of_mem_replicate hmem).symm

theorem unescaped_blanks (n : Nat) : Unescaped (times n ' ') := unescaped_times (by decide) n

theorem unescaped_number (x : Number) : Unescaped x.text := by
  intro hmem
  exact absurd (Number.isSymbol_of_mem_text hmem) (by decide)

theorem unescaped_lineAt? {content : String} (hcontent : Unescaped content) {place : Number}
    {line : String} (hline : lineAt? (Text.splitLines content) place = some line) :
    Unescaped line := by
  have hmem : line ∈ Text.splitLines content := by
    unfold lineAt? at hline
    split at hline
    · exact List.mem_of_getElem? hline
    · cases hline
  exact fun hescape => hcontent (Text.mem_of_mem_splitLines hmem hescape)

/-! ## Painted texts -/

/-- The colored text is the plain one with paint on it: whatever follows, taking the colors off
leaves the plain one. -/
def Painted (plain colored : String) : Prop :=
  ∀ rest, withoutColors (colored.toList ++ rest) = plain.toList ++ withoutColors rest

theorem withoutColors_cons {c : Char} (hc : c ≠ '\x1b') (rest : List Char) :
    withoutColors (c :: rest) = c :: withoutColors rest := by
  rw [withoutColors]
  · exact fun _ heq => absurd heq hc
  · exact fun _ heq => absurd heq hc
  · exact fun _ heq => absurd heq hc

/-- A text without escapes has no paint on it. -/
theorem Unescaped.painted (hs : Unescaped s) : Painted s s := by
  intro rest
  unfold Unescaped at hs
  generalize s.toList = cs at hs ⊢
  induction cs with
  | nil => rfl
  | cons c cs ih =>
      rw [List.mem_cons, not_or] at hs
      rw [List.cons_append, withoutColors_cons (Ne.symm hs.1), ih hs.2, List.cons_append]

theorem Painted.append {plain' colored' : String} (h : Painted plain colored)
    (h' : Painted plain' colored') : Painted (plain ++ plain') (colored ++ colored') := by
  intro rest
  rw [String.toList_append, String.toList_append, List.append_assoc, h, h', List.append_assoc]

theorem Painted.uncolored_eq (h : Painted plain colored) : uncolored colored = plain := by
  have hcolors := h []
  rw [List.append_nil] at hcolors
  rw [uncolored, hcolors, withoutColors, List.append_nil, String.ofList_toList]

/-- **Taking the colors off a painted text** leaves the text. -/
theorem painted_paint (hs : Unescaped s) (p : Paint) : Painted s (paint true p s) := by
  have hon : Painted "" ("\x1b[" ++ p.code ++ "m") := by
    intro rest
    cases p <;> rfl
  have hoff : Painted "" "\x1b[0m" := fun rest => rfl
  have hpainted := (hon.append hs.painted).append hoff
  rwa [String.empty_append, String.append_empty] at hpainted

/-- Rows with paint on them make a text with paint on it. -/
theorem painted_join {plains coloreds : List String} (h : List.Forall₂ Painted plains coloreds) :
    Painted ("\n".intercalate plains) ("\n".intercalate coloreds) := by
  induction h with
  | nil => exact Unescaped.painted (by decide)
  | @cons plain colored plains coloreds hrow hrows ih =>
      cases hrows with
      | nil =>
          rw [String.intercalate_singleton, String.intercalate_singleton]
          exact hrow
      | cons _ _ =>
          rw [String.intercalate_cons_cons, String.intercalate_cons_cons]
          exact (hrow.append (Unescaped.painted (by decide))).append ih

/-! ## Rows of a block -/

/-- The texts of a diagnostic that a report shows have no escape characters. -/
structure UnescapedIn (d : Diagnostic) : Prop where
  message : Unescaped d.message
  code : ∀ code ∈ d.code, Unescaped code
  hint : ∀ hint ∈ d.hint, Unescaped hint

theorem painted_heading (hd : UnescapedIn d) : Painted (heading false d) (heading true d) := by
  unfold heading
  simp only
  refine ((Painted.append ?label (Unescaped.painted ?code)).append
    (Unescaped.painted (by decide))).append hd.message.painted
  case label =>
    split
    · exact painted_paint (by decide) .red
    · exact painted_paint (by decide) .yellow
  case code =>
    cases hcode : d.code with
    | none => decide
    | some code =>
        simp only
        split
        · decide
        · simp only [unescaped_append, hd.code code hcode, and_true]
          decide

theorem painted_caretRow (width : Nat) (d : Diagnostic) :
    Painted (caretRow false width d) (caretRow true width d) := by
  have hcarets (n : Nat) : Unescaped (times n '^') := unescaped_times (by decide) n
  refine Painted.append (Unescaped.painted ?_) (painted_paint (hcarets _) .red)
  simp only [unescaped_append, unescaped_blanks, and_true]
  decide

theorem unescaped_position {file : String} (hfile : Unescaped file) (line column : Number) :
    Unescaped ("at " ++ file ++ ":" ++ line.text ++ ":" ++ column.text) := by
  simp only [unescaped_append, hfile, unescaped_number, and_true]
  decide

theorem unescaped_sourceRow (width : Nat) (n : Number) {line : String} (hline : Unescaped line) :
    Unescaped (sourceRow width n line) := by
  simp only [sourceRow, numberCell, unescaped_append, unescaped_blanks, unescaped_number, hline,
    and_true]
  decide

theorem unescaped_neighbourRows (width : Nat) (n : Number) {line? : Option String}
    (hline : ∀ line ∈ line?, Unescaped line) :
    ∀ row ∈ neighbourRows width n line?, Unescaped row := by
  intro row hrow
  cases line? with
  | none => cases hrow
  | some line =>
      rw [List.mem_singleton.mp hrow]
      exact unescaped_sourceRow width n (hline line rfl)

theorem unescaped_hintRows {hint? : Option String} (hhint : ∀ hint ∈ hint?, Unescaped hint) :
    ∀ row ∈ hintRows hint?, Unescaped row := by
  intro row hrow
  cases hint? with
  | none => cases hrow
  | some hint =>
      simp only [hintRows] at hrow
      split at hrow
      · cases hrow
      · rw [List.mem_singleton.mp hrow, unescaped_append]
        exact ⟨by decide, hhint hint rfl⟩

/-- **Taking the colors off the rows of a block** leaves the rows without color. -/
theorem painted_block {file content : String} (hfile : Unescaped file)
    (hcontent : Unescaped content) (hd : UnescapedIn d) :
    List.Forall₂ Painted (block file (Text.splitLines content) false d)
      (block file (Text.splitLines content) true d) := by
  have hsame {rows : List String} (h : ∀ row ∈ rows, Unescaped row) :
      List.Forall₂ Painted rows rows :=
    List.forall₂_same.mpr fun row hrow => (h row hrow).painted
  have hline (place : Number) :
      ∀ line ∈ lineAt? (Text.splitLines content) place, Unescaped line :=
    fun line => unescaped_lineAt? hcontent
  have hneighbour {p : Prop} [Decidable p] (place : Number) :
      ∀ line ∈ if p then lineAt? (Text.splitLines content) place else none, Unescaped line := by
    split
    · exact hline place
    · simp
  unfold block
  simp only
  -- Piece by piece: only the heading and the row of carets have color.
  refine List.rel_append (List.rel_append (List.rel_append (List.rel_append (List.rel_append
    ?start (hsame (unescaped_neighbourRows _ _ (hneighbour _)))) ?marked)
    (hsame (unescaped_neighbourRows _ _ (hneighbour _)))) (hsame (unescaped_hintRows hd.hint)))
    (hsame (by simp [Unescaped]))
  case start =>
    have hposition := unescaped_position hfile d.line d.column
    exact .cons (painted_heading hd) (.cons hposition.painted .nil)
  case marked =>
    have hquoted : Unescaped ((lineAt? (Text.splitLines content)
        (placeOf (Text.splitLines content) d.line)).getD "") := by
      cases hfound : lineAt? (Text.splitLines content)
          (placeOf (Text.splitLines content) d.line) with
      | none => decide
      | some line => exact hline _ line hfound
    exact .cons (unescaped_sourceRow _ _ hquoted).painted (.cons (painted_caretRow _ d) .nil)

end ClosingBrace.Report
