import ClosingBrace.Lint.Diagnostic

/-!
# Message templates

A template is a text with places for arguments: a number between braces stands for the argument of
that number, counted from 0. Every place is filled once, from left to right; what an argument brings
in is not looked at again, and a place without an argument stays as it is.

## Main statements

* `fill_cons_of_ne`: a character other than the opening brace is kept.
* `fill_place`: a place is replaced and the text goes on after it.
-/

namespace ClosingBrace.Message

def leadingDigits (cs : List Char) : List Char := cs.takeWhile Char.isDigit

def afterDigits (cs : List Char) : List Char := cs.dropWhile Char.isDigit

def digitsValue (digits : List Char) : Nat :=
  digits.foldl (fun n c => n * 10 + (c.toNat - '0'.toNat)) 0

/-- What stands in the place written with these digits. -/
def filling (args : List Argument) (digits : List Char) : List Char :=
  match args[digitsValue digits]? with
  | some argument => argument.toText.toList
  | none => '{' :: digits ++ ['}']

/-- The place that a text starts with, after its opening brace: its digits, and the text after its
closing brace. -/
def place? (cs : List Char) :
    Option (List Char × { rest : List Char // rest.length < cs.length }) :=
  if (leadingDigits cs).isEmpty then none
  else
    match h : afterDigits cs with
    | '}' :: rest =>
      some (leadingDigits cs, ⟨rest, by
        have hle := (List.dropWhile_suffix Char.isDigit (l := cs)).length_le
        have hdrop : cs.dropWhile Char.isDigit = '}' :: rest := h
        rw [hdrop, List.length_cons] at hle
        omega⟩)
    | _ => none

def fill (args : List Argument) (template : List Char) : List Char :=
  match template with
  | [] => []
  | c :: rest =>
    if c = '{' then
      match place? rest with
      | some (digits, after) => filling args digits ++ fill args after.val
      | none => c :: fill args rest
    else c :: fill args rest
termination_by template.length
decreasing_by
  · have := after.property
    simp only [List.length_cons]
    omega
  · simp
  · simp

def format (template : String) (args : List Argument) : String :=
  String.ofList (fill args template.toList)

/-! ### Laws -/

theorem fill_nil (args : List Argument) : fill args [] = [] := by rw [fill]

theorem fill_cons_of_ne (args : List Argument) {c : Char} (h : c ≠ '{') (rest : List Char) :
    fill args (c :: rest) = c :: fill args rest := by
  rw [fill, if_neg h]

theorem fill_of_no_place (args : List Argument) {rest : List Char} (h : place? rest = none) :
    fill args ('{' :: rest) = '{' :: fill args rest := by
  rw [fill, if_pos rfl, h]

theorem fill_place (args : List Argument) {rest digits : List Char}
    {after : { r : List Char // r.length < rest.length }} (h : place? rest = some (digits, after)) :
    fill args ('{' :: rest) = filling args digits ++ fill args after.val := by
  rw [fill, if_pos rfl, h]

end ClosingBrace.Message
