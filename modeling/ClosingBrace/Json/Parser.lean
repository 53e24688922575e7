import ClosingBrace.Json.Basic
import ClosingBrace.Number.Decimal

/-!
# Reading JSON

`parse?` accepts exactly the JSON grammar: four kinds of blanks between tokens, no byte order mark,
no trailing comma, no leading zero, no control character inside quotes. Numbers are read to the
nearest double. An escape may write half of a surrogate pair; two matching halves in a row are one
character, and a half on its own is read as the replacement character.

A value that starts in a text of `n` characters ends within it, so `n` bounds the depth of the
recursion.

## Main statements

* `skipBlanks_of_not_blank`: a token is where it is.
* `joinHalves_pair`: two matching halves make one character.
-/

namespace ClosingBrace.Json

/-! ### Tokens -/

def isGap (c : Char) : Bool := c == ' ' || c == '\t' || c == '\n' || c == '\r'

def skipBlanks (cs : List Char) : List Char := cs.dropWhile isGap

/-- The text after a word that has to stand at its start. -/
def afterWord? : (word : List Char) → List Char → Option (List Char)
  | [], rest => some rest
  | _ :: _, [] => none
  | w :: word, c :: rest => if w = c then afterWord? word rest else none

def hexValue? (c : Char) : Option Nat :=
  if c.isDigit then some (c.toNat - '0'.toNat)
  else if 'a' ≤ c && c ≤ 'f' then some (c.toNat - 'a'.toNat + 10)
  else if 'A' ≤ c && c ≤ 'F' then some (c.toNat - 'A'.toNat + 10)
  else none

/-- The character that a one-letter escape stands for. -/
def shortEscape? (c : Char) : Option Nat :=
  match c with
  | '"' => some 0x22
  | '\\' => some 0x5C
  | '/' => some 0x2F
  | 'b' => some 8
  | 'f' => some 12
  | 'n' => some 10
  | 'r' => some 13
  | 't' => some 9
  | _ => none

/-- What stands between quotes, up to the closing quote: characters as written and the code units of
escapes, last first. -/
def quotedUnits? (read : List Nat) : List Char → Option (List Nat × List Char)
  | [] => none
  | '"' :: rest => some (read, rest)
  | '\\' :: 'u' :: a :: b :: c :: d :: rest =>
    match hexValue? a, hexValue? b, hexValue? c, hexValue? d with
    | some a, some b, some c, some d =>
      quotedUnits? ((((a * 16 + b) * 16 + c) * 16 + d) :: read) rest
    | _, _, _, _ => none
  | '\\' :: e :: rest =>
    match shortEscape? e with
    | some unit => quotedUnits? (unit :: read) rest
    | none => none
  | c :: rest => if c.toNat < 0x20 || c == '\\' then none else quotedUnits? (c.toNat :: read) rest

def isHighHalf (u : Nat) : Bool := 0xD800 ≤ u && u ≤ 0xDBFF

def isLowHalf (u : Nat) : Bool := 0xDC00 ≤ u && u ≤ 0xDFFF

def ofHalves (high low : Nat) : Char :=
  Char.ofNat (0x10000 + (high - 0xD800) * 0x400 + (low - 0xDC00))

/-- The character of a unit that is no part of a pair. -/
def ofUnit (u : Nat) : Char := if isHighHalf u || isLowHalf u then '\uFFFD' else Char.ofNat u

/-- The characters that units make, matching halves taken together. -/
def joinHalves : List Nat → List Char
  | [] => []
  | [u] => [ofUnit u]
  | u :: v :: rest =>
    if isHighHalf u && isLowHalf v then ofHalves u v :: joinHalves rest
    else ofUnit u :: joinHalves (v :: rest)

/-- The text after an opening quote, and what follows its closing quote. -/
def string? (cs : List Char) : Option (String × List Char) :=
  (quotedUnits? [] cs).map fun (units, rest) => (String.ofList (joinHalves units.reverse), rest)

/-! ### Numbers -/

def digitsValue (digits : List Char) : Nat :=
  digits.foldl (fun n c => n * 10 + (c.toNat - '0'.toNat)) 0

/-- The digits of a whole part: a zero alone, or digits that start with another one. -/
def wholePart? (cs : List Char) : Option (List Char × List Char) :=
  match cs with
  | '0' :: rest => some (['0'], rest)
  | _ =>
    let digits := cs.takeWhile Char.isDigit
    if digits.isEmpty then none else some (digits, cs.dropWhile Char.isDigit)

/-- The digits after a decimal point; none if there is no point. -/
def fractionPart? (cs : List Char) : Option (List Char × List Char) :=
  match cs with
  | '.' :: rest =>
    let digits := rest.takeWhile Char.isDigit
    if digits.isEmpty then none else some (digits, rest.dropWhile Char.isDigit)
  | _ => some ([], cs)

def exponentDigits? (sign : Int) (cs : List Char) : Option (Int × List Char) :=
  let digits := cs.takeWhile Char.isDigit
  if digits.isEmpty then none else some (sign * digitsValue digits, cs.dropWhile Char.isDigit)

/-- The exponent; zero if none is written. -/
def exponentPart? (cs : List Char) : Option (Int × List Char) :=
  match cs with
  | c :: rest =>
    if c == 'e' || c == 'E' then
      match rest with
      | '+' :: rest => exponentDigits? 1 rest
      | '-' :: rest => exponentDigits? (-1) rest
      | _ => exponentDigits? 1 rest
    else some (0, cs)
  | [] => some (0, cs)

def magnitude? (cs : List Char) : Option (Number × List Char) := do
  let (whole, rest) ← wholePart? cs
  let (fraction, rest) ← fractionPart? rest
  let (exponent, rest) ← exponentPart? rest
  return (Number.ofDecimal ⟨digitsValue (whole ++ fraction), exponent - fraction.length⟩, rest)

def number? (cs : List Char) : Option (Number × List Char) :=
  match cs with
  | '-' :: rest => (magnitude? rest).map fun (n, rest) => (-n, rest)
  | _ => magnitude? cs

/-! ### Values -/

mutual

/-- The value at the start of a text without leading blanks, and what follows it. -/
def value? (fuel : Nat) (cs : List Char) : Option (Json × List Char) :=
  match fuel with
  | 0 => none
  | fuel + 1 =>
    match cs with
    | 'n' :: _ => (afterWord? "null".toList cs).map fun rest => (.null, rest)
    | 't' :: _ => (afterWord? "true".toList cs).map fun rest => (.bool true, rest)
    | 'f' :: _ => (afterWord? "false".toList cs).map fun rest => (.bool false, rest)
    | '"' :: rest => (string? rest).map fun (s, rest) => (.string s, rest)
    | '[' :: rest =>
      match skipBlanks rest with
      | ']' :: rest => some (.array [], rest)
      | rest => items? fuel [] rest
    | '{' :: rest =>
      match skipBlanks rest with
      | '}' :: rest => some (.object [], rest)
      | rest => members? fuel [] rest
    | _ => (number? cs).map fun (n, rest) => (.number n, rest)

/-- The items of an array after those already read, last first. -/
def items? (fuel : Nat) (read : List Json) (cs : List Char) : Option (Json × List Char) :=
  match fuel with
  | 0 => none
  | fuel + 1 =>
    match value? fuel cs with
    | none => none
    | some (item, rest) =>
      match skipBlanks rest with
      | ',' :: rest => items? fuel (item :: read) (skipBlanks rest)
      | ']' :: rest => some (.array (item :: read).reverse, rest)
      | _ => none

/-- The members of an object after those already read, last first. -/
def members? (fuel : Nat) (read : List (String × Json)) (cs : List Char) :
    Option (Json × List Char) :=
  match fuel with
  | 0 => none
  | fuel + 1 =>
    match cs with
    | '"' :: rest =>
      match string? rest with
      | none => none
      | some (key, rest) =>
        match skipBlanks rest with
        | ':' :: rest =>
          match value? fuel (skipBlanks rest) with
          | none => none
          | some (value, rest) =>
            match skipBlanks rest with
            | ',' :: rest => members? fuel ((key, value) :: read) (skipBlanks rest)
            | '}' :: rest => some (ofMembers ((key, value) :: read).reverse, rest)
            | _ => none
        | _ => none
    | _ => none

end

/-- The value that a text spells, with nothing but blanks around it. -/
def parse? (text : String) : Option Json :=
  let cs := skipBlanks text.toList
  match value? (cs.length + 1) cs with
  | some (json, rest) => if (skipBlanks rest).isEmpty then some json else none
  | none => none

/-! ### Laws -/

theorem skipBlanks_of_not_blank {c : Char} (h : isGap c = false) (cs : List Char) :
    skipBlanks (c :: cs) = c :: cs := by
  simp [skipBlanks, h]

theorem joinHalves_pair {high low : Nat} (hh : isHighHalf high = true) (hl : isLowHalf low = true)
    (rest : List Nat) :
    joinHalves (high :: low :: rest) = ofHalves high low :: joinHalves rest := by
  simp [joinHalves, hh, hl]

end ClosingBrace.Json
