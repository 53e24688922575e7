import ClosingBrace.Json.Basic
import ClosingBrace.Number.Decimal

/-!
# Writing JSON

A value is written compactly, on one line without spaces, or with an indentation of two spaces a
level. Only what has to be escaped is escaped: the quote, the backslash and the controls below the
space. An infinite number has no JSON form and is written as `null`.

## Main statements

* `escape_of_plain`: a character that needs no escape is written as itself.
-/

namespace ClosingBrace.Json

def hexDigit (n : Nat) : Char :=
  if n < 10 then Char.ofNat ('0'.toNat + n) else Char.ofNat ('a'.toNat + (n - 10))

def escape (c : Char) : List Char :=
  if c == '"' then ['\\', '"']
  else if c == '\\' then ['\\', '\\']
  else if c == '\x08' then ['\\', 'b']
  else if c == '\t' then ['\\', 't']
  else if c == '\n' then ['\\', 'n']
  else if c == '\x0c' then ['\\', 'f']
  else if c == '\r' then ['\\', 'r']
  else if c.toNat < 0x20 then
    ['\\', 'u', '0', '0', hexDigit (c.toNat / 16), hexDigit (c.toNat % 16)]
  else [c]

def quote (s : String) : String := String.ofList ('"' :: s.toList.flatMap escape ++ ['"'])

/-- A number; one that is not finite is `null`. -/
def writeNumber (n : Number) : String := if n.isFinite then n.text else "null"

/-- How lines are broken: not at all, or with two spaces for each of `depth` levels. -/
inductive Style where
  | compact
  | indented (depth : Nat)

def Style.deeper : Style → Style
  | .compact => .compact
  | .indented depth => .indented (depth + 1)

def Style.lineStart : Style → String
  | .compact => ""
  | .indented depth => "\n" ++ String.ofList (List.replicate (2 * depth) ' ')

def Style.colon : Style → String
  | .compact => ":"
  | .indented _ => ": "

mutual

def write (style : Style) : Json → String
  | .null => "null"
  | .bool value => if value then "true" else "false"
  | .number value => writeNumber value
  | .string value => quote value
  | .array [] => "[]"
  | .array (item :: items) =>
    "[" ++ style.deeper.lineStart ++ write style.deeper item ++ writeItems style.deeper items
      ++ style.lineStart ++ "]"
  | .object [] => "\x7b\x7d"
  | .object ((key, value) :: members) =>
    "\x7b" ++ style.deeper.lineStart ++ quote key ++ style.colon ++ write style.deeper value
      ++ writeMembers style.deeper members ++ style.lineStart ++ "\x7d"

def writeItems (style : Style) : List Json → String
  | [] => ""
  | item :: items => "," ++ style.lineStart ++ write style item ++ writeItems style items

def writeMembers (style : Style) : List (String × Json) → String
  | [] => ""
  | (key, value) :: members =>
    "," ++ style.lineStart ++ quote key ++ style.colon ++ write style value
      ++ writeMembers style members

end

def compact (json : Json) : String := write .compact json

def pretty (json : Json) : String := write (.indented 0) json

/-- A scalar as it reads within a sentence: a string without quotes, an infinite number by name. -/
def plain : Json → String
  | .string value => value
  | .number value => value.text
  | json => json.compact

/-! ### Laws -/

theorem escape_of_plain {c : Char} (hquote : c ≠ '"') (hslash : c ≠ '\\') (hctl : 0x20 ≤ c.toNat) :
    escape c = [c] := by
  have hne : ∀ d : Char, d.toNat < 0x20 → c ≠ d := fun d hd he => by subst he; omega
  have h1 := hne '\x08' (by decide)
  have h2 := hne '\t' (by decide)
  have h3 := hne '\n' (by decide)
  have h4 := hne '\x0c' (by decide)
  have h5 := hne '\r' (by decide)
  have h6 : ¬ c.toNat < 0x20 := by omega
  simp [escape, hquote, hslash, h1, h2, h3, h4, h5, h6]

end ClosingBrace.Json
