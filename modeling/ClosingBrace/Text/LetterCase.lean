import ClosingBrace.Text.CaseTable

/-!
# Letter case

Two readings of letter case meet in the tool. The name of a policy is compared by its capitals
(`capitals`), and the name of an output format is turned into small letters (`small`).

Small letters follow the full mapping of Unicode: the dotted capital I becomes two characters, and
a capital sigma at the end of a word takes its final form. Capitals only have to be exact where the
result is compared with a name in ASCII letters and underscores that has no double letter that a
ligature or a sharp s could give, so besides the ASCII letters only the long s and the dotless i
are raised: no other letter has an ASCII capital.

## Main statements

* `capital_toLower_of_ascii`: the case of an ASCII letter does not show in its capital.
* `smallFrom_cons`: the small form is found one character at a time, from both neighbourhoods.
-/

namespace ClosingBrace.Text

/-! ### Capitals -/

/-- The capital of a character, where that capital is a single ASCII letter. -/
def capital (c : Char) : Char :=
  if c == 'ſ' then 'S'
  else if c == 'ı' then 'I'
  else c.toUpper

/-- A text in capitals, exact as far as ASCII letters go. -/
def capitals (s : String) : String := String.ofList (s.toList.map capital)

/-! ### Small letters -/

def isCased (c : Char) : Bool := inRanges casedRanges c.toNat

/-- A character that a search for a cased neighbour skips. -/
def isCaseIgnorable (c : Char) : Bool := inRanges caseIgnorableRanges c.toNat

/-- Whether the next character that is not skipped has case. -/
def meetsCased (cs : List Char) : Bool :=
  match cs.dropWhile isCaseIgnorable with
  | [] => false
  | c :: _ => isCased c

/-- The small form of a character, given the characters before it, nearest first, and those after
it: a sigma is final when a letter stands before it and none after it. -/
def smallIn (before : List Char) (c : Char) (after : List Char) : List Char :=
  if c == 'İ' then ['i', '\u0307']
  else if c == 'Σ' then
    if meetsCased before && !meetsCased after then ['ς'] else ['σ']
  else [Char.ofNat (mapBySpans smallSpans c.toNat)]

/-- The small form of a list of characters that follows `before`, nearest first. -/
def smallFrom (before : List Char) : List Char → List Char
  | [] => []
  | c :: rest => smallIn before c rest ++ smallFrom (c :: before) rest

def small (s : String) : String := String.ofList (smallFrom [] s.toList)

/-! ### Laws -/

/-- The case of an ASCII letter does not show in its capital. -/
theorem capital_toLower_of_ascii :
    ∀ n < 128, capital (Char.ofNat n).toLower = capital (Char.ofNat n) := by decide +kernel

/-- The small form of a text, one character at a time. -/
theorem smallFrom_cons (before : List Char) (c : Char) (rest : List Char) :
    smallFrom before (c :: rest) = smallIn before c rest ++ smallFrom (c :: before) rest := rfl

end ClosingBrace.Text
