/-!
# Reading bytes as UTF-8

Files and standard input are bytes. `ofBytes` reads them as UTF-8 and never fails: each maximal part
that no character starts with becomes one replacement character. A byte order mark is a character
like any other.

## Main statements

* `length_finish_le`: what is left after a character is no longer than before it.
* `charsOfBytes_ascii`: ASCII bytes are read one by one.
-/

namespace ClosingBrace.Text

/-- The character that stands for bytes that are no character. -/
def replacement : Char := '\uFFFD'

/-- What a first byte asks for: how many more bytes follow, the bounds of the next one, and the bits
that the first byte itself contributes. -/
structure Lead where
  more : Nat
  low : UInt8
  high : UInt8
  bits : Nat

/-- What the byte `b` asks for as the first byte of a character of several bytes. The bounds of the
second byte leave out overlong forms, surrogates and everything above the last code point. -/
def lead? (b : UInt8) : Option Lead :=
  if 0xC2 ≤ b && b ≤ 0xDF then some ⟨1, 0x80, 0xBF, b.toNat - 0xC0⟩
  else if b == 0xE0 then some ⟨2, 0xA0, 0xBF, 0⟩
  else if b == 0xED then some ⟨2, 0x80, 0x9F, 0xD⟩
  else if 0xE1 ≤ b && b ≤ 0xEF then some ⟨2, 0x80, 0xBF, b.toNat - 0xE0⟩
  else if b == 0xF0 then some ⟨3, 0x90, 0xBF, 0⟩
  else if 0xF1 ≤ b && b ≤ 0xF3 then some ⟨3, 0x80, 0xBF, b.toNat - 0xF0⟩
  else if b == 0xF4 then some ⟨3, 0x80, 0x8F, 4⟩
  else none

/-- Completes a character that wants `more` bytes, the next one between `low` and `high`. The first
byte out of bounds, or the end, cuts it off; that byte is left for the next character. -/
def finish : (more : Nat) → (low high : UInt8) → (bits : Nat) → List UInt8 → Char × List UInt8
  | 0, _, _, bits, bytes => (Char.ofNat bits, bytes)
  | _ + 1, _, _, _, [] => (replacement, [])
  | more + 1, low, high, bits, b :: rest =>
    if low ≤ b && b ≤ high then finish more 0x80 0xBF (bits * 64 + b.toNat % 64) rest
    else (replacement, b :: rest)

theorem length_finish_le (more : Nat) (low high : UInt8) (bits : Nat) (bytes : List UInt8) :
    (finish more low high bits bytes).2.length ≤ bytes.length := by
  induction more generalizing low high bits bytes with
  | zero => simp [finish]
  | succ more ih =>
    cases bytes with
    | nil => simp [finish]
    | cons b rest =>
      rw [finish]
      split
      · exact Nat.le_trans (ih _ _ _ rest) (by simp)
      · simp

def charsOfBytes (bytes : List UInt8) : List Char :=
  match bytes with
  | [] => []
  | b :: rest =>
    if b < 0x80 then Char.ofNat b.toNat :: charsOfBytes rest
    else
      match lead? b with
      | none => replacement :: charsOfBytes rest
      | some lead =>
        (finish lead.more lead.low lead.high lead.bits rest).1 ::
          charsOfBytes (finish lead.more lead.low lead.high lead.bits rest).2
termination_by bytes.length
decreasing_by
  · simp
  · simp
  · exact Nat.lt_succ_of_le (length_finish_le _ _ _ _ _)

def ofBytes (bytes : List UInt8) : String := String.ofList (charsOfBytes bytes)

/-! ### Laws -/

theorem charsOfBytes_nil : charsOfBytes [] = [] := by rw [charsOfBytes]

theorem charsOfBytes_cons_ascii {b : UInt8} (h : b < 0x80) (rest : List UInt8) :
    charsOfBytes (b :: rest) = Char.ofNat b.toNat :: charsOfBytes rest := by
  rw [charsOfBytes, if_pos h]

theorem charsOfBytes_ascii {bytes : List UInt8} (h : ∀ b ∈ bytes, b < 0x80) :
    charsOfBytes bytes = bytes.map fun b => Char.ofNat b.toNat := by
  induction bytes with
  | nil => exact charsOfBytes_nil
  | cons b rest ih =>
    rw [charsOfBytes_cons_ascii (h b (by simp)), ih fun c hc => h c (by simp [hc]), List.map_cons]

end ClosingBrace.Text
