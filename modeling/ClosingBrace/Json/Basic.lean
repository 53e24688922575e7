import ClosingBrace.Number.Basic

/-!
# JSON values

Documents, options and configurations are JSON values. An object lists its members in a fixed order:
first the keys that spell an array index, by their value, then the others in the order in which they
were first written; a key written twice keeps its first place and its last value. `ofMembers` puts
members into that order.

## Main statements

* `lookup_put_self`, `lookup_put_of_ne`: what writing a member does to looking one up.
-/

namespace ClosingBrace

/-- A JSON value. -/
inductive Json where
  | null
  | bool (value : Bool)
  | number (value : Number)
  | string (value : String)
  | array (items : List Json)
  | object (members : List (String × Json))
deriving Inhabited

namespace Json

/-! ### Members -/

def lookup (key : String) : List (String × Json) → Option Json
  | [] => none
  | (k, v) :: rest => if k = key then some v else lookup key rest

/-- Writes a member: an earlier member of the same key gets the new value in its old place. -/
def put (key : String) (value : Json) : List (String × Json) → List (String × Json)
  | [] => [(key, value)]
  | (k, v) :: rest => if k = key then (k, value) :: rest else (k, v) :: put key value rest

/-- One more than the greatest array index; it is `2 ^ 32 - 1`. -/
def indexLimit : Nat := 4294967295

/-- The array index that a key spells: a decimal without leading zeros, below the limit. -/
def arrayIndex? (key : String) : Option Nat :=
  let digits := key.toList
  let value := digits.foldl (fun n c => n * 10 + (c.toNat - '0'.toNat)) 0
  if digits.isEmpty || !digits.all Char.isDigit || digits.length > 10 then none
  else if digits.length > 1 && digits.head? == some '0' then none
  else if value < indexLimit then some value
  else none

/-- Members with the index keys first, in ascending order. -/
def indexKeysFirst (members : List (String × Json)) : List (String × Json) :=
  let isIndex : String × Json → Bool := fun (key, _) => (arrayIndex? key).isSome
  (members.filter isIndex).mergeSort
      (fun a b => (arrayIndex? a.1).getD 0 ≤ (arrayIndex? b.1).getD 0)
    ++ members.filter fun member => !isIndex member

def ofMembers (written : List (String × Json)) : Json :=
  .object (indexKeysFirst (written.foldl (fun members (key, value) => put key value members) []))

/-! ### Access -/

/-- The value of a key, if the value is an object that has it. -/
def get? (json : Json) (key : String) : Option Json :=
  match json with
  | .object members => lookup key members
  | _ => none

/-- The types of values. -/
inductive Shape where
  | null
  | boolean
  | number
  | string
  | array
  | object
deriving DecidableEq

/-- The name of a type, as messages give it. -/
def Shape.name : Shape → String
  | .null => "null"
  | .boolean => "boolean"
  | .number => "number"
  | .string => "string"
  | .array => "array"
  | .object => "object"

def shape : Json → Shape
  | .null => .null
  | .bool _ => .boolean
  | .number _ => .number
  | .string _ => .string
  | .array _ => .array
  | .object _ => .object

/-! ### Laws -/

theorem lookup_put_self (key : String) (value : Json) (members : List (String × Json)) :
    lookup key (put key value members) = some value := by
  induction members with
  | nil => simp [put, lookup]
  | cons m rest ih =>
    rw [put]
    split
    · simp [lookup, *]
    · simp [lookup, *]

theorem lookup_put_of_ne {key other : String} (h : other ≠ key) (value : Json)
    (members : List (String × Json)) :
    lookup other (put key value members) = lookup other members := by
  induction members with
  | nil => simp [put, lookup, h.symm]
  | cons m rest ih =>
    rw [put]
    split
    · rename_i hm
      have hne : ¬ m.1 = other := fun he => h (he.symm.trans hm)
      simp [lookup, hne]
    · simp [lookup, ih]

end Json
end ClosingBrace
