/-!
# Identities

An identity is a number of 128 bits. It is written as 32 hexadecimal digits in groups of 8, 4, 4, 4
and 12 with hyphens between them: in lower case, but read in either case.
-/

namespace KeyedModel

/-- An identity. -/
structure Uuid where
  bits : BitVec 128
  deriving DecidableEq, Repr

namespace Uuid

/-- The sizes of the groups of digits. -/
def groups : List Nat := [8, 4, 4, 4, 12]

/-- The value of a hexadecimal digit. -/
def digit? (c : Char) : Option Nat :=
  if c.isDigit then some (c.toNat - '0'.toNat)
  else if 'a' ≤ c && c ≤ 'f' then some (c.toNat - 'a'.toNat + 10)
  else if 'A' ≤ c && c ≤ 'F' then some (c.toNat - 'A'.toNat + 10)
  else none

/-- The digits of some text with hyphens between its groups. -/
def digits? : List Nat → List Char → Option (List Nat)
  | [], [] => some []
  | [], _ :: _ => none
  | n :: rest, chars =>
    let group := chars.take n
    if group.length < n then none
    else
      match group.mapM digit?, rest, chars.drop n with
      | some digits, [], after => if after.isEmpty then some digits else none
      | some digits, _ :: _, '-' :: after => (digits? rest after).map (digits ++ ·)
      | _, _, _ => none

/-- Reads an identity. -/
def ofText? (text : String) : Option Uuid :=
  (digits? groups text.toList).map fun digits =>
    ⟨.ofNat 128 (digits.foldl (fun value d => 16 * value + d) 0)⟩

/-- The lowest hexadecimal digits of a number, the highest of them first. -/
def lowDigits : Nat → Nat → List Char
  | 0, _ => []
  | n + 1, value => lowDigits n (value / 16) ++ [Nat.digitChar (value % 16)]

/-- Puts hyphens between the groups of some digits. -/
def hyphenate : List Nat → List Char → List Char
  | [], _ => []
  | [n], chars => chars.take n
  | n :: rest, chars => chars.take n ++ '-' :: hyphenate rest (chars.drop n)

/-- Writes an identity. -/
def text (id : Uuid) : String :=
  String.ofList (hyphenate groups (lowDigits 32 id.bits.toNat))

end Uuid

end KeyedModel
