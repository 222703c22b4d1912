import KeyedModel.Text.Identifier

/-!
# Number literals

Reading a number at the front of a text. Every reader gives what follows the number. A number may
end in a word, which is not judged here; it may not run into further identifier characters.
-/

namespace KeyedModel.Token

open Text (isIdentStart isIdentContinue)

/-- What follows a run of digits and underscores. -/
def dropDigits : List Char → List Char := List.dropWhile fun c => c.isDigit || c == '_'

/-- Whether the text begins with a character that can start an identifier. -/
def startsIdent : List Char → Bool
  | c :: _ => isIdentStart c
  | [] => false

/-- What follows an identifier at the front, or the text itself when there is none. -/
def dropIdent (chars : List Char) : List Char :=
  if startsIdent chars then chars.dropWhile isIdentContinue else chars

/-- The text itself, unless it begins with a character that would continue an identifier. -/
def wordBreak : List Char → Option (List Char)
  | c :: rest => if isIdentContinue c then none else some (c :: rest)
  | [] => some []

/-- Reads an exponent after its letter. Without a digit there is no exponent, and `fallback` says
what follows the number then, if it is one. -/
def readExponent (fallback : Option (List Char)) (signed valued : Bool) :
    List Char → Option (List Char)
  | [] => if valued then some [] else fallback
  | c :: rest =>
    if c == '+' || c == '-' then
      if valued then some (c :: rest)
      else if signed then fallback
      else readExponent fallback true valued rest
    else if c.isDigit then readExponent fallback signed true rest
    else if c == '_' then readExponent fallback signed valued rest
    else if valued then some (c :: rest)
    else fallback

/-- Reads the digits of a number with a decimal point, an exponent or both. -/
def readFloatDigits : List Char → Option (List Char)
  | c :: rest =>
    if c.isDigit then
      match dropDigits rest with
      | '.' :: after =>
        if after.head? == some '.' || startsIdent after then none
        else
          match dropDigits after with
          | 'e' :: last => readExponent (some ('e' :: last)) false false last
          | 'E' :: last => readExponent (some ('E' :: last)) false false last
          | last => some last
      | 'e' :: last => readExponent none false false last
      | 'E' :: last => readExponent none false false last
      | _ => none
    else none
  | [] => none

/-- The value of a digit in some base; letters count up to sixteen. -/
def baseDigit (c : Char) : Option Nat :=
  if c.isDigit then some (c.toNat - '0'.toNat)
  else if 'a' ≤ c && c ≤ 'f' then some (c.toNat - 'a'.toNat + 10)
  else if 'A' ≤ c && c ≤ 'F' then some (c.toNat - 'A'.toNat + 10)
  else none

/-- Reads digits of a base. A decimal digit that is too large spoils the number, a letter that is
too large ends it; `none` also when no digit was read. -/
def readBaseDigits (base : Nat) (seen : Bool) : List Char → Option (List Char)
  | [] => if seen then some [] else none
  | c :: rest =>
    if c == '_' then
      if !seen && base == 10 then none else readBaseDigits base seen rest
    else
      match baseDigit c with
      | some d =>
        if d < base then readBaseDigits base true rest
        else if c.isDigit then none
        else if seen then some (c :: rest) else none
      | none => if seen then some (c :: rest) else none

/-- Reads the digits of a whole number with its base mark. -/
def readIntDigits : List Char → Option (List Char)
  | '0' :: 'x' :: rest => readBaseDigits 16 false rest
  | '0' :: 'o' :: rest => readBaseDigits 8 false rest
  | '0' :: 'b' :: rest => readBaseDigits 2 false rest
  | chars => readBaseDigits 10 false chars

/-- Reads a number with the word that may end it. -/
def readNumber (chars : List Char) : Option (List Char) :=
  match (readFloatDigits chars).bind fun rest => wordBreak (dropIdent rest) with
  | some rest => some rest
  | none => (readIntDigits chars).bind fun rest => wordBreak (dropIdent rest)

end KeyedModel.Token
