import KeyedModel.Token.Number
import KeyedModel.Token.Quotation

/-!
# What a literal denotes

The kind of a literal is decided by how it begins and, for numbers, by whether it reads as a whole
number. String literals denote a text; the word that may follow the closing quote is no part of it.
-/

namespace KeyedModel.Token

/-- The kinds of literals. -/
inductive LiteralKind where
  | text
  | byteText
  | terminatedText
  | byte
  | char
  | int
  | float
  | bool
  /-- The mark of a literal that could not be made. -/
  | mark
  deriving DecidableEq, Repr

/-- Whether the letter of an exponent begins one, given what follows it: digits must come, with
underscores between them, and behind them nothing or a word. A sign decides at once. -/
def beginsExponent (seen : Bool) : List Char → Bool
  | [] => seen
  | c :: rest =>
    if c == '_' then beginsExponent seen rest
    else if c == '-' || c == '+' then true
    else if c.isDigit then beginsExponent true rest
    else seen && startsIdent (c :: rest)

/-- Reads the digits of a whole number: its value and the word that ends it. `none` if it has no
digits, a digit too large for its base, or is no whole number. -/
def wholeDigits (base : Nat) (value : Option Nat) : List Char → Option (Nat × List Char)
  | [] => value.map (·, [])
  | c :: rest =>
    if c == '_' then wholeDigits base value rest
    else if c == '.' && base == 10 then none
    else if (c == 'e' || c == 'E') && base == 10 then
      if beginsExponent false rest then none else value.map (·, c :: rest)
    else
      match baseDigit c with
      | some d =>
        if !c.isDigit && base ≤ 10 then value.map (·, c :: rest)
        else if base ≤ d then none
        else wholeDigits base (some (base * value.getD 0 + d)) rest
      | none => value.map (·, c :: rest)

/-- A whole number as its value and the word that ends it. -/
def wholeNumber? (chars : List Char) : Option (Nat × List Char) :=
  match chars with
  | '0' :: 'x' :: rest => wholeDigits 16 none rest
  | '0' :: 'o' :: rest => wholeDigits 8 none rest
  | '0' :: 'b' :: rest => wholeDigits 2 none rest
  | c :: _ => if c.isDigit then wholeDigits 10 none chars else none
  | [] => none

/-- The kind of a literal with the given spelling. -/
def literalKind (text : String) : LiteralKind :=
  match text.toList with
  | '"' :: _ => .text
  | 'r' :: _ => .text
  | 'b' :: '\'' :: _ => .byte
  | 'b' :: _ => .byteText
  | 'c' :: _ => .terminatedText
  | '\'' :: _ => .char
  | '(' :: _ => .mark
  | chars => if (wholeNumber? chars).isSome then .int else .float

/-- The text that a string literal denotes. -/
def textValue? (text : String) : Option String :=
  match text.toList with
  | '"' :: rest => (readQuoted .text .plain rest).map fun r => String.ofList r.1
  | 'r' :: rest => (readRawQuoted .text rest).map fun r => String.ofList r.1
  | _ => none

/-- Why a number is no position in a tuple. -/
inductive IndexFault where
  | notWhole
  | suffixed
  | tooLarge
  deriving DecidableEq, Repr

/-- The position in a tuple that a number denotes: a whole number below `2 ^ 32` without a word at
its end. -/
def tupleIndex (chars : List Char) : Except IndexFault Nat :=
  match wholeNumber? chars with
  | none => .error .notWhole
  | some (value, []) => if value < UInt32.size then .ok value else .error .tooLarge
  | some (_, _ :: _) => .error .suffixed

end KeyedModel.Token
