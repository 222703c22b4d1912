import KeyedModel.Text.UnprintableTable

/-!
# Quoted text

Two spellings of a text between double quotes. Both escape tab, carriage return, line feed, the
backslash and the double quote, and spell every character that does not stand for itself by its
scalar value in hexadecimal. They differ in the null character alone: a display quote always spells
it with one digit, a literal takes the two-digit form before an octal digit, since the one-digit
form would look like an octal escape there.
-/

namespace KeyedModel.Text

/-- Characters that are spelled by their scalar value. -/
def needsHex (c : Char) : Bool :=
  c.toNat < 0x20 || c.toNat == 0x7f || (128 ≤ c.toNat && unprintableRanges.contains c)

/-- The scalar value in lower case hexadecimal between braces, after `\u`. -/
def hexEscape (c : Char) : List Char :=
  '\\' :: 'u' :: '{' :: (Nat.toDigits 16 c.toNat ++ ['}'])

/-- A character other than the null character inside quotes. -/
def escapeChar (c : Char) : List Char :=
  if c == '\t' then ['\\', 't']
  else if c == '\r' then ['\\', 'r']
  else if c == '\n' then ['\\', 'n']
  else if c == '\\' then ['\\', '\\']
  else if c == '"' then ['\\', '"']
  else if needsHex c then hexEscape c
  else [c]

/-- The inside of a display quote. -/
def escapeDisplay : List Char → List Char
  | [] => []
  | c :: rest => (if c == '\x00' then ['\\', '0'] else escapeChar c) ++ escapeDisplay rest

/-- Whether the text begins with an octal digit. -/
def startsOctal : List Char → Bool
  | c :: _ => '0' ≤ c && c ≤ '7'
  | [] => false

/-- The inside of a string literal. -/
def escapeLiteral : List Char → List Char
  | [] => []
  | c :: rest =>
    (if c == '\x00' then
      if startsOctal rest then ['\\', 'x', '0', '0'] else ['\\', '0']
    else escapeChar c) ++ escapeLiteral rest

/-- The text between double quotes, for display. -/
def quoteDisplay (text : String) : String :=
  String.ofList ('"' :: (escapeDisplay text.toList ++ ['"']))

/-- The text as a string literal. -/
def quoteLiteral (text : String) : String :=
  String.ofList ('"' :: (escapeLiteral text.toList ++ ['"']))

end KeyedModel.Text
