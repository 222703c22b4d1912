import KeyedModel.Text.IdentTable

/-!
# Identifiers as text

An identifier is a start character followed by continue characters. The ASCII part of both classes
is written out; the rest comes from the tables. A raw identifier carries the mark `r#` in front.
-/

namespace KeyedModel.Text

/-- A letter, an underscore or a further character of `XID_Start`. -/
def isIdentStart (c : Char) : Bool :=
  c == '_' || c.isAlpha || (128 ≤ c.toNat && identStartRanges.contains c)

/-- A start character, a digit or a further character of `XID_Continue`. -/
def isIdentContinue (c : Char) : Bool :=
  isIdentStart c || c.isDigit || (128 ≤ c.toNat && identContinueRanges.contains c)

/-- Every start character may also continue an identifier. -/
theorem isIdentContinue_of_isIdentStart {c : Char} (h : isIdentStart c = true) :
    isIdentContinue c = true := by
  simp [isIdentContinue, h]

/-- A plain identifier: one start character, then continue characters. -/
def isPlainIdent : List Char → Bool
  | [] => false
  | c :: rest => isIdentStart c && rest.all isIdentContinue

/-- Words that no raw identifier may spell. -/
def neverRaw : List String := ["_", "super", "self", "Self", "crate"]

/-- The words that are not accepted where a plain name is expected. -/
def keywords : List String :=
  ["_", "abstract", "as", "async", "await", "become", "box", "break", "const", "continue",
    "crate", "do", "dyn", "else", "enum", "extern", "false", "final", "fn", "for", "if", "impl",
    "in", "let", "loop", "macro", "match", "mod", "move", "mut", "override", "priv", "pub", "ref",
    "return", "Self", "self", "static", "struct", "super", "trait", "true", "try", "type",
    "typeof", "unsafe", "unsized", "use", "virtual", "where", "while", "yield"]

/-- Whether the word is a keyword; a raw identifier never is. -/
def isKeyword (word : String) : Bool := keywords.contains word

/-- The name without the mark of a raw identifier. -/
def unraw (name : String) : String :=
  match name.toList with
  | 'r' :: '#' :: rest => String.ofList rest
  | _ => name

/-- Whether the text spells an identifier, plain or raw; keywords are plain identifiers. -/
def isIdentifier (name : String) : Bool :=
  match name.toList with
  | 'r' :: '#' :: rest => isPlainIdent rest && !neverRaw.contains (String.ofList rest)
  | chars => isPlainIdent chars

/-- Whether the text spells a name that can be declared: a plain identifier that is no keyword, or
the raw mark and an identifier that may be raw. -/
def isDeclarable (name : String) : Bool :=
  match name.toList with
  | 'r' :: '#' :: rest => isPlainIdent rest && !neverRaw.contains (String.ofList rest)
  | chars => isPlainIdent chars && !isKeyword name

end KeyedModel.Text
