/-!
# Tokens

Source text is a sequence of token trees: identifiers, single punctuation characters, literals, and
groups between delimiters. Every tree knows where it was written; a tree that was never written has
no place.
-/

namespace KeyedModel.Token

/-- A place between two characters: the line, counted from one, and the column, counted from zero
in scalar values. -/
structure Position where
  line : Nat
  column : Nat
  deriving DecidableEq, Repr

/-- A stretch of a source text, which goes by a name; the end is exclusive. -/
structure Span where
  source : String
  start : Position
  stop : Position
  deriving DecidableEq, Repr

/-- Where something was written, if it was written at all. -/
abbrev Place := Option Span

/-- From the start of the first place to the end of the second. -/
def Place.to (first last : Place) : Place :=
  match first, last with
  | some a, some b => some ⟨a.source, a.start, b.stop⟩
  | _, _ => none

/-- Whether a punctuation character is directly followed by another one. -/
inductive Spacing where
  | alone
  | joint
  deriving DecidableEq, Repr

/-- The delimiters of a group. -/
inductive Delimiter where
  | paren
  | bracket
  | brace
  deriving DecidableEq, Repr

namespace Delimiter

/-- The opening character. -/
def opening : Delimiter → Char
  | paren => '('
  | bracket => '['
  | brace => '{'

/-- The closing character. -/
def closing : Delimiter → Char
  | paren => ')'
  | bracket => ']'
  | brace => '}'

end Delimiter

/-- A token tree. -/
inductive Tree where
  | ident (name : String) (place : Place)
  | punct (char : Char) (spacing : Spacing) (place : Place)
  | literal (text : String) (place : Place)
  | group (delimiter : Delimiter) (opening : Place) (inner : List Tree) (closing : Place)
  deriving Repr, Inhabited

namespace Tree

/-- The whole tree, from delimiter to delimiter for a group. -/
def place : Tree → Place
  | ident _ p => p
  | punct _ _ p => p
  | literal _ p => p
  | group _ o _ c => o.to c

/-- The first token of the tree, the opening delimiter of a group. -/
def firstPlace : Tree → Place
  | group _ o _ _ => o
  | t => t.place

mutual

/-- The number of tokens, a group counting its two delimiters. -/
def size : Tree → Nat
  | group _ _ inner _ => sizeList inner + 2
  | _ => 1

/-- The number of tokens of a sequence. -/
def sizeList : List Tree → Nat
  | [] => 0
  | t :: rest => t.size + sizeList rest

end

end Tree

/-- A punctuation character that stands alone and was never written. -/
def sign (c : Char) : Tree := .punct c .alone none

/-- A punctuation character that the next one follows directly and that was never written. -/
def jointSign (c : Char) : Tree := .punct c .joint none

/-- An operator: its characters follow each other directly, the last one stands alone. -/
def operator : List Char → List Tree
  | [] => []
  | [c] => [sign c]
  | c :: rest => jointSign c :: operator rest

/-- A word that was never written. -/
def word (name : String) : Tree := .ident name none

/-- A literal that was never written. -/
def literal (text : String) : Tree := .literal text none

/-- A group that was never written. -/
def group (delimiter : Delimiter) (inner : List Tree) : Tree := .group delimiter none inner none

/-- A lifetime: its mark, directly followed by its name. -/
def lifetime (name : String) : List Tree := [jointSign '\'', word name]

end KeyedModel.Token
