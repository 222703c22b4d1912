import KeyedModel.Grammar.Error
import KeyedModel.Text.Identifier

/-!
# Terminals

What the rules of the grammar ask for and take: operators, words, names, lifetimes and literals. A
terminal is matched against the front of the remaining tokens. What is taken prints as it was
written, except that an operator stands alone behind its last character, and the sign of a negative
number stands alone.
-/

namespace KeyedModel.Grammar

open Token
open Text (isKeyword)

/-- What may be asked of the front of the remaining tokens. -/
inductive Terminal where
  /-- The characters of an operator, each but the last directly followed by the next. -/
  | op (text : String)
  /-- One particular word. -/
  | word (text : String)
  /-- Any word, keyword or not. -/
  | anyWord
  /-- A word that is no keyword. -/
  | name
  | lifetime
  /-- A literal, one of the words for the truth values, or a negative number. -/
  | literal
  /-- A string literal. -/
  | textLiteral
  /-- A whole number, negative or not. -/
  | intLiteral
  /-- A number that is not whole, negative or not. -/
  | floatLiteral
  deriving DecidableEq, Repr

/-- The name of a terminal in a list of what could have come. -/
def Terminal.expected : Terminal → Expected
  | op chars => .token chars
  | word w => .token w
  | anyWord => .phrase "identifier"
  | name => .phrase "identifier"
  | lifetime => .phrase "lifetime"
  | literal => .phrase "literal"
  | textLiteral => .phrase "string literal"
  | intLiteral => .phrase "integer literal"
  | floatLiteral => .phrase "floating point literal"

/-- Matches an operator at the front: its characters, spaced as an operator, and what follows. -/
def matchOp : List Char → List Tree → Option (List Tree × List Tree)
  | [c], .punct d _ place :: rest => if c == d then some ([.punct d .alone place], rest) else none
  | c :: more, .punct d .joint place :: rest =>
    if c == d then (matchOp more rest).map fun r => (.punct d .joint place :: r.1, r.2) else none
  | _, _ => none

/-- Whether a literal at the front has one of the kinds, a sign in front of numbers included. -/
def matchLiteral (admits : LiteralKind → Bool) : List Tree → Option (List Tree × List Tree)
  | .literal text place :: rest =>
    if admits (literalKind text) then some ([.literal text place], rest) else none
  | .ident word place :: rest =>
    if (word == "true" || word == "false") && admits .bool then some ([.ident word place], rest)
    else none
  | .punct '-' _ place :: .literal text numberPlace :: rest =>
    let kind := literalKind text
    if (kind == .int || kind == .float) && admits kind then
      some ([.punct '-' .alone place, .literal text numberPlace], rest)
    else none
  | _ => none

/-- Matches a terminal at the front: what is taken, as it prints, and what follows. -/
def Terminal.match? (t : Terminal) (trees : List Tree) : Option (List Tree × List Tree) :=
  match t with
  | op chars => matchOp chars.toList trees
  | word w =>
    match trees with
    | .ident spelling place :: rest =>
      if spelling == w then some ([.ident spelling place], rest) else none
    | _ => none
  | anyWord =>
    match trees with
    | .ident spelling place :: rest => some ([.ident spelling place], rest)
    | _ => none
  | name =>
    match trees with
    | .ident spelling place :: rest =>
      if isKeyword spelling then none else some ([.ident spelling place], rest)
    | _ => none
  | lifetime =>
    match trees with
    | .punct '\'' .joint mark :: .ident spelling place :: rest =>
      some ([.punct '\'' .joint mark, .ident spelling place], rest)
    | _ => none
  | literal => matchLiteral (fun _ => true) trees
  | textLiteral => matchLiteral (· == .text) trees
  | intLiteral => matchLiteral (· == .int) trees
  | floatLiteral => matchLiteral (· == .float) trees

/-- Where an error at the front of the remaining tokens is reported: at the first token, or at the
end of the group. -/
def frontPlace (closing : Place) : List Tree → Place
  | [] => closing
  | t :: _ => t.firstPlace

/-- An error at the front of the remaining tokens. -/
def errorAt (closing : Place) (trees : List Tree) (cause : Cause) : SyntaxError :=
  ⟨frontPlace closing trees, trees.isEmpty, cause⟩

/-- The error of a terminal that does not match. A missing operator is never reported as the end of
the text, and a keyword in place of a name is named. -/
def Terminal.failure (t : Terminal) (closing : Place) (trees : List Tree) : SyntaxError :=
  match t, trees with
  | op chars, _ => ⟨frontPlace closing trees, false, .expected [.token chars]⟩
  | name, .ident spelling place :: _ => ⟨place, false, .keyword spelling⟩
  | t, _ => errorAt closing trees (.expected [t.expected])

/-- The tokens after the first one, a lifetime counting as one. -/
def skipOne : List Tree → Option (List Tree)
  | [] => none
  | .punct '\'' .joint _ :: .ident _ _ :: rest => some rest
  | _ :: rest => some rest

/-- What can be seen at the front of the remaining tokens. -/
inductive Sight where
  | terminal (terminal : Terminal)
  /-- A group with the given delimiter. -/
  | group (delimiter : Delimiter)
  /-- The end of the text or of the group. -/
  | nothing
  deriving DecidableEq, Repr

namespace Sight

/-- The sight of an operator. -/
abbrev op (chars : String) : Sight := terminal (.op chars)

/-- The sight of one particular word. -/
abbrev word (w : String) : Sight := terminal (.word w)

/-- The sight of a word that is no keyword. -/
abbrev name : Sight := terminal .name

/-- The sight of any word. -/
abbrev anyWord : Sight := terminal .anyWord

/-- The sight of a lifetime. -/
abbrev lifetime : Sight := terminal .lifetime

/-- The sight of a literal. -/
abbrev literal : Sight := terminal .literal

/-- The sight of parentheses. -/
abbrev paren : Sight := group .paren

/-- The sight of square brackets. -/
abbrev bracket : Sight := group .bracket

/-- The sight of curly braces. -/
abbrev brace : Sight := group .brace

end Sight

/-- The name of a sight in a list of what could have come. -/
def Sight.expected : Sight → Expected
  | terminal t => t.expected
  | group .paren => .phrase "parentheses"
  | group .bracket => .phrase "square brackets"
  | group .brace => .phrase "curly braces"
  | nothing => .phrase "end of input"

/-- Whether the sight is at the front. -/
def Sight.sees (s : Sight) (trees : List Tree) : Bool :=
  match s with
  | terminal t => (t.match? trees).isSome
  | group d =>
    match trees with
    | .group e _ _ _ :: _ => d == e
    | _ => false
  | nothing => trees.isEmpty

/-- Whether the sight comes after the given number of tokens. -/
def Sight.seesAfter (s : Sight) : Nat → List Tree → Bool
  | 0, trees => s.sees trees
  | n + 1, trees => (skipOne trees).any (s.seesAfter n)

end KeyedModel.Grammar
