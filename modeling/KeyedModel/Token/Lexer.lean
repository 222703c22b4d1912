import KeyedModel.Text.Blank
import KeyedModel.Text.Quoted
import KeyedModel.Token.Basic
import KeyedModel.Token.Number
import KeyedModel.Token.Quotation

/-!
# From text to tokens

The text is cut into elements: a blank character, a comment, a documentation comment, a delimiter,
or a token. Blanks and comments leave nothing behind; a documentation comment becomes an attribute.
The elements are then nested by their delimiters. A text that cannot be cut or nested has no tokens,
and there is only one way to say so.
-/

namespace KeyedModel.Token

open Text (isBlank isIdentStart isIdentContinue quoteLiteral neverRaw)

/-- The characters that are punctuation. -/
def punctuation : List Char := "~!@#$%^&*-=+|;:,<.>/?'".toList

/-- Whether the text begins with a punctuation character that does not open a comment. -/
def startsPunct : List Char → Bool
  | '/' :: '/' :: _ => false
  | '/' :: '*' :: _ => false
  | c :: _ => punctuation.contains c
  | [] => false

/-- Reads an identifier, raw or plain: its spelling and what follows. -/
def readIdent (chars : List Char) : Option (String × List Char) :=
  match chars with
  | 'r' :: '#' :: rest =>
    let name := rest.takeWhile isIdentContinue
    if startsIdent rest && !neverRaw.contains (String.ofList name) then
      some (String.ofList ('r' :: '#' :: name), rest.dropWhile isIdentContinue)
    else none
  | _ =>
    if startsIdent chars then
      some (String.ofList (chars.takeWhile isIdentContinue), chars.dropWhile isIdentContinue)
    else none

/-- Texts that look like a word but open a quoted literal or a reserved spelling. -/
def quoteOpenings : List (List Char) :=
  ["r\"", "r#\"", "r##", "b\"", "b'", "br\"", "br#", "c\"", "cr\"", "cr#"].map String.toList

/-- A comment that stands for a literal that could not be made. -/
def errorMark : List Char := "(/*ERROR*/)".toList

/-- Reads a literal: what follows it, with the word that may end it. -/
def readLiteral (chars : List Char) : Option (List Char) :=
  let quoted : Option (List Char) :=
    match chars with
    | '"' :: rest => (readQuoted .text .plain rest).map (·.2)
    | 'r' :: rest => (readRawQuoted .text rest).map (·.2)
    | 'b' :: '"' :: rest => (readQuoted .bytes .plain rest).map (·.2)
    | 'b' :: 'r' :: rest => (readRawQuoted .bytes rest).map (·.2)
    | 'c' :: '"' :: rest => (readQuoted .terminated .plain rest).map (·.2)
    | 'c' :: 'r' :: rest => (readRawQuoted .terminated rest).map (·.2)
    | 'b' :: '\'' :: rest => readByte rest
    | '\'' :: rest => readChar rest
    | _ => none
  match quoted with
  | some rest => some (dropIdent rest)
  | none => readNumber chars

/-- A token without its place. -/
inductive Leaf where
  | ident (name : String)
  | punct (char : Char) (spacing : Spacing)
  | literal (text : String)
  deriving DecidableEq, Repr

/-- The token at a place. -/
def Leaf.at (leaf : Leaf) (place : Place) : Tree :=
  match leaf with
  | .ident name => .ident name place
  | .punct c spacing => .punct c spacing place
  | .literal text => .literal text place

/-- The characters in front of `rest`, a tail of `chars`. -/
def takenBefore (chars rest : List Char) : List Char := chars.take (chars.length - rest.length)

/-- Whether a mark and the identifier after it are a lifetime: no quote follows, and no hash sign
unless the identifier is raw. -/
def endsLifetime (named after : List Char) : Bool :=
  match after with
  | '\'' :: _ => false
  | '#' :: _ => ['r', '#'].isPrefixOf named
  | _ => true

/-- Reads a token: a literal, else punctuation, else an identifier. -/
def readLeaf (chars : List Char) : Option (Leaf × List Char) :=
  match readLiteral chars with
  | some rest => some (.literal (String.ofList (takenBefore chars rest)), rest)
  | none =>
    match chars with
    | [] => none
    | c :: rest =>
      if startsPunct chars then
        if c == '\'' then
          match readIdent rest with
          | some (_, after) =>
            if endsLifetime rest after then some (.punct c .joint, rest) else none
          | none => none
        else some (.punct c (if startsPunct rest then .joint else .alone), rest)
      else if quoteOpenings.any (·.isPrefixOf chars) then none
      else (readIdent chars).map fun r => (.ident r.1, r.2)

/-- Cuts at the end of the line: the text before it, and what follows with the line feed in front.
A carriage return directly before the line feed belongs to neither. -/
def splitLine : List Char → List Char × List Char
  | [] => ([], [])
  | '\n' :: rest => ([], '\n' :: rest)
  | '\r' :: '\n' :: rest => ([], '\n' :: rest)
  | c :: rest => ((c :: (splitLine rest).1), (splitLine rest).2)

/-- Reads to the end of a nested comment of the given depth: what follows. -/
def readBlockComment (depth : Nat) : List Char → Option (List Char)
  | '/' :: '*' :: rest => readBlockComment (depth + 1) rest
  | '*' :: '/' :: rest =>
    match depth with
    | 0 => none
    | 1 => some rest
    | n + 1 => readBlockComment n rest
  | _ :: rest => readBlockComment depth rest
  | [] => none

/-- Whether every carriage return is followed by a line feed. -/
def lineEndsWhole : List Char → Bool
  | '\r' :: '\n' :: rest => lineEndsWhole rest
  | '\r' :: _ => false
  | _ :: rest => lineEndsWhole rest
  | [] => true

/-- The longest piece that the text is cut into at one step. -/
inductive Element where
  | blank
  | doc (inner : Bool) (comment : List Char)
  | opening (delimiter : Delimiter)
  | closing (delimiter : Delimiter)
  | leaf (leaf : Leaf)
  deriving DecidableEq, Repr

/-- A documentation comment, refused when a carriage return stands alone in it. -/
def docElement (inner : Bool) (comment rest : List Char) : Option (Element × List Char) :=
  if lineEndsWhole comment then some (.doc inner comment, rest) else none

/-- Reads a block comment; the comment text starts after `skip` characters and ends before the last
two. -/
def readBlock (skip : Nat) (chars : List Char) : Option (List Char × List Char) :=
  match readBlockComment 0 chars with
  | some rest =>
    let whole := takenBefore chars rest
    some ((whole.drop skip).take (whole.length - 2 - skip), rest)
  | none => none

/-- Reads a line comment. Three slashes, but not four, and two slashes with an exclamation mark make
documentation. -/
def readLineComment (chars : List Char) : Option (Element × List Char) :=
  let line := splitLine chars
  match chars with
  | '/' :: '/' :: '/' :: '/' :: _ => some (.blank, line.2)
  | '/' :: '/' :: '/' :: _ => docElement false (line.1.drop 3) line.2
  | '/' :: '/' :: '!' :: _ => docElement true (line.1.drop 3) line.2
  | _ => some (.blank, line.2)

/-- Reads a block comment. Two stars, but not three, and an exclamation mark make documentation. -/
def readBlockElement (chars : List Char) : Option (Element × List Char) :=
  match chars with
  | '/' :: '*' :: '*' :: '/' :: rest => some (.blank, rest)
  | '/' :: '*' :: '*' :: '*' :: _ => (readBlock 2 chars).map fun r => (.blank, r.2)
  | '/' :: '*' :: '*' :: _ => (readBlock 3 chars).bind fun r => docElement false r.1 r.2
  | '/' :: '*' :: '!' :: _ => (readBlock 3 chars).bind fun r => docElement true r.1 r.2
  | _ => (readBlock 2 chars).map fun r => (.blank, r.2)

/-- Reads the element at the front of a text that is not empty. -/
def readElement (chars : List Char) : Option (Element × List Char) :=
  match chars with
  | [] => none
  | '/' :: '/' :: _ => readLineComment chars
  | '/' :: '*' :: _ => readBlockElement chars
  | c :: rest =>
    if isBlank c then some (.blank, rest)
    else if errorMark.isPrefixOf chars then
      some (.leaf (.literal (String.ofList errorMark)), chars.drop errorMark.length)
    else
      match c with
      | '(' => some (.opening .paren, rest)
      | '[' => some (.opening .bracket, rest)
      | '{' => some (.opening .brace, rest)
      | ')' => some (.closing .paren, rest)
      | ']' => some (.closing .bracket, rest)
      | '}' => some (.closing .brace, rest)
      | _ => (readLeaf chars).map fun r => (.leaf r.1, r.2)

/-- An element with the stretch of text that it covers. -/
structure Located where
  element : Element
  span : Span
  deriving Repr

/-- The position after some text. -/
def Position.after (start : Position) (text : List Char) : Position :=
  text.foldl
    (fun p c => if c == '\n' then ⟨p.line + 1, 0⟩ else ⟨p.line, p.column + 1⟩) start

/-- Cuts a text into at most `fuel` elements. -/
def cutWith (source : String) (fuel : Nat) (start : Position) (chars : List Char) :
    Option (List Located) :=
  match chars with
  | [] => some []
  | _ =>
    match fuel with
    | 0 => none
    | fuel + 1 =>
      match readElement chars with
      | none => none
      | some (element, rest) =>
        let stop := start.after (takenBefore chars rest)
        (cutWith source fuel stop rest).map fun more => ⟨element, ⟨source, start, stop⟩⟩ :: more

/-- Cuts a text into elements. Each element takes a character at least, so their number is bounded
by the length of the text. -/
def cut (source : String) (start : Position) (chars : List Char) : Option (List Located) :=
  cutWith source chars.length start chars

/-- The attribute that a documentation comment stands for. -/
def docAttribute (inner : Bool) (comment : List Char) (place : Place) : List Tree :=
  let body : Tree := .group .bracket place
    [.ident "doc" place, .punct '=' .alone place,
      .literal (quoteLiteral (String.ofList comment)) place] place
  if inner then [.punct '#' .alone place, .punct '!' .alone place, body]
  else [.punct '#' .alone place, body]

/-- A group that is still open: its delimiter, where it was opened, and the trees in front of it,
the nearest first. -/
structure OpenGroup where
  delimiter : Delimiter
  place : Place
  before : List Tree

/-- Nests elements by their delimiters; `done` holds the trees of the innermost group so far, the
last one first. -/
def nest (stack : List OpenGroup) (done : List Tree) : List Located → Option (List Tree)
  | [] => if stack.isEmpty then some done.reverse else none
  | ⟨.blank, _⟩ :: rest => nest stack done rest
  | ⟨.doc inner comment, span⟩ :: rest =>
    nest stack ((docAttribute inner comment (some span)).reverse ++ done) rest
  | ⟨.leaf leaf, span⟩ :: rest => nest stack (leaf.at (some span) :: done) rest
  | ⟨.opening delimiter, span⟩ :: rest => nest (⟨delimiter, some span, done⟩ :: stack) [] rest
  | ⟨.closing delimiter, span⟩ :: rest =>
    match stack with
    | [] => none
    | top :: stack =>
      if top.delimiter == delimiter then
        nest stack (.group delimiter top.place done.reverse (some span) :: top.before) rest
      else none

/-- The mark that may stand in front of a text without being part of it. -/
def byteOrderMark : Char := '\ufeff'

/-- The tokens of a text that goes by a name. A byte order mark in front of it is passed over. -/
def lex (source text : String) : Option (List Tree) :=
  match text.toList with
  | [] => some []
  | c :: rest =>
    if c == byteOrderMark then (cut source ⟨1, 1⟩ rest).bind (nest [] [])
    else (cut source ⟨1, 0⟩ (c :: rest)).bind (nest [] [])

end KeyedModel.Token
