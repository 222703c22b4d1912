/-!
# Quoted literals

Reading what stands between the quotes of a literal. A literal with escapes is read character by
character by a small machine that also says which characters are denoted; a raw literal denotes its
characters as they stand. The kind of the literal decides which escapes and characters it admits.
-/

namespace KeyedModel.Token

/-- What a quoted literal denotes: a text, bytes, or a text that ends with a null character. -/
inductive QuoteKind where
  | text
  | bytes
  | terminated
  deriving DecidableEq, Repr

/-- The value of a hexadecimal digit. -/
def hexValue (c : Char) : Option Nat :=
  if '0' ≤ c && c ≤ '9' then some (c.toNat - '0'.toNat)
  else if 'a' ≤ c && c ≤ 'f' then some (c.toNat - 'a'.toNat + 10)
  else if 'A' ≤ c && c ≤ 'F' then some (c.toNat - 'A'.toNat + 10)
  else none

/-- The character with the given scalar value, if there is one. -/
def charOfScalar (n : Nat) : Option Char :=
  if n.isValidChar then some (Char.ofNat n) else none

/-- The character that a one-letter escape denotes. -/
def shortEscape : Char → Option Char
  | 'n' => some '\n'
  | 'r' => some '\r'
  | 't' => some '\t'
  | '\\' => some '\\'
  | '\'' => some '\''
  | '"' => some '"'
  | '0' => some '\x00'
  | _ => none

/-- Where the reader of a quoted literal stands. -/
inductive QuoteState where
  /-- Between two denoted characters. -/
  | plain
  /-- After a carriage return, which must be followed by a line feed. -/
  | lineEnd
  /-- After a backslash. -/
  | escape
  /-- Before the first digit of a two-digit escape. -/
  | hexFirst
  /-- Before the second digit, with the first one's value. -/
  | hexSecond (high : Nat)
  /-- Before the opening brace of a scalar value. -/
  | scalarOpen
  /-- Within the braces: how many digits were read, and their value. -/
  | scalar (digits value : Nat)
  /-- In the blanks after a backslash at the end of a line. -/
  | joined
  /-- In those blanks, after a carriage return. -/
  | joinedLineEnd
  deriving DecidableEq, Repr

namespace QuoteState

/-- Reading an unescaped character: the next state and what is denoted. -/
def plainStep (kind : QuoteKind) (c : Char) : Option (QuoteState × List Char) :=
  if c == '\\' then some (escape, [])
  else if c == '\r' then some (lineEnd, [])
  else if kind == .bytes && 128 ≤ c.toNat then none
  else if kind == .terminated && c == '\x00' then none
  else some (plain, [c])

/-- Reading the character after a backslash. -/
def escapeStep (kind : QuoteKind) (c : Char) : Option (QuoteState × List Char) :=
  if c == 'x' then some (hexFirst, [])
  else if c == 'u' then if kind == .bytes then none else some (scalarOpen, [])
  else if c == '\n' then some (joined, [])
  else if c == '\r' then some (joinedLineEnd, [])
  else if c == '0' && kind == .terminated then none
  else (shortEscape c).map fun d => (plain, [d])

/-- Reading a character within the braces of a scalar value. -/
def scalarStep (kind : QuoteKind) (digits value : Nat) (c : Char) :
    Option (QuoteState × List Char) :=
  match hexValue c with
  | some d => if digits == 6 then none else some (scalar (digits + 1) (16 * value + d), [])
  | none =>
    if digits == 0 then none
    else if c == '_' then some (scalar digits value, [])
    else if c == '}' then
      if kind == .terminated && value == 0 then none
      else (charOfScalar value).map fun d => (plain, [d])
    else none

/-- Reading one character that does not end the literal. -/
def step (kind : QuoteKind) (state : QuoteState) (c : Char) : Option (QuoteState × List Char) :=
  match state with
  | plain => plainStep kind c
  | lineEnd => if c == '\n' then some (plain, ['\n']) else none
  | escape => escapeStep kind c
  | hexFirst =>
    match hexValue c with
    | some d => if kind == .text && 8 ≤ d then none else some (hexSecond d, [])
    | none => none
  | hexSecond high =>
    match hexValue c with
    | some d =>
      if kind == .terminated && 16 * high + d == 0 then none
      else some (plain, [Char.ofNat (16 * high + d)])
    | none => none
  | scalarOpen => if c == '{' then some (scalar 0 0, []) else none
  | scalar digits value => scalarStep kind digits value c
  | joined =>
    if c == ' ' || c == '\t' || c == '\n' then some (joined, [])
    else if c == '\r' then some (joinedLineEnd, [])
    else plainStep kind c
  | joinedLineEnd => if c == '\n' then some (joined, []) else none

/-- The states in which a double quote ends the literal. -/
def mayEnd : QuoteState → Bool
  | plain | joined => true
  | _ => false

end QuoteState

/-- Reads up to the closing double quote: the denoted characters and what follows. -/
def readQuoted (kind : QuoteKind) (state : QuoteState) : List Char → Option (List Char × List Char)
  | [] => none
  | c :: rest =>
    if c == '"' && state.mayEnd then some ([], rest)
    else
      match state.step kind c with
      | none => none
      | some (next, denoted) =>
        (readQuoted kind next rest).map fun r => (denoted ++ r.1, r.2)

/-- The text after the given number of hash signs, if it begins with them. -/
def dropHashes : Nat → List Char → Option (List Char)
  | 0, chars => some chars
  | n + 1, '#' :: rest => dropHashes n rest
  | _ + 1, _ => none

/-- Counts hash signs up to a double quote; gives the count and what follows the quote. -/
def rawOpening (count : Nat) : List Char → Option (Nat × List Char)
  | '"' :: rest => if count ≤ 255 then some (count, rest) else none
  | '#' :: rest => rawOpening (count + 1) rest
  | _ => none

/-- Whether a raw literal may hold the character, given the one after it. -/
def rawAdmits (kind : QuoteKind) (c : Char) (rest : List Char) : Bool :=
  if c == '\r' then rest.head? == some '\n'
  else if kind == .bytes then c.toNat < 128
  else if kind == .terminated then c != '\x00'
  else true

/-- Reads a raw literal up to a double quote with the given number of hash signs. -/
def readRaw (kind : QuoteKind) (hashes : Nat) : List Char → Option (List Char × List Char)
  | [] => none
  | c :: rest =>
    match if c == '"' then dropHashes hashes rest else none with
    | some after => some ([], after)
    | none =>
      if rawAdmits kind c rest then (readRaw kind hashes rest).map fun r => (c :: r.1, r.2)
      else none

/-- Reads a raw literal from its first hash sign or quote. -/
def readRawQuoted (kind : QuoteKind) (chars : List Char) : Option (List Char × List Char) :=
  match rawOpening 0 chars with
  | some (hashes, rest) => readRaw kind hashes rest
  | none => none

/-- Reads a scalar value up to its closing brace: what follows. -/
def readScalar (digits value : Nat) : List Char → Option (List Char)
  | [] => none
  | c :: rest =>
    match QuoteState.scalarStep .text digits value c with
    | some (.scalar digits value, _) => readScalar digits value rest
    | some _ => some rest
    | none => none

/-- What follows a closing single quote. -/
def afterQuote : List Char → Option (List Char)
  | '\'' :: rest => some rest
  | _ => none

/-- Reads a character literal after its opening quote: what follows the closing one. -/
def readChar : List Char → Option (List Char)
  | '\\' :: 'x' :: a :: b :: rest =>
    if (hexValue a).any (· < 8) && (hexValue b).isSome then afterQuote rest else none
  | '\\' :: 'u' :: '{' :: rest => (readScalar 0 0 rest).bind afterQuote
  | '\\' :: c :: rest => if (shortEscape c).isSome then afterQuote rest else none
  | _ :: rest => afterQuote rest
  | [] => none

/-- Reads a byte literal after its opening quote: what follows the closing one. -/
def readByte : List Char → Option (List Char)
  | '\\' :: 'x' :: a :: b :: rest =>
    if (hexValue a).isSome && (hexValue b).isSome then afterQuote rest else none
  | '\\' :: c :: rest => if (shortEscape c).isSome then afterQuote rest else none
  | c :: rest => if c.toNat < 128 then afterQuote rest else none
  | [] => none

end KeyedModel.Token
