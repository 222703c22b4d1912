import KeyedModel.Grammar.Generics
import KeyedModel.Grammar.Pattern

/-!
# Expressions

An expression is an operand and what follows it, down to a precedence. An operand is an atom with
prefix operators in front of it and calls, members and indices behind it. Where a path in braces
would be mistaken for the body of a condition, `braces` is off. Where a statement may end after a
block, an expression that begins with a block goes on only behind a dot or a question mark.
-/

namespace KeyedModel.Grammar

open Token (Tree Place)

/-- Whether the phrase is a range expression. -/
def Shape.isRange : Shape → Bool
  | range | openRange _ => true
  | _ => false

/-- The binary operators, in the order in which they are tried. -/
def binaryOperators : List (String × Precedence) :=
  [("+=", .assign), ("-=", .assign), ("*=", .assign), ("/=", .assign), ("%=", .assign),
    ("^=", .assign), ("&=", .assign), ("|=", .assign), ("<<=", .assign), (">>=", .assign),
    ("&&", .and), ("||", .or), ("<<", .shift), (">>", .shift), ("==", .compare), ("<=", .compare),
    ("!=", .compare), (">=", .compare), ("+", .sum), ("-", .sum), ("*", .product), ("/", .product),
    ("%", .product), ("^", .bitXor), ("&", .bitAnd), ("|", .bitOr), ("<", .compare),
    (">", .compare)]

namespace Rule

/-! ### Binary operators -/

/-- The first of some operators that comes next. -/
def nextOf : List (String × Precedence) → Rule (Option (String × Precedence))
  | [] => return none
  | entry :: rest => do
    if ← next (.op entry.1) then return some entry
    nextOf rest

/-- The binary operator that comes next. -/
def nextBinary : Rule (Option (String × Precedence)) := nextOf binaryOperators

/-- The precedence of what comes next; the loosest if it is no operator. -/
def nextPrecedence : Rule Precedence := do
  match ← nextBinary with
  | some (_, precedence) => return precedence
  | none =>
    if ← nextBut (.op "=") (.op "=>") then return .assign
    if ← next (.op "..") then return .range
    if ← next (.word "as") then return .cast
    return .jump

/-- Whether a range that excludes its end has none. -/
def rangeStops (braces : Bool) : Rule Bool := do
  if ← nextAny [.nothing, .op ",", .op ";", .op "?", .op "=>", .op "=", .op "+", .op "/", .op "%",
      .op "^", .op ">", .op "<=", .op "!=", .op "-=", .op "*=", .op "&=", .op "|=", .op "<<=",
      .word "as"] then return true
  if ← nextBut (.op ".") (.op "..") then return true
  if braces then return false else next .brace

/-- The end of a range, if there is one. -/
def rangeEnd (closed braces : Bool) : Rule Unit := do
  if closed || !(← rangeStops braces) then phrase_ (.rightOperand .range braces)

/-- Refuses what would apply to a cast without parentheses around it. -/
def castEnd : Rule Unit := do
  if ← nextBut (.op ".") (.op "..") then
    if ← second (.word "await") then .fail (.castTail .await)
    if (← second .name) && ((← third .paren) || (← third (.op "::"))) then
      .fail (.castTail .methodCall)
    .fail (.castTail .fieldAccess)
  if ← next (.op "?") then .fail (.castTail .questionMark)
  if ← next .bracket then .fail (.castTail .index)
  if ← next .paren then .fail (.castTail .call)

/-- What follows a left operand, as far as it binds at least as tightly as `base`. -/
def exprFrom (left : Shape) (base : Precedence) (braces : Bool) : Rule Shape :=
  iterate (fun left : Shape => do
    if left.isRange then return .inr left
    if let some (text, precedence) ← nextBinary then
      if precedence.rank < base.rank then return .inr left
      if precedence == .compare && left == .comparison then .fail .chainedComparison
      op text
      phrase_ (.rightOperand precedence braces)
      return .inl (if precedence == .compare then .comparison else .plain)
    if base.rank ≤ Precedence.assign.rank && (← nextBut (.op "=") (.op "=>")) then
      op "="
      phrase_ (.rightOperand .assign braces)
      return .inl .plain
    if base.rank ≤ Precedence.range.rank && (← next (.op "..")) then
      rangeEnd (← rangeLimits) braces
      return .inl .range
    if ← acceptWord "as" then
      phrase_ (.type false)
      castEnd
      return .inl .plain
    return .inr left) left

/-- The right operand of an operator: an operand and everything that binds more tightly. -/
def rightOperand (precedence : Precedence) (braces : Bool) : Rule Shape := do
  iterate (fun shape : Shape => do
    let following ← nextPrecedence
    if precedence.rank < following.rank || (following == precedence && precedence == .assign) then
      let before ← .remaining .done
      let shape ← phrase (.exprFrom shape following braces)
      let after ← .remaining .done
      return if after == before then .inr shape else .inl shape
    return .inr shape) (← phrase (.operand braces))

/-! ### What follows an atom directly -/

/-- Arguments of a call. -/
def callArguments : Rule Unit := within .paren (commaList (phrase_ (.expr true)))

/-- The pieces of a text between dots. -/
def splitDots (piece : List Char) : List Char → List (List Char)
  | [] => [piece.reverse]
  | '.' :: rest => piece.reverse :: splitDots [] rest
  | c :: rest => splitDots (c :: piece) rest

/-- The positions that a number with a decimal point stands for after a dot, with the dots between
them, and whether a dot remains at its end. -/
def dottedPositions (spot : Place) : List (List Char) → Except Cause (List Tree × Bool)
  | [] => .ok ([], false)
  | [[]] => .ok ([], true)
  | [piece] =>
    match Token.tupleIndex piece with
    | .ok n => .ok ([.literal (toString n) spot], false)
    | .error fault => .error (.index fault)
  | piece :: rest =>
    match Token.tupleIndex piece with
    | .ok n => (dottedPositions spot rest).map fun r =>
        (.literal (toString n) spot :: .punct '.' .alone spot :: r.1, r.2)
    | .error fault => .error (.index fault)

/-- The positions that a number stands for after a dot; one behind a sign stands for none. -/
def positions : List Tree → Except Cause (List Tree × Bool)
  | [.literal text spot] => dottedPositions spot (splitDots [] text.toList)
  | _ => .error .negativeIndex

/-- A member behind a dot, with the call of a method. -/
def memberAccess : Rule Unit := do
  if ← next (.terminal .floatLiteral) then
    let (_, trees) ← held (token .floatLiteral)
    match positions trees with
    | .error cause => .failAt (extent trees) cause
    | .ok (printed, dangling) =>
      emit printed
      if !dangling then return
  if ← acceptWord "await" then return
  let named ← member
  if named then
    if ← next (.op "::") then
      phrase_ .genericArguments
      callArguments
    else if ← next .paren then callArguments

/-- Calls, members, indices and question marks. -/
def trailers (atom : Shape) : Rule Shape :=
  iterate (fun shape : Shape => do
    if ← next .paren then
      callArguments
      return .inl .plain
    if !shape.isRange && (← nextBut (.op ".") (.op "..")) then
      op "."
      memberAccess
      return .inl .plain
    if ← next .bracket then
      within .bracket (phrase_ (.expr true))
      return .inl .plain
    if !shape.isRange && (← next (.op "?")) then
      op "?"
      return .inl .plain
    return .inr shape) atom

/-! ### Atoms -/

/-- Whether an expression may begin here. -/
def beginsExpr : Rule Bool := do
  if ← nextBut .anyWord (.word "as") then return true
  if ← nextAny [.paren, .bracket, .brace, .literal, .op "..", .op "::", .lifetime, .op "#"] then
    return true
  if ← nextBut (.op "!") (.op "!=") then return true
  if (← next (.op "-")) && !(← nextAny [.op "-=", .op "->"]) then return true
  if ← nextBut (.op "*") (.op "*=") then return true
  if ← nextBut (.op "|") (.op "|=") then return true
  if ← nextBut (.op "&") (.op "&=") then return true
  return (← next (.op "<")) && !(← nextAny [.op "<=", .op "<<="])

/-- The fields of a struct expression. -/
def fieldValues : Rule Unit :=
  repeatWhile do
    if ← next .nothing then return false
    if ← acceptOp ".." then
      if !(← next .nothing) then phrase_ (.expr true)
      return false
    attributes
    let named ← member
    if !named || (← next (.op ":")) then
      op ":"
      phrase_ (.expr true)
    if ← next .nothing then return false
    op ","
    return true

/-- A path, a macro call or a struct expression. -/
def pathExpr (braces : Bool) : Rule Shape := do
  let form ← valuePath
  if !form.qualified && form.bare && (← callsMacro) then
    return .macroCall ((← macroArguments) == .brace)
  if braces && (← next .brace) then within .brace fieldValues
  return .plain

/-- Whether bound lifetimes of a closure come behind `for`. -/
def bindsClosure : Rule Bool := do
  return (← next (.word "for")) && (← opensGenerics 1)

/-- Whether a closure comes. -/
def startsClosure : Rule Bool := do
  if ← nextAny [.op "|", .word "move", .word "static"] then return true
  if ← bindsClosure then return true
  if (← next (.word "const")) && !(← second .brace) then return true
  return (← next (.word "async")) && ((← second (.op "|")) || (← second (.word "move")))

/-- A parameter of a closure. Attributes of a pattern that is kept as it was written are dropped,
unless a type follows. -/
def closureParameter : Rule Unit := do
  let (_, attributes) ← held attributes
  let (shape, trees) ← held (phrase .pattern)
  let typed ← next (.op ":")
  if typed || shape != .asWritten then emit attributes
  emit trees
  if typed then
    op ":"
    phrase_ (.type true)

/-- The parameters of a closure. -/
def closureParameters : Rule Unit :=
  repeatWhile do
    if ← next (.op "|") then return false
    closureParameter
    if ← next (.op "|") then return false
    op ","
    return true

/-- A closure. -/
def closure (braces : Bool) : Rule Unit := do
  let _ ← acceptBinder
  let _ ← acceptWord "const"
  let _ ← acceptWord "static"
  let _ ← acceptWord "async"
  let _ ← acceptWord "move"
  op "|"
  closureParameters
  op "|"
  if ← acceptOp "->" then
    phrase_ (.type true)
    block
  else phrase_ (.expr braces)

/-- An expression in parentheses or a tuple. -/
def parenExpr : Rule Unit := within .paren (commaList (phrase_ (.expr true)))

/-- The elements of an array, or one element and how often it is repeated. -/
def arrayExpr : Rule Unit :=
  within .bracket do
    if ← next .nothing then return
    phrase_ (.expr true)
    if ← acceptOp ";" then phrase_ (.expr true)
    else if ← next .nothing then return
    else if ← acceptOp "," then commaList (phrase_ (.expr true))
    else .fail (.expected [.token ",", .token ";"])

/-- The arm of a match. It ends with a comma unless it is a block or the last one. -/
def arm : Rule Unit := do
  attributes
  phrase_ .patterns
  if ← acceptWord "if" then phrase_ (.expr true)
  op "=>"
  let shape ← phrase .statementExpr
  if shape == .blockLike || (← next .nothing) then let _ ← acceptOp ","
  else op ","

/-- A match behind its word. -/
def matchBody : Rule Unit := do
  phrase_ (.expr false)
  within .brace do
    innerAttributes
    repeatWhile do
      if ← next .nothing then return false
      arm
      return true

/-- Conditions with their blocks, and perhaps a last block. -/
def conditional : Rule Unit :=
  repeatWhile do
    word "if"
    phrase_ (.expr false)
    block
    if ← acceptWord "else" then
      if ← next (.word "if") then return true
      if ← next .brace then
        block
        return false
      expecting [.word "if", .brace]
    return false

/-- A loop or a block, which may follow a label. -/
def acceptLoop : Rule Bool := do
  if ← acceptWord "while" then
    phrase_ (.expr false)
    attributedBlock
    return true
  if ← acceptWord "for" then
    phrase_ .patterns
    word "in"
    phrase_ (.expr false)
    attributedBlock
    return true
  if ← acceptWord "loop" then
    attributedBlock
    return true
  if ← next .brace then
    attributedBlock
    return true
  return false

/-- A loop or a block behind a label. -/
def labeled : Rule Unit := do
  lifetime
  op ":"
  if !(← acceptLoop) then expectingPhrase "loop or block expression"

/-- An expression that consists of blocks, without which it cannot go on. -/
def acceptBlockLike : Rule Bool := do
  if ← next (.word "if") then
    conditional
    return true
  if ← acceptWord "match" then
    matchBody
    return true
  if ← acceptWord "unsafe" then
    attributedBlock
    return true
  if (← next (.word "const")) && (← second .brace) then
    word "const"
    attributedBlock
    return true
  if (← next (.word "try")) && (← second .brace) then
    word "try"
    block
    return true
  if ← next .lifetime then
    labeled
    return true
  if ← bindsClosure then return false
  acceptLoop

/-- An exit from a loop. A labeled loop as its value must stand in parentheses. -/
def breakExpr (braces : Bool) : Rule Unit := do
  word "break"
  if ← next .lifetime then
    if ← second (.op ":") then
      let start ← here
      let (_, trees) ← held (written (phrase_ (.expr true)))
      .failAt (Token.Place.to start (trees.getLast?.bind (·.place))) .labeledBreakValue
    lifetime
  if (← beginsExpr) && (braces || !(← next .brace)) then phrase_ (.expr braces)

/-- An expression that is kept as it was written. -/
def acceptWritten : Rule Bool := do
  if (← next (.word "builtin")) && (← second (.op "#")) then
    written do
      word "builtin"
      op "#"
      name
      within .paren everything
    return true
  if ← next (.word "become") then
    written do
      word "become"
      phrase_ (.expr true)
    return true
  return false

/-- Whether a block comes that is run later. -/
def startsAsync : Rule Bool := do
  if !(← next (.word "async")) then return false
  if ← second .brace then return true
  return (← second (.word "move")) && (← third .brace)

/-- Whether a path comes in an expression. -/
def startsPath : Rule Bool := do
  if ← nextAny (.name :: .op "::" :: .op "<" :: pathWords) then return true
  return (← next (.word "try")) && ((← second (.op "!")) || (← second (.op "::")))

/-- An expression without operators. -/
def atom (braces : Bool) : Rule Shape := do
  if ← next .literal then
    literal
    return .literal
  if ← startsAsync then
    word "async"
    let _ ← acceptWord "move"
    block
    return .plain
  if ← startsClosure then
    closure braces
    return .plain
  if ← acceptWritten then return .asWritten
  if ← startsPath then return ← pathExpr braces
  if ← next .paren then
    parenExpr
    return .plain
  if ← next (.word "break") then
    breakExpr braces
    return .plain
  if ← acceptWord "continue" then
    let _ ← accept .lifetime
    return .plain
  if ← acceptWord "return" then
    if ← beginsExpr then phrase_ (.expr braces)
    return .plain
  if ← next .bracket then
    arrayExpr
    return .plain
  if ← acceptWord "let" then
    phrase_ .patterns
    op "="
    phrase_ (.exprFrom (← phrase (.operand braces)) .compare braces)
    return .plain
  if ← acceptWord "yield" then
    if ← beginsExpr then phrase_ (.expr true)
    return .plain
  if ← acceptBlockLike then return .blockLike
  if ← next (.op "..") then
    let (closed, dots) ← held rangeLimits
    emit dots
    rangeEnd closed braces
    return .openRange (extent dots)
  if ← acceptWord "_" then return .plain
  expectingPhrase "an expression"

/-- An operand: an atom with what follows it directly, behind attributes and prefix operators. -/
def operand (braces : Bool) : Rule Shape :=
  writtenIf (· == .asWritten) do
    let attributed ← next (.op "#")
    attributes
    if ← acceptOp "&" then
      if (← next (.word "raw")) && ((← second (.word "mut")) || (← second (.word "const"))) then
        word "raw"
        anyWord
      else let _ ← acceptWord "mut"
      phrase_ (.operand braces)
      return .plain
    if ← acceptAny ["*", "!", "-"] then
      phrase_ (.operand braces)
      return .plain
    let shape ← trailers (← atom braces)
    match shape with
    | .openRange dots =>
      if attributed then .failAt dots .attributeOnRange
      return shape
    | _ => return shape

/-- An expression. -/
def expr (braces : Bool) : Rule Shape := do
  phrase (.exprFrom (← phrase (.operand braces)) .jump braces)

/-- An expression behind attributes, where a statement may end after a block. Attributes of an
operand that is kept as it was written are dropped. -/
def boundaryExpr (attributes : List Tree) : Rule Shape := do
  let (shape, trees) ← held do
    if ← acceptBlockLike then return Shape.blockLike
    phrase (.operand true)
  if shape != .asWritten then emit attributes
  emit trees
  if shape != .blockLike then return ← phrase (.exprFrom shape .jump true)
  if (← nextBut (.op ".") (.op "..")) || (← next (.op "?")) then
    return ← phrase (.exprFrom (← trailers shape) .jump true)
  return .blockLike

/-- An expression where a statement may end after a block. -/
def statementExpr : Rule Shape := do
  let (_, attributes) ← held attributes
  boundaryExpr attributes

end Rule

end KeyedModel.Grammar
