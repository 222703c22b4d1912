import KeyedModel.Grammar.Type

/-!
# Patterns

Patterns without alternatives are chosen by their first tokens. The obsolete spelling of a range
that includes its end is read, and printed in the current one.
-/

namespace KeyedModel.Grammar

open Token (Tree Place)

namespace Rule

/-- The decimal spelling of a number that is a position; one behind a sign is none. -/
def position : List Tree → Except Cause (List Tree)
  | [.literal text spot] =>
    match Token.tupleIndex text.toList with
    | .ok n => .ok [.literal (toString n) spot]
    | .error fault => .error (.index fault)
  | [_, .literal text _] =>
    match Token.tupleIndex text.toList with
    | .error .suffixed => .error (.index .suffixed)
    | _ => .error .negativeIndex
  | _ => .error .negativeIndex

/-- A name or a position after a dot or in front of a colon; positions print as decimal numbers.
Says whether it is a name. -/
def member : Rule Bool := do
  if ← next .name then
    name
    return true
  if ← next (.terminal .intLiteral) then
    let (_, trees) ← held (token .intLiteral)
    match position trees with
    | .ok decimal => emit decimal
    | .error cause => .failAt (extent trees) cause
    return false
  .fail (.expected [.phrase "identifier or integer"])

/-! ### Ranges -/

/-- The dots of a range. Says whether the end is included. -/
def rangeLimits : Rule Bool := do
  if ← acceptOp "..=" then return true
  if ← nextBut (.op "..") (.op "...") then
    op ".."
    return false
  expecting [.op "..="]

/-- The dots of a range between patterns; three dots are printed as those that include the end. -/
def patternLimits : Rule Bool := do
  if ← next (.op "..=") then rangeLimits
  else if ← next (.op "...") then
    let (_, trees) ← held (op "...")
    emit (closedDots trees)
    return true
  else rangeLimits
where
  /-- The dots with an equality sign in place of the last one. -/
  closedDots : List Tree → List Tree
    | [first, second, .punct _ spacing spot] => [first, second, .punct '=' spacing spot]
    | trees => trees

/-- What may begin the end of a range pattern. -/
def boundHeads : List Sight :=
  [.literal, .name, .op "::", .op "<", .word "self", .word "Self", .word "super", .word "crate",
    .word "const"]

/-- The end of a range pattern, or a pattern that may begin a range. -/
def rangeBound : Rule Unit := do
  if ← next .literal then literal
  else if ← next (.word "const") then
    word "const"
    attributedBlock
  else if ← nextAny boundHeads then let _ ← valuePath
  else expecting boundHeads

/-- The end of a range pattern, if there is one. -/
def acceptRangeBound : Rule Bool := do
  if ← nextAny [.nothing, .op "|", .op "=", .op ",", .op ";", .word "if"] then return false
  if ← nextBut (.op ":") (.op "::") then return false
  rangeBound
  return true

/-- The rest of a range pattern behind its start. -/
def rangeTail : Rule Shape := do
  let (closed, trees) ← held patternLimits
  emit trees
  if ← acceptRangeBound then return .plain
  if closed then expectingPhrase "range upper bound"
  return .openRange (extent trees)

/-- A range pattern without a start, or the pattern for the rest of a sequence. -/
def openRange : Rule Shape := do
  let (closed, trees) ← held rangeLimits
  emit trees
  if ← acceptRangeBound then return .openRange (extent trees)
  if closed then expectingPhrase "range upper bound"
  return .plain

/-! ### Structs, tuples and slices -/

/-- A pattern for one field of a struct. -/
def fieldPattern : Rule Unit := do
  let modified ← nextAny [.word "box", .word "ref", .word "mut"]
  if modified then
    let _ ← acceptWord "box"
    let _ ← acceptWord "ref"
    let _ ← acceptWord "mut"
    name
  else
    let named ← member
    if !named || (← next (.op ":")) then
      op ":"
      phrase_ .patterns

/-- The fields of a struct pattern. -/
def fieldPatterns : Rule Unit :=
  repeatWhile do
    if ← next .nothing then return false
    attributes
    if ← acceptOp ".." then return false
    fieldPattern
    if ← next .nothing then return false
    op ","
    return true

/-- A pattern that begins with a path. -/
def pathPattern : Rule Shape := do
  let form ← valuePath
  if !form.qualified && form.bare && (← callsMacro) then
    let _ ← macroArguments
    return .plain
  if ← next .brace then
    within .brace fieldPatterns
    return .plain
  if ← next .paren then
    within .paren (commaList (phrase_ .patterns))
    return .plain
  if ← next (.op "..") then rangeTail
  else return .plain

/-- The element of a slice pattern. -/
def sliceElement : Rule Unit := do
  match ← phrase .patterns with
  | .openRange dots => .failAt dots .openRangeInSlice
  | _ => pure ()

/-- A name, perhaps with a pattern for the same value. -/
def bindingPattern : Rule Unit := do
  let _ ← acceptWord "ref"
  let _ ← acceptWord "mut"
  if ← next (.word "self") then anyWord else name
  if ← acceptOp "@" then phrase_ .pattern

/-- Whether a name comes that begins a path rather than being bound. -/
def startsPathPattern : Rule Bool := do
  if ← next .name then
    if (← second (.op "::")) || (← second (.op "!")) || (← second .brace) || (← second .paren) ||
        (← second (.op "..")) then return true
  if (← next (.word "self")) && (← second (.op "::")) then return true
  nextAny [.op "::", .op "<", .word "Self", .word "super", .word "crate"]

/-- What a pattern may begin with. -/
def patternHeads : List Sight :=
  [.name, .op "::", .op "<", .word "_", .literal, .word "const", .word "ref", .word "mut", .op "&",
    .paren, .bracket, .op ".."]

/-- A pattern without alternatives. -/
def pattern : Rule Shape := do
  if ← startsPathPattern then pathPattern
  else if ← acceptWord "_" then return .plain
  else if ← next (.word "box") then
    written do
      word "box"
      phrase_ .pattern
    return .asWritten
  else if ← nextAny [.op "-", .literal, .word "const"] then
    rangeBound
    if ← next (.op "..") then rangeTail else return .plain
  else if ← nextAny [.word "ref", .word "mut", .word "self", .name] then
    bindingPattern
    return .plain
  else if ← acceptOp "&" then
    let _ ← acceptWord "mut"
    phrase_ .pattern
    return .plain
  else if ← next .paren then
    within .paren (commaList (phrase_ .patterns))
    return .plain
  else if ← next .bracket then
    within .bracket (commaList sliceElement)
    return .plain
  else if ← nextBut (.op "..") (.op "...") then openRange
  else expecting patternHeads

/-- Whether a further alternative comes. -/
def alternativeFollows : Rule Bool := do
  return (← next (.op "|")) && !(← next (.op "||")) && !(← next (.op "|="))

/-- A pattern with alternatives, a mark in front of the first one included. -/
def patterns : Rule Shape := do
  let marked ← acceptOp "|"
  let shape ← phrase .pattern
  if marked || (← alternativeFollows) then
    repeatWhile do
      if ← alternativeFollows then
        op "|"
        phrase_ .pattern
        return true
      else return false
    return .plain
  return shape

end Rule

end KeyedModel.Grammar
