import KeyedModel.Grammar.Declaring

/-!
# Statements

A block holds items, bindings, macro calls and expressions. An expression that is no block must be
followed by a semicolon unless it is the last one.
-/

namespace KeyedModel.Grammar

open Token (Tree)

/-- How a statement ended. -/
inductive StatementEnd where
  /-- It is complete. -/
  | closed
  /-- It may only be the last one. -/
  | open
  /-- It is an item that is kept as it was written. -/
  | asWritten
  deriving DecidableEq

namespace Rule

/-- What a plain path with the mark of a macro call begins. -/
inductive CallSort where
  /-- An item, since a name follows. -/
  | item
  /-- A statement of its own, since braces follow and the expression does not go on behind them. -/
  | statement
  deriving DecidableEq

/-- Whether a macro call comes that is no expression. -/
def callFollows : Rule (Option CallSort) := do
  let found ← .foresee (do
    plainPath
    if !(← next (.op "!")) then return none
    if (← second .name) || (← second (.word "try")) then return some CallSort.item
    if !(← second .brace) || (← third (.op "?")) then return none
    if (← third (.op ".")) && !(← third (.op "..")) then return none
    return some .statement) .done
  return found.join

/-- Whether the word for shared constants begins an item. -/
def startsStatic : Rule Bool := do
  if !(← next (.word "static")) then return false
  if ← second (.word "mut") then return true
  second .name

/-- Whether the word for constant evaluation begins an item. -/
def startsConst : Rule Bool := do
  if !(← next (.word "const")) then return false
  if (← second .brace) || (← second (.word "static")) || (← second (.word "move")) ||
      (← second (.op "|")) then return false
  if ← second (.word "async") then
    return (← third (.word "unsafe")) || (← third (.word "extern")) || (← third (.word "fn"))
  return true

/-- Whether the word for deferred blocks begins an item. -/
def startsAsyncItem : Rule Bool := do
  if !(← next (.word "async")) then return false
  return (← second (.word "unsafe")) || (← second (.word "extern")) || (← second (.word "fn"))

/-- The words that begin an item wherever they stand. -/
def itemWords : List Sight :=
  ["pub", "extern", "use", "fn", "mod", "type", "struct", "enum", "trait", "impl", "macro"].map
    .word

/-- Whether an item comes that is no macro call. -/
def startsItem : Rule Bool := do
  if ← nextAny itemWords then return true
  if (← next (.word "crate")) && !(← second (.op "::")) then return true
  if (← next (.word "unsafe")) && !(← second .brace) then return true
  if (← next (.word "union")) && (← second .name) then return true
  if (← next (.word "auto")) && (← second (.word "trait")) then return true
  if (← next (.word "default")) && ((← second (.word "unsafe")) || (← second (.word "impl"))) then
    return true
  if (← startsStatic) || (← startsConst) then return true
  startsAsyncItem

/-- A binding. What is done if the pattern does not match may not stand behind braces. -/
def binding : Rule Unit := do
  word "let"
  phrase_ .pattern
  if ← acceptOp ":" then phrase_ (.type true)
  if ← acceptOp "=" then
    let (_, trees) ← held (phrase_ (.expr true))
    emit trees
    if !endsWithBraces trees then
      if ← acceptWord "else" then block
  op ";"
where
  /-- Whether the last tree is a group in braces. -/
  endsWithBraces (trees : List Tree) : Bool :=
    match trees.getLast? with
    | some (.group .brace _ _ _) => true
    | _ => false

/-- A statement. -/
def statement : Rule StatementEnd :=
  writtenIf (· == .asWritten) do
    let (_, attributes) ← held attributes
    let call? ← callFollows
    if call? == some .statement then
      emit attributes
      plainPath
      let _ ← macroArguments
      let _ ← acceptOp ";"
      return .closed
    if ← next (.word "let") then
      emit attributes
      binding
      return .closed
    if call? == some .item || (← startsItem) then
      return if (← itemBehind attributes).isAsWritten then .asWritten else .closed
    let shape ← boundaryExpr attributes
    if ← acceptOp ";" then return .closed
    return if shape == .blockLike || shape == .macroCall true then .closed else .open

/-- The statements of a block, with semicolons anywhere between them. -/
def statements : Rule Shape := do
  repeatWhile do
    repeatWhile (acceptOp ";")
    if ← next .nothing then return false
    let ending ← statement
    if ← next .nothing then return false
    if ending == .open then .fail .missingSemicolon
    return true
  return .plain

end Rule

end KeyedModel.Grammar
