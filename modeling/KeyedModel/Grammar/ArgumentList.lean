import KeyedModel.Grammar.Language

/-!
# Argument lists

The arguments of an attribute are separated by commas. The grammar tells four shapes apart; what
they mean is not its concern.
-/

namespace KeyedModel.Grammar

open Token (Tree)

/-- The shapes of arguments. -/
inductive ArgumentShape where
  | literal (trees : List Tree)
  | path (words : List Tree)
  | list (words group : List Tree)
  /-- A value behind a path; `isLiteral` if it is a literal. -/
  | assigned (words : List Tree) (isLiteral : Bool) (value : List Tree)
  deriving Repr

namespace Rule

/-- A path of any words; it does not begin with a separator. -/
def argumentPath : Rule Unit :=
  repeatWhile do
    if ← next .anyWord then
      anyWord
      acceptOp "::"
    else expectingPhrase "path segment after `::`"

/-- Whether a literal comes. A truth value in front of an equality sign is a label. -/
def literalFollows : Rule Bool := do
  if ← nextAny [.word "true", .word "false"] then return !(← second (.op "="))
  next .literal

/-- An argument. -/
def argument : Rule ArgumentShape := do
  if ← literalFollows then
    let (_, trees) ← held literal
    return .literal trees
  if ← next .anyWord then
    let (_, words) ← held argumentPath
    if ← nextAny [.paren, .bracket, .brace] then
      let (_, group) ← held anyGroup
      return .list words group
    if ← acceptOp "=" then
      let (shape, value) ← held attributeValue
      return .assigned words (shape == .literal) value
    return .path words
  expectingPhrase "identifier or literal"

/-- All arguments. -/
def arguments : Rule (List ArgumentShape) := do
  let found ← listUntil .nothing argument
  return found.map (·.element)

end Rule

/-- Reads exactly one argument list. -/
def readArguments (trees : List Tree) : Except SyntaxError (List ArgumentShape) :=
  (readAll Rule.arguments trees).map (·.1)

end KeyedModel.Grammar
