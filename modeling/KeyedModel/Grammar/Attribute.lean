import KeyedModel.Grammar.Rule

/-!
# Attributes, macro calls and blocks

An attribute is a path in brackets, alone, with a group behind it or with a value. A path without
arguments also begins a macro call. Blocks may open with attributes of their own.
-/

namespace KeyedModel.Grammar

open Token (Tree Place Delimiter)

namespace Rule

/-- The words besides names that may stand in a path. -/
def pathWords : List Sight := [.word "super", .word "self", .word "Self", .word "crate"]

/-- A path without arguments. -/
def plainPath : Rule Unit := do
  let _ ← acceptOp "::"
  if ← nextAny (.name :: pathWords) then
    repeatWhile do
      if ← nextAny (.name :: pathWords) then
        anyWord
        acceptOp "::"
      else expectingPhrase "path segment after `::`"
  else name

/-- The value of an attribute: a literal that ends it, otherwise any expression that is no attribute
itself. -/
def attributeValue : Rule Shape := do
  let alone ← Rule.foresee (do literal; next .nothing) .done
  if alone == some true then
    literal
    return .literal
  else if (← next (.op "#")) && (← second .bracket) then .fail .nestedAttribute
  else phrase (.expr true)

/-- What stands between the brackets of an attribute. -/
def attributeBody : Rule Unit := do
  if !(← acceptWord "unsafe") then plainPath
  if ← nextAny [.paren, .bracket, .brace] then let _ ← anyGroup
  else if ← acceptOp "=" then let _ ← attributeValue

/-- The attributes in front of something. -/
def attributes : Rule Unit :=
  repeatWhile do
    if ← acceptOp "#" then
      within .bracket attributeBody
      return true
    else return false

/-- The attributes at the beginning of a block. -/
def innerAttributes : Rule Unit :=
  repeatWhile do
    if (← next (.op "#")) && (← second (.op "!")) then
      op "#"
      op "!"
      within .bracket attributeBody
      return true
    else return false

/-- Statements in braces. -/
def block : Rule Unit := within .brace (phrase_ .statements)

/-- Statements in braces, with attributes in front of them. -/
def attributedBlock : Rule Unit :=
  within .brace do
    innerAttributes
    phrase_ .statements

/-- Whether the mark of a macro call comes next. -/
def callsMacro : Rule Bool := nextBut (.op "!") (.op "!=")

/-- The mark of a macro call and its arguments, which may be anything. -/
def macroArguments : Rule Delimiter := do
  op "!"
  anyGroup

end Rule

end KeyedModel.Grammar
