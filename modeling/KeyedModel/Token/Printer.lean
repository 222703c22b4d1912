import KeyedModel.Token.Basic

/-!
# Printed tokens

Neighbouring tokens are separated by one space, except after a joint punctuation character.
Parentheses and brackets enclose their tokens tightly; braces keep one space on each side, and one
space in all when nothing is between them.
-/

namespace KeyedModel.Token

mutual

/-- The text of one tree. -/
def Tree.print : Tree → List Char
  | .ident name _ => name.toList
  | .punct c _ _ => [c]
  | .literal text _ => text.toList
  | .group .brace _ [] _ => ['{', ' ', '}']
  | .group .brace _ inner _ => '{' :: ' ' :: (printAll inner ++ [' ', '}'])
  | .group delimiter _ inner _ => delimiter.opening :: (printAll inner ++ [delimiter.closing])

/-- The text of a sequence of trees. -/
def printAll : List Tree → List Char
  | [] => []
  | [t] => t.print
  | .punct c .joint _ :: rest => c :: printAll rest
  | t :: rest => t.print ++ ' ' :: printAll rest

end

/-- The text of a sequence of trees. -/
def text (trees : List Tree) : String := String.ofList (printAll trees)

end KeyedModel.Token
