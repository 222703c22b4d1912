import KeyedModel.Diagnostic
import KeyedModel.Token.Printer

/-!
# Expressions with their source

An expression is paired with the text of its tokens.
-/

namespace KeyedModel

open Token (Tree sign)

/-- The pair of an expression and its text. -/
def sourced (expr : List Tree) : List Tree :=
  [Token.group .paren
    (expr ++ [sign ',', Token.literal (Text.quoteLiteral (Token.text expr))])]

/-- The output for some tokens that should be exactly one expression: the pair, or a diagnostic. -/
def sourceExpr (input : List Tree) : List Tree :=
  if input.isEmpty then
    Diagnostic.trees ⟨"stringify_expr! expects an expression", none⟩
  else
    match Grammar.readExpr input with
    | .error e => (Diagnostic.ofSyntax e).trees
    | .ok expr => sourced expr

end KeyedModel
