import KeyedModel.Grammar.Statement

/-!
# Reading a whole text

The table of all rules, and what it means to read a sequence of trees completely: the rule succeeds,
no group has tokens left over, and neither has the text.
-/

namespace KeyedModel.Grammar

open Token (Tree)

/-- The rule of each nonterminal. -/
def rules : Nonterminal → Rule Shape
  | .type plus => .type plus
  | .genericArguments => do
    Rule.genericArguments
    return .plain
  | .pattern => .pattern
  | .patterns => .patterns
  | .expr braces => .expr braces
  | .operand braces => .operand braces
  | .exprFrom left base braces => .exprFrom left base braces
  | .rightOperand precedence braces => .rightOperand precedence braces
  | .statementExpr => .statementExpr
  | .statements => .statements
  | .item => do
    let _ ← Rule.item
    return .plain
  | .fields => .fields
  | .useTree roots => .useTree roots

/-- How deeply calls of rules may be nested for some trees: a rule calls only few others before one
of them takes a token. -/
def depthFor (trees : List Tree) : Nat := 16 * (Token.Tree.sizeList trees + 2)

/-- The meaning of the nonterminals for trees of a given depth. -/
def meaningFor (trees : List Tree) : Meaning := meaningOf rules (depthFor trees)

/-- Reads some trees completely: the value of the rule and what it prints. -/
def readAll {α : Type} (rule : Rule α) (trees : List Tree) :
    Except SyntaxError (α × List Tree) := do
  let reply ← rule.run (meaningFor trees) none trees
  match reply.stray.or (leftover none reply.rest) with
  | some e => .error e
  | none => .ok (reply.value, reply.printed)

/-- Reads exactly one item: the item and its tokens. -/
def readItem (trees : List Tree) : Except SyntaxError (Item × List Tree) :=
  readAll Rule.item trees

/-- Reads exactly one expression: its tokens. -/
def readExpr (trees : List Tree) : Except SyntaxError (List Tree) :=
  (readAll (Rule.phrase_ (.expr true)) trees).map (·.2)

end KeyedModel.Grammar
