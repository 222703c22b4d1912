import KeyedModel.Grammar.Language
import KeyedModel.Proofs.Grammar.Running

/-!
# Reading a text to its end

A whole text is read when the rule succeeds and neither the text nor a group has tokens left over.
-/

namespace KeyedModel.Grammar

open Token (Tree)

variable {α : Type}

/-- A text is read completely if its rule stops at the end and left nothing over in any group. -/
theorem readAll_eq_ok {rule : Rule α} {trees printed : List Tree} {value : α} :
    readAll rule trees = .ok (value, printed) ↔
      rule.run (meaningFor trees) none trees = .ok ⟨value, printed, [], none⟩ := by
  rcases hrun : rule.run (meaningFor trees) none trees with e | reply
  · simp [readAll, hrun, bind, Except.bind]
  · obtain ⟨v, p, rest, stray⟩ := reply
    cases stray with
    | some e => simp [readAll, hrun, bind, Except.bind]
    | none =>
      cases rest with
      | nil => simp [readAll, hrun, bind, Except.bind, leftover]
      | cons t rest => simp [readAll, hrun, bind, Except.bind, leftover]

/-- The phrases of a text leave tails of their tokens. -/
theorem meaningFor_goesForward (trees : List Tree) : (meaningFor trees).GoesForward :=
  meaningOf_goesForward rules (depthFor trees)

end KeyedModel.Grammar
