import KeyedModel.Proofs.Attribute.Names
import KeyedModel.Proofs.Attribute.Outcome
import KeyedModel.Proofs.Grammar.TidyItems
import KeyedModel.Proofs.Token.LostMarks

/-!
# A refused item is read again

What is put out behind the diagnostics does not depend on the arguments, and its text can be read
again: it has the tokens that were put out, except that a joint mark in front of what is no
punctuation stands alone. Such a mark is left where something behind it is dropped in print. Then
the text is another one when it is printed again.
-/

namespace KeyedModel

open Token (Tree lex unplacedAll settle lostJoints)
open Grammar (Item SyntaxError readItem)

variable {source text : String} {arguments item tokens : List Tree} {diagnostics : List Diagnostic}

/-- Refusing an item puts out the same tokens for all arguments. -/
theorem Refuses.tokens_eq {other : List Tree} {others : List Diagnostic} {out : List Tree}
    (h : Refuses arguments item diagnostics tokens) (hother : Refuses other item others out) :
    out = tokens := by
  cases h with
  | unread hread =>
    cases hother with
    | unread => rfl
    | unexpanded hother => cases hread.symm.trans hother
  | unexpanded hread =>
    cases hother with
    | unread hother => cases hread.symm.trans hother
    | unexpanded hother => cases hread.symm.trans hother; rfl

/-- What is put out for a refused item can be written down. -/
theorem Refuses.writable (hlex : lex source text = some item)
    (h : Refuses arguments item diagnostics tokens) : Token.Writable tokens := by
  cases h with
  | unread => exact .nil
  | unexpanded hread => exact Grammar.writable_of_readItem (Token.writable_of_lex hlex) hread

end KeyedModel
