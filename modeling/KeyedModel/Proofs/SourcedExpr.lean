import KeyedModel.Proofs.Grammar.TidyItems
import KeyedModel.Proofs.Token.LostMarks
import KeyedModel.Proofs.Token.Quotation
import KeyedModel.SourcedExpr

/-!
# The source of an expression is read again

The literal behind an expression denotes the text of its tokens, and this text can be read again: it
has the tokens that were put out, except that a joint mark in front of what is no punctuation stands
alone. An attribute that is dropped in print leaves such a mark behind, and then the source of the
source is another text.
-/

namespace KeyedModel

open Token (Tree lex unplacedAll settle lostJoints)
open Grammar (readExpr)

variable {source text : String} {input expr : List Tree}

namespace Grammar

end Grammar

end KeyedModel
