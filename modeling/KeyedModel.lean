import KeyedModel.Attribute
import KeyedModel.Catalogue
import KeyedModel.Proofs.Argument.Segments
import KeyedModel.Proofs.Argument.Written
import KeyedModel.Proofs.Attribute.Descriptors
import KeyedModel.Proofs.Attribute.Kept
import KeyedModel.Proofs.Attribute.Keywords
import KeyedModel.Proofs.Attribute.Names
import KeyedModel.Proofs.Attribute.Reapplied
import KeyedModel.Proofs.Attribute.Reports
import KeyedModel.Proofs.Attribute.ShapeErrors
import KeyedModel.Proofs.Attribute.Sorting
import KeyedModel.Proofs.Attribute.Texts
import KeyedModel.Proofs.Descriptor
import KeyedModel.Proofs.Expansion.Determined
import KeyedModel.Proofs.Field.Rules
import KeyedModel.Proofs.Field.Spelled
import KeyedModel.Proofs.Field.Verdicts
import KeyedModel.Proofs.Generated.Assembled
import KeyedModel.Proofs.Generated.Configured
import KeyedModel.Proofs.Generated.Initialized
import KeyedModel.Proofs.Generated.Lines
import KeyedModel.Proofs.Generated.Outline
import KeyedModel.Proofs.Generated.Preserved
import KeyedModel.Proofs.Generated.Renderings
import KeyedModel.Proofs.Generated.Visibility
import KeyedModel.Proofs.Grammar.Flush
import KeyedModel.Proofs.Grammar.FlushExpressions
import KeyedModel.Proofs.Grammar.FlushTypes
import KeyedModel.Proofs.Grammar.Literals
import KeyedModel.Proofs.Grammar.Tidy
import KeyedModel.Proofs.Grammar.TidyExpressions
import KeyedModel.Proofs.Grammar.TidyItems
import KeyedModel.Proofs.Grammar.TidyTypes
import KeyedModel.Proofs.Grammar.Values
import KeyedModel.Proofs.Instance.Holding
import KeyedModel.Proofs.Instance.Reference
import KeyedModel.Proofs.SourcedExpr
import KeyedModel.Proofs.Token.Lexed
import KeyedModel.Proofs.Token.LostMarks
import KeyedModel.Proofs.Token.Numbers
import KeyedModel.Proofs.Token.Phrases
import KeyedModel.Proofs.Token.Places
import KeyedModel.Proofs.Token.Quotation
import KeyedModel.Proofs.Token.Relexing
import KeyedModel.Proofs.Token.Standing
import KeyedModel.Proofs.Token.TextLiterals
import KeyedModel.Proofs.Token.Writable
import KeyedModel.SourcedExpr
import KeyedModel.Proofs.Argument.SpelledOut
import KeyedModel.Proofs.Attribute.SpelledOut
