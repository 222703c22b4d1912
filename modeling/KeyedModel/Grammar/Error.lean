import KeyedModel.Token.Basic
import KeyedModel.Token.Literal

/-!
# Syntax errors

An error has a place, a cause, and a mark that tells whether the text had ended there. The cause is
a value; its wording is given once, by `Cause.message`.
-/

namespace KeyedModel.Grammar

open Token

/-- Something that could have stood at the place of an error. -/
inductive Expected where
  /-- A token, shown between backquotes. -/
  | token (text : String)
  /-- A phrase of the grammar, shown as it is. -/
  | phrase (text : String)
  deriving DecidableEq, Repr

/-- The name of what could have stood there. -/
def Expected.text : Expected → String
  | token t => "`" ++ t ++ "`"
  | phrase t => t

/-- What may not follow a cast without parentheses around it. -/
inductive CastTail where
  | await
  | methodCall
  | fieldAccess
  | questionMark
  | index
  | call
  deriving DecidableEq, Repr

/-- The name of what follows the cast. -/
def CastTail.text : CastTail → String
  | await => "`.await`"
  | methodCall => "a method call"
  | fieldAccess => "a field access"
  | questionMark => "`?`"
  | index => "indexing"
  | call => "a function call"

/-- Why a text does not follow the grammar. -/
inductive Cause where
  /-- One of these had to come. -/
  | expected (choices : List Expected)
  /-- A keyword stands where a name had to come. -/
  | keyword (word : String)
  /-- The text or the group ended too early. -/
  | textEnded
  /-- Tokens are left over, at the end of the text or of a group. -/
  | leftover (group : Option Delimiter)
  /-- A statement is neither ended nor the last one. -/
  | missingSemicolon
  /-- A comparison is compared once more. -/
  | chainedComparison
  /-- A cast is followed by something that would apply to it. -/
  | castTail (tail : CastTail)
  /-- A function has two receivers. -/
  | secondReceiver
  /-- A receiver comes after other parameters. -/
  | lateReceiver
  /-- The value of an attribute begins with an attribute. -/
  | nestedAttribute
  /-- An attribute stands before a range without a start. -/
  | attributeOnRange
  /-- The value of a `break` is a labeled loop without parentheses. -/
  | labeledBreakValue
  /-- A range pattern that includes its end has none. -/
  | rangeEnd
  /-- A half-open range stands unparenthesized in a slice pattern. -/
  | openRangeInSlice
  /-- A number after a dot is no position in a tuple. -/
  | index (fault : IndexFault)
  /-- A negative number stands after a dot. -/
  | negativeIndex
  /-- A trait object names no trait. -/
  | objectWithoutTrait
  /-- A type known only by its traits names none. -/
  | implWithoutTrait
  /-- Captured parameters are listed where they may not be. -/
  | captureNotAllowed
  /-- A constant bound stands where it may not; `conditional` if it is in brackets. -/
  | constNotAllowed (conditional : Bool)
  /-- Lifetimes are bound before a relaxed bound. -/
  | binderOnRelaxed
  /-- Parameters are bound by a `where` clause. -/
  | whereParameters
  /-- The rules called each other too often for the length of the text. -/
  | exhausted
  deriving DecidableEq, Repr

/-- The cause in words. -/
def Cause.message : Cause → String
  | expected [a] => "expected " ++ a.text
  | expected [a, b] => "expected " ++ a.text ++ " or " ++ b.text
  | expected choices => "expected one of: " ++ ", ".intercalate (choices.map Expected.text)
  | keyword word => "expected identifier, found keyword `" ++ word ++ "`"
  | textEnded => "unexpected end of input"
  | leftover none => "unexpected token"
  | leftover (some .paren) => "unexpected token, expected `)`"
  | leftover (some .bracket) => "unexpected token, expected `]`"
  | leftover (some .brace) => "unexpected token, expected `\x7d`"
  | missingSemicolon => "unexpected token, expected `;`"
  | chainedComparison => "comparison operators cannot be chained"
  | castTail tail => "casts cannot be followed by " ++ tail.text
  | secondReceiver => "unexpected second method receiver"
  | lateReceiver => "unexpected method receiver"
  | nestedAttribute => "unexpected attribute inside of attribute"
  | attributeOnRange => "attributes are not allowed on range expressions starting with `..`"
  | labeledBreakValue => "parentheses required"
  | rangeEnd => "expected range upper bound"
  | openRangeInSlice => "range pattern is not allowed unparenthesized inside slice pattern"
  | index .notWhole => "expected integer literal"
  | index .suffixed => "expected unsuffixed integer"
  | index .tooLarge => "number too large to fit in target type"
  | negativeIndex => "invalid digit found in string"
  | objectWithoutTrait => "at least one trait is required for an object type"
  | implWithoutTrait => "at least one trait must be specified"
  | captureNotAllowed => "`use<...>` precise capturing syntax is not allowed here"
  | constNotAllowed true => "`[const]` is not allowed here"
  | constNotAllowed false => "`const` is not allowed here"
  | binderOnRelaxed => "`for<...>` binder not allowed with `?` trait polarity modifier"
  | whereParameters => "generic parameters on `where` clauses are reserved for future use"
  | exhausted => "recursion limit reached"

/-- A failure to follow the grammar. -/
structure SyntaxError where
  place : Place
  ended : Bool
  cause : Cause
  deriving DecidableEq, Repr

/-- The failure in words. -/
def SyntaxError.message (e : SyntaxError) : String :=
  if e.ended then "unexpected end of input, " ++ e.cause.message else e.cause.message

end KeyedModel.Grammar
