import KeyedModel.Grammar.ArgumentList

/-!
# Arguments of the attribute

The argument list is read in two steps. Its grammar separates the arguments by commas and tells
their shapes apart; a text that does not follow it is one error. Then every argument either has one
of the two shapes that describe a field or is an error of its own.
-/

namespace KeyedModel

open Token (Tree Place LiteralKind)
open Grammar (SyntaxError ArgumentShape)
open Grammar.Rule (extent)

/-- A string literal: what it denotes and where it stands. -/
structure TextLiteral where
  value : String
  place : Place
  deriving DecidableEq, Repr

/-- An argument that describes a field. -/
inductive Argument where
  /-- A string that names the field. -/
  | positional (literal : TextLiteral)
  /-- A label that names the field, with its key. -/
  | labeled (label : String) (literal : TextLiteral)
  deriving DecidableEq, Repr

/-- The string literal of an argument. -/
def Argument.literal : Argument → TextLiteral
  | positional l => l
  | labeled _ l => l

/-- Why an argument describes no field. -/
inductive ArgumentFault where
  /-- A literal that is no string. -/
  | wrongLiteral (kind : LiteralKind)
  /-- A label of several words. -/
  | compoundLabel
  /-- A value that is no literal. -/
  | wrongValue (label : String)
  /-- A label alone. -/
  | missingValue
  /-- A list behind a label. -/
  | list
  deriving DecidableEq, Repr

/-- The name of a kind of literals. -/
def literalName : LiteralKind → String
  | .text => "string"
  | .byteText => "byte string"
  | .terminatedText => "unknown"
  | .byte => "byte"
  | .char => "char"
  | .int => "int"
  | .float => "float"
  | .bool => "bool"
  | .mark => "verbatim"

/-- The fault in words. -/
def ArgumentFault.message : ArgumentFault → String
  | wrongLiteral kind => "Unexpected type `" ++ literalName kind ++ "`"
  | compoundLabel => "field label must be a single identifier"
  | wrongValue label => "expected a string literal for `" ++ label ++ "`"
  | missingValue => "expected `name = \"key\"` or a string literal"
  | list => "Unexpected meta-item format `list`"

/-- An argument that describes no field, and where. -/
structure ArgumentError where
  fault : ArgumentFault
  place : Place
  deriving DecidableEq, Repr

/-- The kind of a literal. -/
def kindOf : List Tree → LiteralKind
  | [.literal text _] => Token.literalKind text
  | [.punct _ _ _, .literal text _] => Token.literalKind text
  | _ => .bool

/-- A literal as a string. -/
def TextLiteral.ofTrees (trees : List Tree) : Except ArgumentError TextLiteral :=
  match trees, kindOf trees with
  | [.literal text place], .text => .ok ⟨(Token.textValue? text).getD "", place⟩
  | _, kind => .error ⟨.wrongLiteral kind, extent trees⟩

/-- The argument of a shape. -/
def Argument.ofShape : ArgumentShape → Except ArgumentError Argument
  | .literal trees => (TextLiteral.ofTrees trees).map .positional
  | .path words => .error ⟨.missingValue, extent words⟩
  | .list words group => .error ⟨.list, extent (words ++ group)⟩
  | .assigned [.ident label _] true value => (TextLiteral.ofTrees value).map (.labeled label)
  | .assigned [.ident label _] false value => .error ⟨.wrongValue label, extent value⟩
  | .assigned words _ _ => .error ⟨.compoundLabel, extent words⟩

/-- Separates errors from results: all errors, if there are any. -/
def gather {ε α : Type} (verdicts : List (Except ε α)) : Except (List ε) (List α) :=
  let errors := verdicts.filterMap fun
    | .error e => some e
    | .ok _ => none
  if errors.isEmpty then .ok (verdicts.filterMap Except.toOption) else .error errors

/-- Why an argument list is refused. -/
inductive ArgumentListError where
  /-- It does not follow its grammar. -/
  | grammar (error : SyntaxError)
  /-- Some arguments describe no field. -/
  | arguments (errors : List ArgumentError)
  deriving Repr

/-- The arguments of a list. -/
def Argument.ofTrees (trees : List Tree) : Except ArgumentListError (List Argument) :=
  match Grammar.readArguments trees with
  | .error e => .error (.grammar e)
  | .ok shapes =>
    match gather (shapes.map ofShape) with
    | .error errors => .error (.arguments errors)
    | .ok arguments => .ok arguments

end KeyedModel
