import KeyedModel.Argument
import KeyedModel.Expansion
import KeyedModel.Field.Rules

/-!
# Diagnostics

What a user is told, and where. In the output a diagnostic is a call of the compiler's own macro for
errors; diagnostics stand in front of everything else, so they can be read off again.
-/

namespace KeyedModel

open Token (Tree Place operator sign word)

/-- A message and the place it is about. -/
structure Diagnostic where
  message : String
  place : Place
  deriving DecidableEq, Repr

/-- The path of the macro that reports an error. -/
def reportingPath : List String := ["core", "compile_error"]

namespace Diagnostic

/-- The diagnostic of a syntax error. -/
def ofSyntax (e : Grammar.SyntaxError) : Diagnostic := ⟨e.message, e.place⟩

/-- The diagnostic of an argument that describes no field. -/
def ofArgument (e : ArgumentError) : Diagnostic := ⟨e.fault.message, e.place⟩

/-- The diagnostics of a refused argument list. -/
def ofArgumentList : ArgumentListError → List Diagnostic
  | .grammar e => [ofSyntax e]
  | .arguments errors => errors.map ofArgument

/-- The diagnostic of a rejected argument. -/
def ofField (e : FieldError) : Diagnostic := ⟨e.fault.message, e.place⟩

/-- The diagnostic of a refused target. -/
def ofTarget (e : InvalidTarget) : Diagnostic := ⟨e.message, none⟩

/-- A token with a place of its own. -/
def located (place : Place) : Tree → Tree
  | .ident name _ => .ident name place
  | .punct c spacing _ => .punct c spacing place
  | .literal text _ => .literal text place
  | .group d _ inner _ => .group d place inner place

/-- The call that reports the diagnostic. -/
def trees (d : Diagnostic) : List Tree :=
  (reportingPath.flatMap (fun w => operator [':', ':'] ++ [word w]) ++
    [sign '!', Token.group .brace [Token.literal (Text.quoteLiteral d.message)]]).map
      (located d.place)

/-- Reads the call that reports a diagnostic: the diagnostic and what follows. -/
def read? : List Tree → Option (Diagnostic × List Tree)
  | .punct ':' _ first :: .punct ':' _ _ :: .ident "core" _ :: .punct ':' _ _ :: .punct ':' _ _ ::
      .ident "compile_error" _ :: .punct '!' _ _ ::
      .group .brace opening [.literal text _] closing :: rest =>
    (Token.textValue? text).map fun message =>
      (⟨message, Place.to first (Place.to opening closing)⟩, rest)
  | _ => none

/-- What was written as a call is read as a diagnostic, up to what its literal denotes. -/
theorem read?_trees (d : Diagnostic) (rest : List Tree) :
    read? (d.trees ++ rest) =
      (Token.textValue? (Text.quoteLiteral d.message)).map fun message =>
        (⟨message, Place.to d.place (Place.to d.place d.place)⟩, rest) := rfl

/-- Reads the diagnostics in front of some trees, at most `limit` of them. -/
def leadingUpTo : Nat → List Tree → List Diagnostic × List Tree
  | 0, trees => ([], trees)
  | limit + 1, trees =>
    match read? trees with
    | none => ([], trees)
    | some (d, rest) =>
      let more := leadingUpTo limit rest
      (d :: more.1, more.2)

/-- Reads the diagnostics in front of some trees, and gives what follows them. -/
def leading (trees : List Tree) : List Diagnostic × List Tree := leadingUpTo trees.length trees

end Diagnostic

end KeyedModel
