import KeyedModel.Argument
import KeyedModel.Field
import KeyedModel.Token.Lexer

/-!
# From arguments to fields

Every argument is judged in order. It must describe a field by itself; the field must not have the
name of the identity, of a field written by hand or of an earlier field, nor the key of an earlier
field. The first rule that fails rejects the argument, and all rejections are reported together.
-/

namespace KeyedModel

open Text (isKeyword unraw)
open Token (Place)

/-- Why an argument is rejected. -/
inductive FieldFault where
  /-- The key of a label is empty. -/
  | emptyKey (label : String)
  /-- The string is no identifier. -/
  | notIdentifier (value : String)
  /-- The name is that of the identity. -/
  | reserved
  /-- The name is that of a field written by hand. -/
  | declared (name : String)
  /-- The name is that of an earlier field. -/
  | repeatedName (name : String)
  /-- The key is that of an earlier field. -/
  | repeatedKey (key : String)
  deriving DecidableEq, Repr

/-- The fault in words. -/
def FieldFault.message : FieldFault → String
  | emptyKey label => "backing key for `" ++ label ++ "` must not be empty"
  | notIdentifier value =>
    "`" ++ value ++ "` is not a valid field identifier; use `name = \"" ++ value ++ "\"`"
  | reserved => "`" ++ identityName ++ "` is reserved for the identity field"
  | declared name => "field `" ++ name ++ "` is already declared on the struct"
  | repeatedName name => "Duplicate field `" ++ name ++ "`"
  | repeatedKey key => "backing key `" ++ key ++ "` is used by more than one field"

/-- A rejected argument, and where its literal is. -/
structure FieldError where
  fault : FieldFault
  place : Place
  deriving DecidableEq, Repr

/-- The identifier that a text consists of, apart from blanks and comments; no keyword is one. -/
def identifier? (text : String) : Option String :=
  match Token.lex "" text with
  | some [.ident name _] => if isKeyword name then none else some name
  | _ => none

/-- The field that an argument describes by itself. -/
def Field.ofArgument : Argument → Except FieldFault Field
  | .labeled label literal =>
    if literal.value.isEmpty then .error (.emptyKey label) else .ok ⟨label, literal.value⟩
  | .positional literal =>
    match identifier? literal.value with
    | some ident => .ok (.verbatim ident)
    | none => .error (.notIdentifier literal.value)

/-- The names and keys of earlier fields. A name counts as soon as it is free itself, a key only if
the name was free as well. -/
structure Taken where
  names : List String
  keys : List String
  deriving DecidableEq, Repr

namespace Taken

/-- Nothing is taken yet. -/
def none : Taken := ⟨[], []⟩

/-- What is taken after a field that reached the rule for names. -/
def add (taken : Taken) (field : Field) : Taken :=
  if taken.names.contains field.name then taken
  else ⟨field.name :: taken.names, field.key :: taken.keys⟩

end Taken

/-- Why a field with the given names in use is rejected, if it is. -/
def Field.fault? (own : List String) (taken : Taken) (field : Field) : Option FieldFault :=
  if field.name == identityName then some .reserved
  else if own.contains field.name then some (.declared field.name)
  else if taken.names.contains field.name then some (.repeatedName field.name)
  else if taken.keys.contains field.key then some (.repeatedKey field.key)
  else none

/-- The verdict on every argument. `own` holds the names of the fields written by hand, without raw
marks. -/
def judge (own : List String) (taken : Taken) : List Argument → List (Except FieldError Field)
  | [] => []
  | argument :: rest =>
    let place := argument.literal.place
    match Field.ofArgument argument with
    | .error fault => .error ⟨fault, place⟩ :: judge own taken rest
    | .ok field =>
      match field.fault? own taken with
      | none => .ok field :: judge own (taken.add field) rest
      | some (.repeatedKey key) =>
        .error ⟨.repeatedKey key, place⟩ :: judge own (taken.add field) rest
      | some fault => .error ⟨fault, place⟩ :: judge own taken rest

/-- The fields that some arguments describe, for a struct with the given fields of its own. -/
def Field.ofArguments (own : List String) (arguments : List Argument) :
    Except (List FieldError) (List Field) :=
  gather (judge (own.map unraw) .none arguments)

end KeyedModel
