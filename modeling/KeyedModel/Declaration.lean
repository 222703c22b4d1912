import KeyedModel.Field
import KeyedModel.Text.Quoted

/-!
# Declarations of a model

What a model adds to a struct, as values and as text: the schema constant, the identity, one
declaration for each generated field and two constructors. A constructor stores its parameters
only; its body assigns each parameter to the member of the same name.
-/

namespace KeyedModel

/-- A parameter of a constructor. -/
inductive Param where
  | identity
  | field (field : Field)
  deriving DecidableEq, Repr

namespace Param

/-- The name of the parameter, which is also the name of the member it is assigned to. -/
def name : Param → String
  | identity => identityName
  | field f => f.ident

/-- The parameter with its type. -/
def text : Param → String
  | identity => identityName ++ ": Option<Uuid>"
  | field f => f.ident ++ ": String"

end Param

/-- An assignment in the body of a constructor. -/
structure Assignment where
  target : String
  source : String
  deriving DecidableEq, Repr

/-- Which of the two constructors is meant. -/
inductive ConstructorKind where
  | empty
  | full
  deriving DecidableEq, Repr

/-- A constructor, determined by its kind and its parameters. -/
structure Constructor where
  kind : ConstructorKind
  params : List Param
  deriving DecidableEq, Repr

namespace Constructor

/-- The constructor without parameters. -/
def empty : Constructor := ⟨.empty, []⟩

/-- The constructor that takes the identity and then every field in order. -/
def full (fields : List Field) : Constructor := ⟨.full, .identity :: fields.map .field⟩

/-- The name of the function. -/
def name (c : Constructor) : String :=
  match c.kind with
  | .empty => "new"
  | .full => "with_fields"

/-- The body: every parameter goes to the member of its name. -/
def assignments (c : Constructor) : List Assignment :=
  c.params.map fun p => ⟨p.name, p.name⟩

/-- The members that the body assigns. -/
def assigned (c : Constructor) : List String := c.params.map Param.name

/-- Header and body in one line. -/
def text (c : Constructor) : String :=
  "pub fn " ++ c.name ++ "(" ++ ", ".intercalate (c.params.map Param.text) ++ ") -> Self \x7b" ++
    String.join (c.assignments.map fun a => " self." ++ a.target ++ " = " ++ a.source ++ ";") ++
    " \x7d"

end Constructor

/-- A declaration that the model adds to the struct. -/
inductive Declaration where
  | schema (value : String)
  | identity
  | field (field : Field)
  | constructor (constructor : Constructor)
  deriving DecidableEq, Repr

namespace Declaration

/-- The declaration in one line. -/
def text : Declaration → String
  | schema value => "pub const SCHEMA: &'static str = " ++ Text.quoteDisplay value ++ ";"
  | identity => "pub " ++ identityName ++ ": Option<Uuid>"
  | field f => "#[key = " ++ Text.quoteDisplay f.key ++ "] pub " ++ f.ident ++ ": String"
  | constructor c => c.text

/-- The generated field, if the declaration is one. -/
def field? : Declaration → Option Field
  | field f => some f
  | _ => none

/-- The constructor, if the declaration is one. -/
def constructor? : Declaration → Option Constructor
  | constructor c => some c
  | _ => none

/-- The value of the schema constant, if the declaration is it. -/
def schema? : Declaration → Option String
  | schema value => some value
  | _ => none

end Declaration

end KeyedModel
