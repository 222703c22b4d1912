import KeyedModel.Diagnostic
import KeyedModel.Generated.Tokens

/-!
# Applying the attribute

The item is read first. One that cannot become a model is refused without a look at the arguments.
Otherwise the arguments are read, then judged, and if nothing is wrong with them the struct is
expanded. A refusal leaves the item as it is, behind the diagnostics.
-/

namespace KeyedModel

open Token (Tree)
open Grammar (Item StructItem StructBody ItemKind SyntaxError)

/-- Whether an item can become a model. -/
def Grammar.Item.target : Item → Target
  | .struct s =>
    match s.body with
    | .tuple _ => .other "tuple struct"
    | _ => .model
  | .other kind _ => .other kind.found

/-- The names of the fields written by hand, for a struct that can become a model. -/
def Grammar.Item.ownIdents : Item → List String
  | .struct s => s.ownFields.map (·.ident)
  | .other _ _ => []

/-- Why an attribute cannot be applied. -/
inductive Refusal where
  | arguments (error : ArgumentListError)
  | fields (errors : List FieldError)
  | target (error : InvalidTarget)
  deriving Repr

/-- What the user is told. -/
def Refusal.diagnostics : Refusal → List Diagnostic
  | arguments e => Diagnostic.ofArgumentList e
  | fields errors => errors.map Diagnostic.ofField
  | target e => [Diagnostic.ofTarget e]

/-- The fields that an argument list describes, for a struct with the given fields of its own. -/
def Field.ofList (own : List String) (arguments : List Tree) : Except Refusal (List Field) :=
  match Argument.ofTrees arguments with
  | .error e => .error (.arguments e)
  | .ok arguments =>
    match Field.ofArguments own arguments with
    | .error errors => .error (.fields errors)
    | .ok fields => .ok fields

/-- What is asked for by an attribute with the given arguments on an item. Only the arguments on a
target that can become a model are read. -/
def Request.of (arguments : List Tree) (item : Item) : Except Refusal Request :=
  match item.target with
  | .model => (Field.ofList item.ownIdents arguments).map fun fields => ⟨.model, item.name, fields⟩
  | .other found => .ok ⟨.other found, item.name, []⟩

/-- The expansion of an attribute on an item. -/
def Expansion.of (arguments : List Tree) (item : Item) : Except Refusal Expansion :=
  match Request.of arguments item with
  | .error refusal => .error refusal
  | .ok request =>
    match request.expand with
    | .error e => .error (.target e)
    | .ok expansion => .ok expansion

/-- The output of a refusal: the diagnostics and the item. -/
def refused (diagnostics : List Diagnostic) (item : List Tree) : List Tree :=
  diagnostics.flatMap Diagnostic.trees ++ item

/-- The output of an attribute on an item that was read; `tokens` are the tokens of the item. -/
def Grammar.Item.apply (item : Item) (tokens arguments : List Tree) :
    Except UnusableIdent (List Tree) :=
  match Expansion.of arguments item, item with
  | .error refusal, _ => .ok (refused refusal.diagnostics tokens)
  | .ok expansion, .struct s => (Generated.of? s expansion).map Generated.trees
  | .ok _, .other _ _ => .ok tokens

/-- The output of the attribute with some arguments on some tokens. -/
def applyAttribute (arguments item : List Tree) : Except UnusableIdent (List Tree) :=
  match Grammar.readItem item with
  | .error e => .ok (refused [.ofSyntax e] [])
  | .ok (item, tokens) => item.apply tokens arguments

end KeyedModel
