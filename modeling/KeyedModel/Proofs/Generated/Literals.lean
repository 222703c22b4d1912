import KeyedModel.Proofs.Generated.Members
import KeyedModel.Proofs.Token.Quotation

/-!
# Literals of the generated code

What the string literals of the output denote, in the order in which they stand there. Everything
that is not copied from the struct is accounted for: the lines of documentation, the schema name,
the descriptors, and the keys by which the two lookups choose a field.
-/

namespace KeyedModel

open Token (Tree textValue? sign operator word group lifetime)
open Text (quoteLiteral)

namespace Token

mutual

/-- What the literals of the tree denote, in order; one that is no string denotes no text. -/
def Tree.denoted : Tree → List (Option String)
  | .literal text _ => [textValue? text]
  | .group _ _ inner _ => Tree.denotedAll inner
  | .ident _ _ => []
  | .punct _ _ _ => []

/-- What the literals of the trees denote, in order. -/
def Tree.denotedAll : List Tree → List (Option String)
  | [] => []
  | t :: rest => t.denoted ++ Tree.denotedAll rest

end

namespace Tree

@[simp] theorem denotedAll_nil : denotedAll [] = [] := rfl

@[simp] theorem denotedAll_cons (t : Tree) (rest : List Tree) :
    denotedAll (t :: rest) = t.denoted ++ denotedAll rest := rfl

@[simp] theorem denotedAll_append (a b : List Tree) :
    denotedAll (a ++ b) = denotedAll a ++ denotedAll b := by
  induction a with
  | nil => simp
  | cons t rest ih => simp [ih]

/-- The literals of several pieces are those of each piece. -/
@[simp] theorem denotedAll_flatMap {α : Type} (pieces : List α) (f : α → List Tree) :
    denotedAll (pieces.flatMap f) = pieces.flatMap fun a => denotedAll (f a) := by
  induction pieces with
  | nil => simp
  | cons a rest ih => simp [ih]

@[simp] theorem denoted_ident (name : String) (place : Place) : (ident name place).denoted = [] :=
  rfl

@[simp] theorem denoted_punct (c : Char) (spacing : Spacing) (place : Place) :
    (punct c spacing place).denoted = [] := rfl

@[simp] theorem denoted_literal (text : String) (place : Place) :
    (literal text place).denoted = [textValue? text] := rfl

@[simp] theorem denoted_group (d : Delimiter) (opening closing : Place) (inner : List Tree) :
    (group d opening inner closing).denoted = denotedAll inner := rfl

end Tree

@[simp] theorem denoted_sign (c : Char) : (sign c).denoted = [] := Tree.denoted_punct ..

@[simp] theorem denoted_word (name : String) : (word name).denoted = [] := Tree.denoted_ident ..

@[simp] theorem denoted_newGroup (d : Delimiter) (inner : List Tree) :
    (group d inner).denoted = Tree.denotedAll inner := Tree.denoted_group ..

/-- Operators hold no literal. -/
@[simp] theorem denotedAll_operator (chars : List Char) : Tree.denotedAll (operator chars) = [] := by
  fun_induction operator chars <;> simp_all [jointSign]

@[simp] theorem denotedAll_lifetime (name : String) : Tree.denotedAll (lifetime name) = [] := by
  simp [lifetime, jointSign]

end Token

open Token.Tree (denotedAll)

namespace Generated

variable {g : Generated}

/-- A text that is written as a literal is what the literal denotes. -/
@[simp] theorem denoted_quoted (text : String) : (quoted text).denoted = [some text] := by
  simp [quoted, Token.literal]

@[simp] theorem denotedAll_joined (words : List String) : denotedAll (joined words) = [] := by
  fun_induction joined words <;> simp_all

@[simp] theorem denotedAll_absolute (words : List String) : denotedAll (absolute words) = [] := by
  simp [absolute]

@[simp] theorem denotedAll_separated (pieces : List (List Tree)) :
    denotedAll (separated pieces) = pieces.flatMap denotedAll := by
  fun_induction separated pieces <;> simp_all

@[simp] theorem denotedAll_terminated (pieces : List (List Tree)) :
    denotedAll (terminated pieces) = pieces.flatMap denotedAll := by
  simp [terminated]

@[simp] theorem denotedAll_documentation (text : Tree) :
    denotedAll (documentation text) = text.denoted := by
  simp [documentation, outerAttribute]

@[simp] theorem denotedAll_identityType : denotedAll identityType = [] := by
  simp [identityType, optionOf, applied, interface]

@[simp] theorem denotedAll_textType : denotedAll textType = [] := by
  simp [textType]

@[simp] theorem denotedAll_initializer (i : Initializer) : denotedAll (initializer i) = [] := by
  unfold initializer
  split <;> simp

@[simp] theorem denotedAll_param (p : Param) : denotedAll (param p) = [] := by
  unfold param
  split <;> simp

/-- A constructor holds no literal but the line that documents it. -/
@[simp] theorem denotedAll_constructor (c : ConstructorCode) :
    denotedAll (constructor c) = [some (constructorDoc c.kind)] := by
  simp [constructor, outerAttribute, allowing, List.flatMap_map]

/-! ### Parts of the output -/

/-- The inside of the braces that end some trees. -/
def lastBlock? (trees : List Tree) : Option (List Tree) :=
  match trees.getLast? with
  | some (.group .brace _ inner _) => some inner
  | _ => none

/-- The inside of the first braces among some trees. -/
def firstBlock? : List Tree → Option (List Tree)
  | [] => none
  | .group .brace _ inner _ :: _ => some inner
  | _ :: rest => firstBlock? rest

/-- The body of the function that goes by a name. -/
def functionBody? (name : String) : List Tree → Option (List Tree)
  | .ident "fn" _ :: .ident found place :: rest =>
    if found == name then firstBlock? rest else functionBody? name (.ident found place :: rest)
  | _ :: rest => functionBody? name rest
  | [] => none

/-- Whether the tree is the punctuation character. -/
def isSign (c : Char) : Tree → Bool
  | .punct d _ _ => c == d
  | _ => false

/-- The value of the constant that goes by a name. -/
def constantValue? (name : String) : List Tree → Option (List Tree)
  | .ident "const" _ :: .ident found place :: rest =>
    if found == name then
      some (((rest.dropWhile fun t => !isSign '=' t).drop 1).takeWhile fun t => !isSign ';' t)
    else constantValue? name (.ident found place :: rest)
  | _ :: rest => constantValue? name rest
  | [] => none

/-- What documents a generated field. -/
def fieldDoc (f : Field) : String := "Backing key: `" ++ f.key ++ "`."

/-- What documents the identity. -/
def identityDoc : String := " Identity of this model, `None` until assigned."

/-- What the literals of a member denote, with the visibility of the struct in front of a generated
one. -/
def memberTexts (visibility : List Tree) : Member → List (Option String)
  | .identity => some identityDoc :: denotedAll visibility
  | .generated f => some (fieldDoc f) :: denotedAll visibility
  | .own f => denotedAll f.trees

theorem denotedAll_member (visibility : List Tree) (m : Member) :
    denotedAll (member visibility m) = memberTexts visibility m := by
  have hidentity : textValue? "r\" Identity of this model, `None` until assigned.\"" =
      some identityDoc := by decide +kernel
  cases m with
  | identity => simp [member, memberTexts, Token.literal, hidentity]
  | generated f => simp [member, memberTexts, fieldDoc]
  | own f => rfl

theorem denotedAll_descriptor (d : Descriptor) :
    denotedAll (descriptor d) = [some d.name, some d.key] := by
  simp [descriptor]

/-- The literals of a choice are the keys that it chooses by. -/
theorem denotedAll_choice {value : String → List Tree} (hvalue : ∀ ident, denotedAll (value ident) = [])
    (slots : List KeyedSlot) :
    denotedAll (choice value slots) = slots.map fun s => some s.key := by
  have harm : ∀ slot, denotedAll (choiceArm value slot) = [some slot.key] := by
    simp [choiceArm, hvalue]
  simp [choice, harm, List.map_eq_flatMap]

/-- The tokens that the head of an implementation takes over from the struct. -/
def takenOver (g : Generated) : List Tree :=
  g.item.generics.withoutDefaults ++ g.item.generics.asArguments ++ g.item.whereClause

/-- The literals of the generated code denote what they are meant to, each at its place, and there
are no others but those of the tokens that are taken over from the struct. -/
structure Spells (g : Generated) (fields : List Field) : Prop where
  /-- The body of the struct: the documentation of the identity and of the generated fields, then
  the fields written by hand. -/
  members : (lastBlock? g.structTrees).map denotedAll =
    some ((membersOf fields g.item).flatMap (memberTexts g.item.visibility))
  /-- The schema constant: the name of the struct. -/
  schema : ((lastBlock? g.inherentTrees).bind (constantValue? "SCHEMA")).map denotedAll =
    some [some g.item.name]
  /-- The descriptors: the name without its raw mark and the key of each field. -/
  descriptors : ((lastBlock? g.interfaceTrees).bind (constantValue? "FIELDS")).map denotedAll =
    some (fields.flatMap fun f => [some f.name, some f.key])
  /-- The lookup of a value: the key of each field. -/
  value : ((lastBlock? g.interfaceTrees).bind (functionBody? "value")).map denotedAll =
    some (fields.map fun f => some f.key)
  /-- The lookup for a change: the key of each field. -/
  valueMut : ((lastBlock? g.interfaceTrees).bind (functionBody? "value_mut")).map denotedAll =
    some (fields.map fun f => some f.key)
  /-- All literals in their order. -/
  all : denotedAll g.trees =
    denotedAll (g.item.header ++ g.item.whereClause) ++
      (membersOf fields g.item).flatMap (memberTexts g.item.visibility) ++
      denotedAll g.takenOver ++
      [some ("Schema name of `" ++ g.item.name ++ "`."), some g.item.name,
        some (constructorDoc .empty), some (constructorDoc .full)] ++
      denotedAll g.takenOver ++
      (fields.flatMap (fun f => [some f.name, some f.key]) ++
        fields.map (fun f => some f.key) ++ fields.map fun f => some f.key)

/-- The braces at the end of an implementation are its body. -/
theorem lastBlock?_append (front inner : List Tree) :
    lastBlock? (front ++ [group .brace inner]) = some inner := by
  simp [lastBlock?, group]

variable {s : Grammar.StructItem} {fields : List Field}

/-- The value of the schema constant. -/
theorem constantValue?_schema (g : Generated) :
    (lastBlock? g.inherentTrees).bind (constantValue? "SCHEMA") = some [quoted g.schema] := by
  rw [inherentTrees, implementation, ← List.append_assoc, lastBlock?_append, Option.bind_some]
  rfl

/-- The value of the constant of all descriptors. -/
theorem constantValue?_fields (g : Generated) :
    (lastBlock? g.interfaceTrees).bind (constantValue? "FIELDS") =
      some (borrowed [group .bracket (separated (g.descriptors.map descriptor))]) := by
  rw [interfaceTrees, implementation, lastBlock?_append, Option.bind_some]
  rfl

/-- The body of the lookup of a value. -/
theorem functionBody?_value (g : Generated) :
    (lastBlock? g.interfaceTrees).bind (functionBody? "value") =
      some (choice (fun ident => selfMember ident ++ [sign '.', word "as_str", group .paren []])
        g.slots) := by
  rw [interfaceTrees, implementation, lastBlock?_append, Option.bind_some]
  rfl

/-- The body of the lookup for a change. -/
theorem functionBody?_valueMut (g : Generated) :
    (lastBlock? g.interfaceTrees).bind (functionBody? "value_mut") =
      some (choice (fun ident => borrowedMut (selfMember ident)) g.slots) := by
  rw [interfaceTrees, implementation, lastBlock?_append, Option.bind_some]
  rfl

/-- The literals of the struct. -/
theorem denotedAll_structTrees (g : Generated) :
    denotedAll g.structTrees = denotedAll (g.item.header ++ g.item.whereClause) ++
      g.members.flatMap (memberTexts g.item.visibility) := by
  simp [structTrees, denotedAll_member, List.flatMap_map]

/-- The literals of the implementation with the schema and the constructors. -/
theorem denotedAll_inherentTrees (g : Generated) :
    denotedAll g.inherentTrees = denotedAll g.takenOver ++
      (some ("Schema name of `" ++ g.item.name ++ "`.") :: some g.schema ::
        g.constructors.map fun c => some (constructorDoc c.kind)) := by
  simp [inherentTrees, implementation, takenOver, allowing, outerAttribute, static,
    List.map_eq_flatMap]

/-- The literals of the implementation of the interface. -/
theorem denotedAll_interfaceTrees (g : Generated) :
    denotedAll g.interfaceTrees = denotedAll g.takenOver ++
      (g.descriptors.flatMap (fun d => [some d.name, some d.key]) ++
        g.slots.map (fun s => some s.key) ++ g.slots.map fun s => some s.key) := by
  simp [interfaceTrees, implementation, takenOver, interface, static, borrowed, borrowedMut, method,
    giving, selfMember, keyParam, optionOf, applied, denotedAll_choice,
    denotedAll_descriptor, List.flatMap_map]

/-- The code of a struct and some fields spells them out. -/
theorem spells_of : (of s (.ofFields s.name fields)).Spells fields where
  members := by
    rw [structTrees, lastBlock?_append]
    simp [denotedAll_member, List.flatMap_map]
    rfl
  schema := by
    rw [constantValue?_schema]
    simp
    rfl
  descriptors := by
    rw [constantValue?_fields]
    simp [borrowed, denotedAll_descriptor, List.flatMap_map]
  value := by
    rw [functionBody?_value, Option.map_some, denotedAll_choice (by simp [selfMember])]
    simp
  valueMut := by
    rw [functionBody?_valueMut, Option.map_some,
      denotedAll_choice (by simp [borrowedMut, selfMember])]
    simp
  all := by
    have hname : (of s (.ofFields s.name fields)).item.name = s.name := rfl
    rw [trees, Token.Tree.denotedAll_append, Token.Tree.denotedAll_append, denotedAll_structTrees,
      denotedAll_inherentTrees, denotedAll_interfaceTrees, members_of, constructors_of,
      descriptors_of, slots_of, schema_of, hname]
    simp [ConstructorCode.of, Constructor.empty, Constructor.full, List.flatMap_map]
    rfl

end Generated

end KeyedModel
