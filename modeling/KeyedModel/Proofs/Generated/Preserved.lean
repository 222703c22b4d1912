import KeyedModel.Proofs.Attribute.Names
import KeyedModel.Proofs.Grammar.Structs

/-!
# What generated code keeps of a struct

The struct that a model becomes is printed from the parts of the struct that was read: the same
opening, the fields written by hand behind the new ones, and the generic parameters once more in the
heads of both implementations.
-/

namespace KeyedModel

open Token (Tree sign word group literal unplacedAll)
open Grammar (StructItem StructBody OwnField GenericParam Angled trailings)
open Generated (separated documentation quoted identityType textType allowing interface)

namespace Grammar.StructItem

/-- Everything in front of the fields. -/
def opening (s : StructItem) : List Tree := s.header ++ s.whereClause

/-- The fields written by hand, as they print. -/
def ownTrees (s : StructItem) : List (List Tree) := s.ownFields.map OwnField.trees

/-- The struct with the given fields in its braces. -/
def braced (s : StructItem) (members : List (List Tree)) : List Tree :=
  s.opening ++ [group .brace (separated members)]

/-- The trees are what the struct prints by itself: its fields between braces, with a comma perhaps
behind the last, or no fields and a semicolon. Only in front of the fields do places count. -/
inductive Original (s : StructItem) (printed : List Tree) : Prop where
  | braced {inner trailing : List Tree} (hprinted : printed = s.opening ++ [group .brace inner])
    (htrailing : trailing ∈ trailings)
    (hinner : unplacedAll inner = unplacedAll (separated s.ownTrees ++ trailing))
  | unit (hprinted : printed = s.opening ++ [sign ';']) (hown : s.ownTrees = [])

/-- A struct that was read and can become a model prints its opening and its own fields. -/
theorem original {s : StructItem} (h : s.WasRead) (htarget : (Item.struct s).target = .model) :
    s.Original s.trees := by
  cases hbody : s.body with
  | named own =>
    obtain ⟨trailing, htrailing, hinner⟩ := (h.fields hbody).exists_trailing OwnField.trees
    have hown : s.ownTrees = own.map (·.element.trees) := by
      simp [ownTrees, ownFields, hbody]
    have hprinted : s.trees =
        s.opening ++ [group .brace (Grammar.listed OwnField.trees own)] := by
      simp only [trees, hbody, opening, listed]
    rw [← hown] at hinner
    exact .braced hprinted htrailing hinner
  | tuple fields => simp [Item.target, hbody] at htarget
  | unit =>
    refine .unit ?_ ?_
    · simp only [trees, hbody, opening]
    · simp [ownTrees, ownFields, hbody]

end Grammar.StructItem

/-- The new fields, as they print behind their documentation: the identity, and a string for each
declaration. -/
def addedTrees (s : StructItem) (fields : List Field) : List (List Tree) :=
  (documentation (literal "r\" Identity of this model, `None` until assigned.\"") ++
    s.visibility ++ word identityName :: sign ':' :: identityType) ::
  fields.map fun f =>
    documentation (quoted ("Backing key: `" ++ f.key ++ "`.")) ++ s.visibility ++
      word f.ident :: sign ':' :: textType

/-- The generated code keeps the struct. -/
structure Generated.Keeps (g : Generated) (s : StructItem) (fields : List Field)
    (printed : List Tree) : Prop where
  original : s.Original printed
  /-- The new struct has the same opening, and the fields written by hand are its last ones. -/
  struct : g.structTrees = s.braced (addedTrees s fields ++ s.ownTrees)
  /-- Without the new fields it is the struct that was read. -/
  deleted : (addedTrees s fields ++ s.ownTrees).drop (fields.length + 1) = s.ownTrees
  opening : s.opening = s.attributes ++ s.visibility ++ word "struct" :: word s.name ::
    (s.generics.declared ++ s.whereClause)
  /-- The heads of the implementations. -/
  inherent : ∃ body, g.inherentTrees = allowing "new_without_default" ++
    word "impl" :: s.generics.withoutDefaults ++
    word s.name :: s.generics.asArguments ++ s.whereClause ++ [group .brace body]
  interface : ∃ body, g.interfaceTrees =
    word "impl" :: s.generics.withoutDefaults ++ interface "Model" ++ word "for" ::
    word s.name :: s.generics.asArguments ++ s.whereClause ++ [group .brace body]
  /-- In all three places the parameters have one order, in which each of them stands once. -/
  ordered : s.generics.ordered.Perm (s.generics.map (·.element))
  params : ∀ p ∈ s.generics.ordered, p.Declared
  declared : Angled (s.generics.ordered.map fun p => p.declaration ++ p.default)
    s.generics.declared
  withoutDefaults : Angled (s.generics.ordered.map (·.declaration)) s.generics.withoutDefaults
  arguments : Angled (s.generics.ordered.map (·.name)) s.generics.asArguments

namespace Generated

variable {s : StructItem} {fields : List Field} {name : String}

/-- The members of the new struct, as they print. -/
theorem map_member_membersOf :
    (membersOf fields s).map (member s.visibility) = addedTrees s fields ++ s.ownTrees := by
  simp [membersOf, addedTrees, StructItem.ownTrees, member, Function.comp_def]

/-- Whatever fields a struct that was read is expanded to, the generated code keeps the struct. -/
theorem of?_keeps {g : Generated} {tokens printed : List Tree}
    (hread : Grammar.readItem tokens = .ok (.struct s, printed))
    (htarget : (Grammar.Item.struct s).target = .model)
    (hg : of? s (.ofFields name fields) = .ok g) : g.Keeps s fields printed := by
  obtain ⟨hwas, rfl⟩ := Grammar.struct_of_readItem hread
  obtain ⟨-, rfl⟩ := of?_eq_ok.mp hg
  have hseparated := hwas.generics.separated
  exact {
    original := StructItem.original hwas htarget
    struct := by
      rw [structTrees, members_of, ← map_member_membersOf]
      rfl
    deleted := List.drop_left' (by simp [addedTrees])
    opening := by simp [StructItem.opening, StructItem.header]
    inherent := ⟨_, by simp [inherentTrees, implementation]; rfl⟩
    interface := ⟨_, by simp [interfaceTrees, implementation]; rfl⟩
    ordered := Grammar.GenericParams.ordered_perm _
    params := fun p hp => by
      obtain ⟨l, hl, rfl⟩ := List.mem_map.mp ((Grammar.GenericParams.ordered_perm _).mem_iff.mp hp)
      exact hwas.generics.declared l hl
    declared := Grammar.angled_printWith hseparated _
    withoutDefaults := Grammar.angled_printWith hseparated _
    arguments := Grammar.angled_printWith hseparated _ }

/-- A struct with a default, a lifetime behind a type, a where clause and a comma behind its last
field is kept. -/
theorem keeps_generic_struct :
    ∃ item s printed, ∃ g : Generated,
      Token.lex "item" "pub struct A<T = u8, 'a> where T: X \x7b pub b: T, \x7d" = some item ∧
        Grammar.readItem item = .ok (.struct s, printed) ∧
        g.Keeps s [⟨"title", "label"⟩] printed := by
  have hread : (Token.lex "item" "pub struct A<T = u8, 'a> where T: X \x7b pub b: T, \x7d").bind
      readStruct = some (["b"], .model) := by decide +kernel
  obtain ⟨item, hlex, hread⟩ := Option.bind_eq_some_iff.mp hread
  obtain ⟨s, printed, hitem, -, htarget⟩ := readStruct_eq_some hread
  have hdeclarable : ∀ f ∈ [Field.mk "title" "label"], Text.isDeclarable f.ident = true := by
    decide
  have hmade := of?_eq_ok.mpr
    ⟨by simpa using hdeclarable, (rfl : of s (.ofFields s.name [⟨"title", "label"⟩]) = _)⟩
  exact ⟨item, s, printed, _, hlex, hitem, of?_keeps hitem htarget hmade⟩

end Generated

end KeyedModel
