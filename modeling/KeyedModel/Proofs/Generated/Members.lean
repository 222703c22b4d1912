import KeyedModel.Proofs.Attribute.Outcome

/-!
# Members of a generated struct

The code for a struct and some fields, part by part: which fields the struct has, what the
constructors initialise, and which descriptors and slots there are.
-/

namespace KeyedModel

open Grammar (StructItem)

variable {fields : List Field} {own : List String} {s : StructItem} {name : String}

/-- The members of a struct with the given generated fields: the identity first, the fields written
by hand last. -/
def membersOf (fields : List Field) (s : StructItem) : List Member :=
  .identity :: fields.map .generated ++ s.ownFields.map .own

namespace Expansion

@[simp] theorem schema_ofFields : (ofFields name fields).schema = name := rfl

@[simp] theorem constructors_ofFields :
    (ofFields name fields).constructors = [.empty, .full fields] := by
  have hnone : (fields.map Declaration.field).filterMap Declaration.constructor? = [] := by
    induction fields with
    | nil => rfl
    | cons f rest ih => exact ih
  change ((fields.map Declaration.field) ++ _).filterMap Declaration.constructor? = _
  rw [List.filterMap_append, hnone]
  rfl

/-- The declarations that stand for members are those of the identity and of the fields. -/
theorem members_ofFields :
    (ofFields name fields).declarations.filterMap Declaration.member? =
      .identity :: fields.map .generated := by
  have hfields : (fields.map Declaration.field).filterMap Declaration.member? =
      fields.map .generated := by
    induction fields with
    | nil => rfl
    | cons f rest ih => exact congrArg (Member.generated f :: ·) ih
  change .identity :: ((fields.map Declaration.field) ++ _).filterMap Declaration.member? = _
  rw [List.filterMap_append, hfields]
  exact congrArg _ (List.append_nil _)

end Expansion

namespace Generated

@[simp] theorem members_of : (of s (.ofFields name fields)).members = membersOf fields s := by
  rw [of, Expansion.members_ofFields, membersOf]

@[simp] theorem constructors_of :
    (of s (.ofFields name fields)).constructors =
      [ConstructorCode.of .empty fields (s.ownFields.map (·.ident)),
        ConstructorCode.of (.full fields) fields (s.ownFields.map (·.ident))] := by
  rw [of, Expansion.constructors_ofFields, Expansion.fields_ofFields]
  rfl

@[simp] theorem descriptors_of :
    (of s (.ofFields name fields)).descriptors = fields.map fun f => ⟨f.name, f.key⟩ := by
  rw [of, Expansion.fields_ofFields]

@[simp] theorem slots_of :
    (of s (.ofFields name fields)).slots = fields.map fun f => ⟨f.key, f.ident⟩ := by
  rw [of, Expansion.fields_ofFields]

@[simp] theorem schema_of : (of s (.ofFields name fields)).schema = name := rfl

end Generated

/-- The names of the members, in order. -/
theorem idents_membersOf :
    (membersOf fields s).map Member.ident =
      identityName :: fields.map Field.ident ++ s.ownFields.map (·.ident) := by
  simp [membersOf, Member.ident, Function.comp_def]

/-- A constructor initialises the identity, the generated fields and the fields written by hand, in
this order. -/
theorem ConstructorCode.idents_of (constructor : Constructor) :
    (ConstructorCode.of constructor fields own).initializers.map (·.ident) =
      identityName :: fields.map Field.ident ++ own := by
  simp [ConstructorCode.of, Function.comp_def]

/-- The constructor without parameters starts without an identity and with empty texts. -/
theorem ConstructorCode.initializers_empty :
    (ConstructorCode.of .empty fields own).initializers =
      ⟨identityName, .noIdentity⟩ :: (fields.map fun f => ⟨f.ident, .emptyText⟩) ++
        own.map fun ident => ⟨ident, .default⟩ := rfl

/-- The constructor with parameters takes every generated field from its parameter. -/
theorem ConstructorCode.initializers_full :
    (ConstructorCode.of (.full fields) fields own).initializers =
      ⟨identityName, .parameter⟩ :: (fields.map fun f => ⟨f.ident, .parameter⟩) ++
        own.map fun ident => ⟨ident, .default⟩ := by
  have hassigned : (Constructor.full fields).assigned = identityName :: fields.map Field.ident := by
    simp [Constructor.full, Constructor.assigned, Param.name, Function.comp_def]
  have hfield : ∀ f ∈ fields, (identityName :: fields.map Field.ident).contains f.ident = true :=
    fun f hf => List.contains_iff_mem.mpr (List.mem_cons_of_mem _ (List.mem_map_of_mem hf))
  have hfields : fields.map (fun f => Initializer.mk f.ident
      (if (identityName :: fields.map Field.ident).contains f.ident then .parameter
        else .emptyText)) = fields.map fun f => ⟨f.ident, .parameter⟩ :=
    List.map_congr_left fun f hf => by rw [hfield f hf, if_pos rfl]
  simp only [ConstructorCode.of, hassigned, hfields]
  simp

end KeyedModel
