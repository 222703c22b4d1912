import KeyedModel.Instance
import KeyedModel.Proofs.Field.Rules
import KeyedModel.Proofs.Generated.Members
import Mathlib.Data.List.Nodup

/-!
# Instances by their contents

Every instance of a model consists of an identity and a text for each key. The instance with given
contents is written down once; the constructors make such instances, and every operation takes one
to another.
-/

namespace KeyedModel

variable {fields : List Field} {field : Field} {s : Grammar.StructItem} {id : Option Uuid}
  {text : String → String} {texts : List String}

/-- Fields that can be told apart by their identifiers as well as by their keys. -/
structure Field.Distinct (fields : List Field) : Prop where
  ident_ne_identity : ∀ f ∈ fields, f.ident ≠ identityName
  idents_nodup : (fields.map Field.ident).Nodup
  keys_nodup : (fields.map Field.key).Nodup

/-- The instance with the given identity and the given text for each key. -/
def Instance.holding (fields : List Field) (id : Option Uuid) (text : String → String) : Instance :=
  ⟨(identityName, .identity id) :: fields.map fun f => (f.ident, .text (text f.key))⟩

/-- The entry of a key after a change: every other entry is as before. -/
def changed (text : String → String) (key new : String) : String → String :=
  fun k => if k = key then new else text k

namespace Instance

/-- The text of a field is the entry of its key. -/
theorem text_holding (hfields : Field.Distinct fields) (hmem : field ∈ fields) :
    (holding fields id text).values.text field.ident = text field.key := by
  have hlookup : ∀ fields : List Field, (fields.map Field.ident).Nodup → field ∈ fields →
      (fields.map fun f => (f.ident, FieldValue.text (text f.key))).lookup field.ident =
        some (.text (text field.key)) := by
    intro fields hnodup hmem
    induction fields with
    | nil => cases hmem
    | cons f rest ih =>
      obtain ⟨hnot, hrest⟩ := List.nodup_cons.mp hnodup
      rcases List.mem_cons.mp hmem with rfl | hmem
      · simp
      · have hne : field.ident ≠ f.ident := fun heq => hnot (heq ▸ List.mem_map_of_mem hmem)
        simp only [List.map_cons, List.lookup_cons, beq_eq_false_iff_ne.mpr hne]
        exact ih hrest hmem
  have hid : (field.ident == identityName) = false :=
    beq_eq_false_iff_ne.mpr (hfields.ident_ne_identity field hmem)
  simp only [holding, Bindings.text, List.lookup_cons, hid]
  rw [hlookup fields hfields.idents_nodup hmem]

/-- Replacing the identity leaves the texts alone. -/
theorem setIdentity_holding (hfields : Field.Distinct fields) (new : Option Uuid) :
    (holding fields id text).setIdentity new = holding fields new text := by
  simp only [setIdentity, replace, holding, List.map_cons, beq_self_eq_true, if_true,
    List.map_map, mk.injEq, List.cons.injEq, true_and]
  refine List.map_congr_left fun f hf => ?_
  simp [hfields.ident_ne_identity f hf]

/-- Replacing the text of a field changes the entry of its key alone. -/
theorem replace_holding (hfields : Field.Distinct fields) (hmem : field ∈ fields) (new : String) :
    (holding fields id text).replace field.ident (.text new) =
      holding fields id (changed text field.key new) := by
  have hid : (identityName == field.ident) = false :=
    beq_eq_false_iff_ne.mpr fun heq => hfields.ident_ne_identity field hmem heq.symm
  have hsame : ∀ f ∈ fields, f.ident = field.ident ↔ f.key = field.key := by
    intro f hf
    constructor
    · intro heq
      rw [List.inj_on_of_nodup_map hfields.idents_nodup hf hmem heq]
    · intro heq
      rw [List.inj_on_of_nodup_map hfields.keys_nodup hf hmem heq]
  simp only [replace, holding, List.map_cons, hid, List.map_map, mk.injEq, List.cons.injEq,
    Bool.false_eq_true, if_false, true_and]
  refine List.map_congr_left fun f hf => ?_
  by_cases hkey : f.key = field.key
  · have hident := (hsame f hf).mpr hkey
    simp [changed, hkey, hident]
  · have hident : f.ident ≠ field.ident := fun heq => hkey ((hsame f hf).mp heq)
    simp [changed, hkey, hident]

end Instance

/-- The field that is stored under a key. -/
def Field.under? (fields : List Field) (key : String) : Option Field :=
  fields.find? (·.key == key)

/-- A field is under its own key. -/
theorem Field.under?_key (hfields : Field.Distinct fields) (hmem : field ∈ fields) :
    under? fields field.key = some field := by
  cases hfind : fields.find? (·.key == field.key) with
  | none => exact absurd hmem fun hmem => by simpa using List.find?_eq_none.mp hfind field hmem
  | some f =>
    have hkey : f.key = field.key := by simpa using List.find?_some hfind
    have hf := List.mem_of_find?_eq_some hfind
    obtain rfl := List.inj_on_of_nodup_map hfields.keys_nodup hf hmem hkey
    exact hfind

/-- What is under a key is a field with that key. -/
theorem Field.under?_eq_some {key : String} (h : under? fields key = some field) :
    field ∈ fields ∧ field.key = key :=
  ⟨List.mem_of_find?_eq_some h, by simpa using List.find?_some h⟩

/-- There is a field under every key of a field, and under no other. -/
theorem Field.isSome_under? {key : String} :
    (under? fields key).isSome = true ↔ key ∈ fields.map Field.key := by
  simp [under?]

namespace Generated

variable {name : String}

/-- A key leads to the identifier of the field under it. -/
theorem identOf?_of (key : String) :
    (of s (.ofFields name fields)).identOf? key = (Field.under? fields key).map Field.ident := by
  rw [identOf?, slots_of, List.find?_map, Option.map_map]
  rfl

/-- Fields written by hand have no place in an instance. -/
theorem values_own (parameters : Bindings) (own : List String) :
    (own.map fun ident => Initializer.mk ident .default).filterMap
      (Initializer.value? parameters) = [] := by
  induction own with
  | nil => rfl
  | cons ident rest ih => exact ih

/-- The constructor without parameters makes an instance without an identity, all texts empty. -/
theorem new_of : (of s (.ofFields name fields)).new = .holding fields none fun _ => "" := by
  have hfields : (fields.map fun f => Initializer.mk f.ident .emptyText).filterMap
      (Initializer.value? []) = fields.map fun f => (f.ident, .text "") := by
    induction fields with
    | nil => rfl
    | cons f rest ih => exact congrArg ((f.ident, FieldValue.text "") :: ·) ih
  rw [new, construct, constructors_of]
  change Instance.mk ((identityName, .identity none) ::
    ((fields.map fun f => Initializer.mk f.ident .emptyText) ++ _).filterMap
      (Initializer.value? [])) = _
  rw [List.filterMap_append, hfields, values_own, List.append_nil, Instance.holding]

/-- The parameters of the constructor with parameters, bound to its arguments. -/
theorem bind_full (id : Option Uuid) (texts : List String) :
    Param.bind id (.identity :: fields.map .field) texts =
      (identityName, .identity id) ::
        (fields.zip texts).map fun p => (p.1.ident, .text p.2) := by
  have hfields : ∀ (fields : List Field) (texts : List String),
      Param.bind id (fields.map .field) texts =
        (fields.zip texts).map fun p => (p.1.ident, .text p.2) := by
    intro fields
    induction fields with
    | nil => intro texts; rfl
    | cons f rest ih =>
      intro texts
      cases texts with
      | nil =>
        have hrest := ih []
        rw [List.zip_nil_right] at hrest ⊢
        exact hrest
      | cons t more => exact congrArg ((f.ident, FieldValue.text t) :: ·) (ih more)
  exact congrArg _ (hfields fields texts)

/-- The argument of a field is found by its identifier as well as by its key. -/
theorem lookup_argument (hidents : (fields.map Field.ident).Nodup)
    (hkeys : (fields.map Field.key).Nodup) (hlength : texts.length = fields.length)
    (hmem : field ∈ fields) :
    ∃ t, ((fields.zip texts).map fun p => (p.1.ident, FieldValue.text p.2)).lookup field.ident =
        some (.text t) ∧ ((fields.map Field.key).zip texts).lookup field.key = some t := by
  induction fields generalizing texts with
  | nil => cases hmem
  | cons f rest ih =>
    cases texts with
    | nil => cases hlength
    | cons t more =>
      obtain ⟨hident, hidents⟩ := List.nodup_cons.mp hidents
      obtain ⟨hkey, hkeys⟩ := List.nodup_cons.mp hkeys
      rcases List.mem_cons.mp hmem with rfl | hmem
      · exact ⟨t, by simp, by simp⟩
      · have hneIdent : (field.ident == f.ident) = false :=
          beq_eq_false_iff_ne.mpr fun heq => hident (heq ▸ List.mem_map_of_mem hmem)
        have hneKey : (field.key == f.key) = false :=
          beq_eq_false_iff_ne.mpr fun heq => hkey (heq ▸ List.mem_map_of_mem hmem)
        simp only [List.zip_cons_cons, List.map_cons, List.lookup_cons, hneIdent, hneKey]
        exact ih hidents hkeys (Nat.succ.inj hlength) hmem

/-- The constructor with parameters makes an instance of its arguments. -/
theorem withFields_of (hfields : Field.Distinct fields) (hlength : texts.length = fields.length) :
    (of s (.ofFields name fields)).withFields id texts =
      .holding fields id fun key => (((fields.map Field.key).zip texts).lookup key).getD "" := by
  let text (key : String) : String := (((fields.map Field.key).zip texts).lookup key).getD ""
  let parameters : Bindings := (identityName, .identity id) ::
    (fields.zip texts).map fun p => (p.1.ident, .text p.2)
  have hvalue : ∀ f ∈ fields, Initializer.value? parameters ⟨f.ident, .parameter⟩ =
      some (f.ident, .text (text f.key)) := by
    intro f hf
    obtain ⟨t, hident, hkey⟩ :=
      lookup_argument hfields.idents_nodup hfields.keys_nodup hlength hf
    have hid : (f.ident == identityName) = false :=
      beq_eq_false_iff_ne.mpr (hfields.ident_ne_identity f hf)
    simp only [Initializer.value?, parameters, List.lookup_cons, hid, hident, Option.map_some, text,
      hkey, Option.getD_some]
  have hvalues : (fields.map fun f => Initializer.mk f.ident .parameter).filterMap
      (Initializer.value? parameters) = fields.map fun f => (f.ident, .text (text f.key)) := by
    rw [List.filterMap_map]
    exact (List.filterMap_congr hvalue).trans (congrFun List.filterMap_eq_map fields)
  have hrun : (of s (.ofFields name fields)).withFields id texts =
      (ConstructorCode.of (.full fields) fields (s.ownFields.map (·.ident))).run id texts := by
    rw [withFields, construct, constructors_of]
    rfl
  have hbind : Param.bind id (Constructor.full fields).params texts = parameters :=
    bind_full id texts
  have hid : Initializer.value? parameters ⟨identityName, .parameter⟩ =
      some (identityName, .identity id) := by
    simp [Initializer.value?, parameters]
  rw [hrun, ConstructorCode.run, ConstructorCode.initializers_full]
  change Instance.mk (List.filterMap (Initializer.value?
    (Param.bind id (Constructor.full fields).params texts)) _) = _
  rw [hbind, List.cons_append, List.filterMap_cons_some hid, List.filterMap_append, hvalues,
    values_own, List.append_nil, Instance.holding]

end Generated

end KeyedModel
