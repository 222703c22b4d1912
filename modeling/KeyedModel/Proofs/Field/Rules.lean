import KeyedModel.Field.Rules
import KeyedModel.Proofs.Argument.Gathering

/-!
# What the rules for fields guarantee

The verdicts on the arguments depend on the names and keys taken so far. Along an accepted list this
state contains exactly the earlier fields, so the rules together say that the names are pairwise
distinct, the keys are pairwise distinct, and no name is in use already.
-/

namespace KeyedModel

open Text (unraw)

variable {own : List String} {taken : Taken} {field : Field} {fields : List Field}
  {arguments : List Argument}

/-- Fields that can be added to what is taken: their names are not the identity's and none of the
struct's own, and neither names nor keys repeat. -/
structure Taken.Free (own : List String) (taken : Taken) (fields : List Field) : Prop where
  ne_identity : ∀ f ∈ fields, f.name ≠ identityName
  not_own : ∀ f ∈ fields, f.name ∉ own
  name_not_taken : ∀ f ∈ fields, f.name ∉ taken.names
  key_not_taken : ∀ f ∈ fields, f.key ∉ taken.keys
  names_nodup : (fields.map Field.name).Nodup
  keys_nodup : (fields.map Field.key).Nodup

/-- A field is rejected by no rule if it is free by itself. -/
theorem Field.fault?_eq_none :
    field.fault? own taken = none ↔
      field.name ≠ identityName ∧ field.name ∉ own ∧ field.name ∉ taken.names ∧
        field.key ∉ taken.keys := by
  unfold Field.fault?
  by_cases hid : field.name = identityName
  · simp [hid]
  by_cases hown : field.name ∈ own
  · simp [hid, hown]
  by_cases hname : field.name ∈ taken.names
  · simp [hid, hown, hname]
  by_cases hkey : field.key ∈ taken.keys <;> simp [hid, hown, hname, hkey]

namespace Taken

/-- A free name is taken together with its key. -/
theorem add_of_not_mem (h : field.name ∉ taken.names) :
    taken.add field = ⟨field.name :: taken.names, field.key :: taken.keys⟩ := by
  simp [add, h]

/-- No field is always free. -/
theorem free_nil : Free own taken [] := by
  constructor <;> simp

/-- A field is free with others if no rule rejects it and the others are free behind it. -/
theorem free_cons :
    Free own taken (field :: fields) ↔
      field.fault? own taken = Option.none ∧ Free own (taken.add field) fields := by
  rw [Field.fault?_eq_none]
  constructor
  · intro h
    have hname : field.name ∉ taken.names := h.name_not_taken field List.mem_cons_self
    have hnames := List.nodup_cons.mp h.names_nodup
    have hkeys := List.nodup_cons.mp h.keys_nodup
    refine ⟨⟨h.ne_identity _ List.mem_cons_self, h.not_own _ List.mem_cons_self, hname,
      h.key_not_taken _ List.mem_cons_self⟩, ?_⟩
    rw [add_of_not_mem hname]
    refine ⟨fun f hf => h.ne_identity f (List.mem_cons_of_mem _ hf),
      fun f hf => h.not_own f (List.mem_cons_of_mem _ hf), fun f hf hmem => ?_,
      fun f hf hmem => ?_, hnames.2, hkeys.2⟩
    · rcases List.mem_cons.mp hmem with heq | hmem
      · exact hnames.1 (List.mem_map.mpr ⟨f, hf, heq⟩)
      · exact h.name_not_taken f (List.mem_cons_of_mem _ hf) hmem
    · rcases List.mem_cons.mp hmem with heq | hmem
      · exact hkeys.1 (List.mem_map.mpr ⟨f, hf, heq⟩)
      · exact h.key_not_taken f (List.mem_cons_of_mem _ hf) hmem
  · rintro ⟨⟨hid, hown, hname, hkey⟩, h⟩
    rw [add_of_not_mem hname] at h
    have hnames : field.name ∉ fields.map Field.name := by
      intro hmem
      obtain ⟨f, hf, heq⟩ := List.mem_map.mp hmem
      exact h.name_not_taken f hf (heq ▸ List.mem_cons_self)
    have hkeys : field.key ∉ fields.map Field.key := by
      intro hmem
      obtain ⟨f, hf, heq⟩ := List.mem_map.mp hmem
      exact h.key_not_taken f hf (heq ▸ List.mem_cons_self)
    refine ⟨List.forall_mem_cons.mpr ⟨hid, h.ne_identity⟩,
      List.forall_mem_cons.mpr ⟨hown, h.not_own⟩,
      List.forall_mem_cons.mpr ⟨hname, fun f hf hmem => ?_⟩,
      List.forall_mem_cons.mpr ⟨hkey, fun f hf hmem => ?_⟩,
      List.nodup_cons.mpr ⟨hnames, h.names_nodup⟩, List.nodup_cons.mpr ⟨hkeys, h.keys_nodup⟩⟩
    · exact h.name_not_taken f hf (List.mem_cons_of_mem _ hmem)
    · exact h.key_not_taken f hf (List.mem_cons_of_mem _ hmem)

end Taken

/-- Fields that describe the arguments of a list and meet all rules for a struct with the given
fields of its own. -/
def Field.Admissible (own : List String) (fields : List Field) : Prop :=
  Taken.Free (own.map unraw) .none fields

variable {argument : Argument} {fault : FieldFault}

section Verdict

attribute [local simp] judge

/-- An argument that describes no field is an error, and takes nothing. -/
theorem judge_cons_invalid (h : Field.ofArgument argument = .error fault) :
    judge own taken (argument :: arguments) =
      .error ⟨fault, argument.literal.place⟩ :: judge own taken arguments := by
  simp [h]

/-- A field that no rule rejects is accepted, and takes its name and its key. -/
theorem judge_cons_free (h : Field.ofArgument argument = .ok field)
    (hfree : field.fault? own taken = none) :
    judge own taken (argument :: arguments) = .ok field :: judge own (taken.add field) arguments :=
    by
  simp [h, hfree]

/-- A field that a rule rejects is an error. -/
theorem judge_cons_rejected (h : Field.ofArgument argument = .ok field)
    (hfault : field.fault? own taken = some fault) :
    ∃ after : Taken, judge own taken (argument :: arguments) =
      .error ⟨fault, argument.literal.place⟩ :: judge own after arguments := by
  cases fault with
  | repeatedKey key => exact ⟨taken.add field, by simp [h, hfault]⟩
  | _ => exact ⟨taken, by simp [h, hfault]⟩

end Verdict

/-- Every verdict is a field exactly when each argument describes one and all of them are free. -/
theorem judge_eq_ok :
    judge own taken arguments = fields.map .ok ↔
      arguments.map Field.ofArgument = fields.map .ok ∧ Taken.Free own taken fields := by
  induction arguments generalizing taken fields with
  | nil =>
    cases fields with
    | nil => simp [judge, Taken.free_nil]
    | cons f more => simp [judge]
  | cons argument rest ih =>
    cases hfield : Field.ofArgument argument with
    | error fault => cases fields <;> simp [judge_cons_invalid hfield, hfield]
    | ok found =>
      cases hfault : found.fault? own taken with
      | none =>
        rw [judge_cons_free hfield hfault]
        cases fields with
        | nil => simp
        | cons f more =>
          simp only [List.map_cons, List.cons.injEq, hfield, Except.ok.injEq, ih, Taken.free_cons]
          constructor
          · rintro ⟨rfl, hrest, hfree⟩
            exact ⟨⟨rfl, hrest⟩, hfault, hfree⟩
          · rintro ⟨⟨rfl, hrest⟩, -, hfree⟩
            exact ⟨rfl, hrest, hfree⟩
      | some fault =>
        obtain ⟨after, hjudge⟩ := @judge_cons_rejected own taken found rest argument fault hfield hfault
        cases fields with
        | nil => simp [hjudge]
        | cons f more =>
          simp only [hjudge, List.map_cons, List.cons.injEq, reduceCtorEq, false_and, false_iff,
            hfield, Except.ok.injEq, Taken.free_cons]
          rintro ⟨⟨rfl, -⟩, hnone, -⟩
          simp [hfault] at hnone

/-- The verdicts depend on what the arguments describe, but for the places of the errors. -/
theorem judge_congr {others : List Argument}
    (h : arguments.map Field.ofArgument = others.map Field.ofArgument) :
    (judge own taken arguments).map (Except.mapError FieldError.fault) =
      (judge own taken others).map (Except.mapError FieldError.fault) := by
  induction arguments generalizing others taken with
  | nil =>
    obtain rfl : others = [] := by simpa using h.symm
    rfl
  | cons a rest ih =>
    cases others with
    | nil => cases h
    | cons b more =>
      obtain ⟨hfirst, hrest⟩ := List.cons.inj h
      simp only [judge, ← hfirst]
      cases Field.ofArgument a with
      | error fault => simp only [List.map_cons, ih hrest, Except.mapError]
      | ok field =>
        cases hfault : field.fault? own taken with
        | none => simp only [hfault, List.map_cons, ih hrest, Except.mapError]
        | some fault =>
          cases fault <;> simp only [hfault, List.map_cons, ih hrest, Except.mapError]

/-- The fields of some arguments, for a struct with the given fields of its own, are accepted
exactly when each argument describes its field and the fields are admissible. -/
theorem Field.ofArguments_eq_ok :
    Field.ofArguments own arguments = .ok fields ↔
      arguments.map Field.ofArgument = fields.map .ok ∧ Field.Admissible own fields := by
  rw [Field.ofArguments, gather_eq_ok, judge_eq_ok, Field.Admissible]

/-- The rules decide by what the arguments describe, and only the places of the errors depend on
anything else. -/
theorem Field.ofArguments_congr {others : List Argument}
    (h : arguments.map Field.ofArgument = others.map Field.ofArgument) :
    (Field.ofArguments own arguments).mapError (List.map FieldError.fault) =
      (Field.ofArguments own others).mapError (List.map FieldError.fault) := by
  rw [Field.ofArguments, ← gather_mapError, judge_congr h, gather_mapError, Field.ofArguments]

end KeyedModel
