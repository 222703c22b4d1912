import KeyedModel.Proofs.Field.Rules
import KeyedModel.Proofs.Generated.Members

/-!
# Names in a generated struct

The rules for arguments keep the generated fields apart from the identity, from each other and from
the fields written by hand. No rule keeps a field written by hand apart from the identity, so this
is the one pair that can collide.
-/

namespace KeyedModel

open Token (Tree lex)
open Text (unraw)

variable {arguments item : List Tree} {g : Generated}

/-- Names of members count without their raw marks. -/
def Generated.memberNames (g : Generated) : List String := g.members.map fun m => unraw m.ident

/-- Names of the fields written by hand, without their raw marks. -/
def Generated.ownNames (g : Generated) : List String := g.item.ownFields.map fun f => unraw f.ident

/-- Fields that are accepted for a struct are admissible for it. -/
theorem Accepts.admissible {s : Grammar.StructItem} {fields : List Field}
    (h : Accepts arguments s fields) : Field.Admissible (s.ownFields.map (·.ident)) fields := by
  obtain ⟨found, -, hfields⟩ := Field.ofList_eq_ok.mp h.fields
  exact (Field.ofArguments_eq_ok.mp hfields).2

/-- The code of an item is that of its struct and of some admissible fields. -/
theorem Expands.eq_of (h : Expands arguments item g) :
    ∃ fields, Field.Admissible (g.item.ownFields.map (·.ident)) fields ∧
      g = .of g.item (.ofFields g.item.name fields) := by
  obtain ⟨fields, haccepts, hmade⟩ := h.made
  exact ⟨fields, haccepts.admissible, (Generated.of?_eq_ok.mp hmade).2⟩

/-- The name of the identity carries no raw mark. -/
theorem unraw_identityName : unraw identityName = identityName := by decide

/-- The members are named for the identity, then for admissible fields, then by hand. -/
theorem Expands.memberNames_eq (h : Expands arguments item g) :
    ∃ fields, Field.Admissible (g.item.ownFields.map (·.ident)) fields ∧
      g.memberNames = identityName :: (fields.map Field.name ++ g.ownNames) := by
  obtain ⟨fields, hfields, hg⟩ := h.eq_of
  refine ⟨fields, hfields, ?_⟩
  have hmap : g.memberNames = (g.members.map Member.ident).map unraw := by
    rw [List.map_map]
    rfl
  have hmembers : g.members = membersOf fields g.item := by
    rw [hg]
    exact Generated.members_of
  rw [hmap, hmembers, idents_membersOf, Generated.ownNames]
  simp [unraw_identityName, Field.name, Function.comp_def]

/-- Each constructor initialises the members of the struct, one by one. -/
theorem Expands.initializers_eq (h : Expands arguments item g) :
    ∀ c ∈ g.constructors, c.initializers.map (·.ident) = g.members.map Member.ident := by
  obtain ⟨fields, -, hg⟩ := h.eq_of
  intro c hc
  rw [hg, Generated.constructors_of] at hc
  rw [hg, Generated.members_of, idents_membersOf]
  simp only [List.mem_cons, List.not_mem_nil, or_false] at hc
  rcases hc with rfl | rfl <;> exact ConstructorCode.idents_of _

/-- A field written by hand with the name of the identity repeats that name. -/
theorem Expands.not_memberNames_nodup (h : Expands arguments item g)
    (hid : identityName ∈ g.ownNames) : ¬ g.memberNames.Nodup := by
  obtain ⟨fields, -, hnames⟩ := h.memberNames_eq
  intro hnodup
  rw [hnames, List.nodup_cons] at hnodup
  exact hnodup.1 (List.mem_append_right _ hid)

/-- A struct with distinct names of its own has distinct names after the expansion exactly if none
of its own names is that of the identity; what a constructor initialises are the members one by one,
so the same holds of it. -/
theorem Expands.memberNames_nodup_iff (h : Expands arguments item g) (hown : g.ownNames.Nodup) :
    (g.memberNames.Nodup ↔ identityName ∉ g.ownNames) ∧
      ∀ c ∈ g.constructors, c.initializers.map (·.ident) = g.members.map Member.ident := by
  obtain ⟨fields, hfields, hnames⟩ := h.memberNames_eq
  have hid : identityName ∉ fields.map Field.name := by
    intro hmem
    obtain ⟨f, hf, heq⟩ := List.mem_map.mp hmem
    exact hfields.ne_identity f hf heq
  have hfree : ∀ name ∈ fields.map Field.name, name ∉ g.ownNames := by
    intro name hname
    obtain ⟨f, hf, rfl⟩ := List.mem_map.mp hname
    have hnot := hfields.not_own f hf
    rwa [List.map_map] at hnot
  refine ⟨⟨fun hnodup hmem => h.not_memberNames_nodup hmem hnodup, fun hnot => ?_⟩,
    h.initializers_eq⟩
  rw [hnames, List.nodup_cons, List.nodup_append]
  refine ⟨fun hmem => ?_, hfields.names_nodup, hown, fun a ha b hb heq => ?_⟩
  · rcases List.mem_append.mp hmem with hmem | hmem
    · exact hid hmem
    · exact hnot hmem
  · exact hfree a ha (heq ▸ hb)

/-- The names of the fields of a struct, and whether it can become a model. -/
def readStruct (item : List Tree) : Option (List String × Target) :=
  match Grammar.readItem item with
  | .ok (.struct s, _) => some (s.ownFields.map (·.ident), (Grammar.Item.struct s).target)
  | _ => none

theorem readStruct_eq_some {own : List String} {target : Target}
    (h : readStruct item = some (own, target)) :
    ∃ s printed, Grammar.readItem item = .ok (.struct s, printed) ∧
      s.ownFields.map (·.ident) = own ∧ (Grammar.Item.struct s).target = target := by
  unfold readStruct at h
  split at h
  · rename_i s printed hitem
    obtain ⟨hown, htarget⟩ := Prod.mk.inj (Option.some.inj h)
    exact ⟨s, printed, hitem, hown, htarget⟩
  · cases h

/-- A struct that was read is expanded to any fields that are accepted for its own. -/
theorem exists_expands {own : List String} {fields : List Field}
    (hread : readStruct item = some (own, .model)) (hlist : Field.ofList own arguments = .ok fields)
    (hfields : ∀ f ∈ fields, Text.isDeclarable f.ident = true) :
    ∃ g, Expands arguments item g ∧ g.ownNames = own.map unraw := by
  obtain ⟨s, tokens, hitem, rfl, htarget⟩ := readStruct_eq_some hread
  have hmade : Generated.of? s (.ofFields s.name fields) = .ok (.of s (.ofFields s.name fields)) :=
    Generated.of?_eq_ok.mpr ⟨by simpa using hfields, rfl⟩
  have hexpands : Expands arguments item (.of s (.ofFields s.name fields)) :=
    ⟨⟨tokens, hitem⟩, fields, ⟨htarget, hlist⟩, hmade⟩
  refine ⟨_, hexpands, ?_⟩
  rw [List.map_map]
  rfl

/-- A struct with a field of the identity's name is expanded all the same. -/
theorem exists_expands_own_id :
    ∃ item g, lex "item" "struct A \x7b id: u8 \x7d" = some item ∧ Expands [] item g ∧
      g.ownNames = [identityName] := by
  have hread : (lex "item" "struct A \x7b id: u8 \x7d").bind readStruct =
      some ([identityName], .model) := by decide +kernel
  obtain ⟨item, hlex, hread⟩ := Option.bind_eq_some_iff.mp hread
  have hlist : Field.ofList [identityName] [] = .ok [] := rfl
  obtain ⟨g, hexpands, hnames⟩ := exists_expands hread hlist (by simp)
  exact ⟨item, g, hlex, hexpands, hnames⟩

/-- Its expansion declares that name twice. -/
theorem memberNames_own_id :
    ∃ item g, lex "item" "struct A \x7b id: u8 \x7d" = some item ∧ Expands [] item g ∧
      g.ownNames.Nodup ∧ ¬ g.memberNames.Nodup := by
  obtain ⟨item, g, hlex, hexpands, hnames⟩ := exists_expands_own_id
  have hown : g.ownNames.Nodup := by simp [hnames]
  refine ⟨item, g, hlex, hexpands, hown, fun hmembers => ?_⟩
  exact (hexpands.memberNames_nodup_iff hown).1.mp hmembers (by simp [hnames])

/-- So distinct names of the fields written by hand do not suffice. -/
theorem not_forall_memberNames_nodup :
    ¬ ∀ attr text arguments item g, lex "attr" attr = some arguments →
      lex "item" text = some item → Expands arguments item g → g.ownNames.Nodup →
        g.memberNames.Nodup := by
  intro h
  obtain ⟨item, g, hlex, hexpands, hnames⟩ := exists_expands_own_id
  have hempty : lex "attr" "" = some [] := rfl
  have hown : g.ownNames.Nodup := by simp [hnames]
  have hid : identityName ∈ g.ownNames := by simp [hnames]
  exact hexpands.not_memberNames_nodup hid (h _ _ [] item g hempty hlex hexpands hown)

end KeyedModel
