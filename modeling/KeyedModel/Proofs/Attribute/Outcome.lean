import KeyedModel.Attribute

/-!
# What the attribute comes to

An attribute on an item comes to one of three ends: generated code, a refusal, or an identifier that
cannot be written. The first and the last need an item that was read as a struct and an argument
list that was accepted for it.
-/

namespace KeyedModel

open Token (Tree)
open Grammar (Item StructItem StructBody SyntaxError readItem)

variable {arguments item : List Tree} {g : Generated}

/-- The fields of a struct that are accepted: it can become a model, and the list describes them. -/
structure Accepts (arguments : List Tree) (s : StructItem) (fields : List Field) : Prop where
  target : (Item.struct s).target = .model
  fields : Field.ofList (s.ownFields.map (·.ident)) arguments = .ok fields

/-- The attribute makes the code of the item. -/
structure Expands (arguments item : List Tree) (g : Generated) : Prop where
  read : ∃ tokens, Grammar.readItem item = .ok (.struct g.item, tokens)
  made : ∃ fields, Accepts arguments g.item fields ∧
    Generated.of? g.item (.ofFields g.item.name fields) = .ok g

/-- The expansion of an attribute on a struct is that of the fields that are accepted. -/
theorem Expansion.of_struct_eq_ok {s : StructItem} {e : Expansion} :
    Expansion.of arguments (.struct s) = .ok e ↔
      ∃ fields, Accepts arguments s fields ∧ e = .ofFields s.name fields := by
  unfold Expansion.of Request.of
  cases htarget : (Item.struct s).target with
  | other found =>
    simp only [Request.expand, reduceCtorEq, false_iff, not_exists, not_and]
    rintro fields ⟨hmodel, -⟩
    simp [htarget] at hmodel
  | model =>
    cases hlist : Field.ofList (s.ownFields.map (·.ident)) arguments with
    | error refusal =>
      simp only [Item.ownIdents, hlist, Except.map, reduceCtorEq, false_iff, not_exists, not_and]
      rintro fields ⟨-, hfields⟩
      simp [hlist] at hfields
    | ok fields =>
      simp only [Item.ownIdents, hlist, Except.map, Request.expand, Except.ok.injEq]
      constructor
      · rintro rfl
        exact ⟨fields, ⟨htarget, hlist⟩, rfl⟩
      · rintro ⟨found, ⟨-, hfound⟩, rfl⟩
        obtain rfl : fields = found := Except.ok.inj (hlist.symm.trans hfound)
        rfl

/-- An expansion is refused for the arguments, or for what the attribute was put on. -/
theorem Expansion.of_eq_error {read : Item} {refusal : Refusal} :
    Expansion.of arguments read = .error refusal ↔
      (read.target = .model ∧ Field.ofList read.ownIdents arguments = .error refusal) ∨
        ∃ found, read.target = .other found ∧ refusal = .target ⟨found⟩ := by
  unfold Expansion.of Request.of
  cases htarget : read.target with
  | model => cases Field.ofList read.ownIdents arguments <;> simp [Except.map, Request.expand]
  | other found => simp [Request.expand, eq_comm]

/-- The fields of a list are those that its arguments describe. -/
theorem Field.ofList_eq_ok {own : List String} {fields : List Field} :
    Field.ofList own arguments = .ok fields ↔
      ∃ found, Argument.ofTrees arguments = .ok found ∧ Field.ofArguments own found = .ok fields := by
  unfold Field.ofList
  cases Argument.ofTrees arguments with
  | error e => simp
  | ok found => cases hfields : Field.ofArguments own found <;> simp [hfields]

/-- Code that is made is that of its struct, whatever the identifiers. -/
theorem Generated.of?_eq_ok {s : StructItem} {e : Expansion} :
    Generated.of? s e = .ok g ↔
      (∀ f ∈ e.fields, Text.isDeclarable f.ident = true) ∧ g = .of s e := by
  unfold Generated.of?
  split
  · rename_i f hfind
    have hbad : Text.isDeclarable f.ident = false := by simpa using List.find?_some hfind
    have hmem := List.mem_of_find?_eq_some hfind
    simp only [reduceCtorEq, false_iff, not_and]
    intro hall
    simp [hall f hmem] at hbad
  · rename_i hfind
    have hall : ∀ f ∈ e.fields, Text.isDeclarable f.ident = true := by
      simpa using List.find?_eq_none.mp hfind
    simp only [Except.ok.injEq, eq_comm (a := g)]
    exact ⟨fun h => ⟨hall, h⟩, fun h => h.2⟩

/-- The fields of the declarations of a model are the fields it was made for. -/
@[simp] theorem Expansion.fields_ofFields (name : String) (fields : List Field) :
    (ofFields name fields).fields = fields := by
  have hfields : (fields.map Declaration.field).filterMap Declaration.field? = fields := by
    induction fields with
    | nil => rfl
    | cons f rest ih => exact congrArg (f :: ·) ih
  change ((fields.map Declaration.field) ++ _).filterMap Declaration.field? = fields
  rw [List.filterMap_append, hfields]
  exact List.append_nil fields

namespace Grammar.Item

variable {tokens : List Tree}

/-- An item whose expansion is refused is put out behind the diagnostics. -/
theorem apply_of_refused {read : Item} {refusal : Refusal}
    (h : Expansion.of arguments read = .error refusal) :
    read.apply tokens arguments = .ok (refused refusal.diagnostics tokens) := by
  simp only [apply, h]

/-- An item that is no struct is refused. -/
theorem apply_other {kind : ItemKind} {name : String} :
    (other kind name).apply tokens arguments =
      .ok (refused [.ofTarget ⟨kind.found⟩] tokens) := by
  have h : Expansion.of arguments (.other kind name) = .error (.target ⟨kind.found⟩) := rfl
  exact apply_of_refused h

/-- A struct with accepted fields is put out as the code that is made of it. -/
theorem apply_of_accepts {s : StructItem} {fields : List Field} (h : Accepts arguments s fields) :
    (struct s).apply tokens arguments =
      (Generated.of? s (.ofFields s.name fields)).map Generated.trees := by
  have hof := Expansion.of_struct_eq_ok.mpr ⟨fields, h, rfl⟩
  simp only [apply, hof]

end Grammar.Item

/-- An identifier cannot be written exactly when a struct is expanded to fields of which one has
it. -/
theorem applyAttribute_eq_error {x : UnusableIdent} :
    applyAttribute arguments item = .error x ↔
      ∃ s tokens fields, Grammar.readItem item = .ok (.struct s, tokens) ∧
        Accepts arguments s fields ∧ Generated.of? s (.ofFields s.name fields) = .error x := by
  constructor
  · intro h
    unfold applyAttribute at h
    split at h
    · cases h
    rename_i found tokens hread
    cases found with
    | other kind name => simp [Item.apply_other] at h
    | struct s =>
      cases hof : Expansion.of arguments (.struct s) with
      | error refusal => simp [Item.apply_of_refused hof] at h
      | ok e =>
        obtain ⟨fields, haccepts, -⟩ := Expansion.of_struct_eq_ok.mp hof
        rw [Item.apply_of_accepts haccepts] at h
        cases hmade : Generated.of? s (.ofFields s.name fields) with
        | ok g => simp [hmade, Except.map] at h
        | error y =>
          obtain rfl : y = x := by simpa [hmade, Except.map] using h
          exact ⟨s, tokens, fields, hread, haccepts, hmade⟩
  · rintro ⟨s, tokens, fields, hread, haccepts, herror⟩
    simp only [applyAttribute, hread, Item.apply_of_accepts haccepts, herror, Except.map]

/-- What is put out for an item that is expanded is the code that is made of it. -/
theorem Expands.apply (h : Expands arguments item g) :
    applyAttribute arguments item = .ok g.trees := by
  obtain ⟨tokens, hread⟩ := h.read
  obtain ⟨fields, haccepts, hmade⟩ := h.made
  simp only [applyAttribute, hread, Item.apply_of_accepts haccepts, hmade, Except.map]

/-- The item is refused with some diagnostics; the tokens are what is put out behind them. -/
inductive Refuses (arguments item : List Tree) : List Diagnostic → List Tree → Prop where
  /-- An item that cannot be read is dropped. -/
  | unread {e : SyntaxError} (hread : readItem item = .error e) :
    Refuses arguments item [.ofSyntax e] []
  /-- An item that can be read is put out. -/
  | unexpanded {read : Item} {tokens : List Tree} {refusal : Refusal}
    (hread : readItem item = .ok (read, tokens)) (h : Expansion.of arguments read = .error refusal) :
    Refuses arguments item refusal.diagnostics tokens

/-- What is put out is generated code or a refusal. -/
theorem applyAttribute_eq_ok {trees : List Tree} :
    applyAttribute arguments item = .ok trees ↔
      (∃ g, Expands arguments item g ∧ trees = g.trees) ∨
        ∃ diagnostics tokens, Refuses arguments item diagnostics tokens ∧
          trees = refused diagnostics tokens := by
  constructor
  · intro h
    cases hread : readItem item with
    | error e =>
      obtain rfl : refused [.ofSyntax e] [] = trees := by simpa [applyAttribute, hread] using h
      exact .inr ⟨_, _, .unread hread, rfl⟩
    | ok r =>
      obtain ⟨read, tokens⟩ := r
      have hitem : read.apply tokens arguments = .ok trees := by
        simpa [applyAttribute, hread] using h
      cases hof : Expansion.of arguments read with
      | error refusal =>
        rw [Item.apply_of_refused hof, Except.ok.injEq] at hitem
        exact .inr ⟨_, _, .unexpanded hread hof, hitem.symm⟩
      | ok e =>
        cases read with
        | other kind name => cases hof
        | struct s =>
          obtain ⟨fields, haccepts, -⟩ := Expansion.of_struct_eq_ok.mp hof
          rw [Item.apply_of_accepts haccepts] at hitem
          cases hmade : Generated.of? s (.ofFields s.name fields) with
          | error x => simp [hmade, Except.map] at hitem
          | ok g =>
            obtain rfl : g.trees = trees := by simpa [hmade, Except.map] using hitem
            obtain ⟨-, rfl⟩ := Generated.of?_eq_ok.mp hmade
            exact .inl ⟨_, ⟨⟨tokens, hread⟩, fields, haccepts, hmade⟩, rfl⟩
  · rintro (⟨g, hexpands, rfl⟩ | ⟨diagnostics, tokens, hrefuses, rfl⟩)
    · exact hexpands.apply
    · cases hrefuses with
      | unread hread => simp only [applyAttribute, hread]
      | unexpanded hread hof => simp only [applyAttribute, hread, Item.apply_of_refused hof]

end KeyedModel
