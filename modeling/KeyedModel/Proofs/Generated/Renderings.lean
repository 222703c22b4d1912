import KeyedModel.Proofs.Attribute.Descriptors
import KeyedModel.Proofs.Generated.Lines
import KeyedModel.Proofs.Generated.Visibility

/-!
# Two renderings of one expansion

An expansion is written as lines of text and as generated code. Both are read here with the readers
of an outline, and what is read is the same: the schema, the names of the members, their keys, and
the constructors with their parameters and what they store.
-/

namespace KeyedModel

open Token (Tree sign word operator group tokens?)
open Token.Tree (denotedAll)
open Grammar (Item StructItem readItem)

/-! ### What is read off the lines -/

@[simp] theorem keyText?_line (f : Field) :
    Generated.keyText? (Declaration.field f).line = some f.key := by
  simp [Declaration.line, Generated.keyText?, sign, word, group, Token.literal]

namespace Generated

variable {c : Char} {rest visibility : List Tree} {fields : List Field} {own : List String}

@[simp] theorem declaredName?_identityLine :
    declaredName? Declaration.identity.line = some identityName := rfl

@[simp] theorem declaredName?_fieldLine (f : Field) :
    declaredName? (Declaration.field f).line = some f.ident := rfl

@[simp] theorem declaredName?_paramLine (p : Param) (spacing : Token.Spacing) :
    declaredName? (p.line spacing) = some p.name := by
  cases p <;> rfl

@[simp] theorem declaredName?_param (p : Param) : declaredName? (param p) = some p.name := by
  cases p <;> rfl

/-- The value of the schema constant in the line. -/
theorem constantValue?_line (value : String) :
    constantValue? "SCHEMA" (Declaration.schema value).line =
      some [Token.literal (Text.quoteDisplay value)] := rfl

/-! ### Parameters -/

theorem lacks_paramLine (p : Param) (spacing : Token.Spacing) : Lacks ',' (p.line spacing) := by
  cases p <;> simp [Param.line]

theorem lacks_absolute (words : List String) (h : c ≠ ':') : Lacks c (absolute words) := by
  have hjoined : Lacks c (joined words) := by
    fun_induction joined words <;> simp_all [operator, Token.jointSign]
  simp [absolute, operator, Token.jointSign, h, hjoined]

theorem lacks_identityType : Lacks ',' identityType := by
  simp [identityType, optionOf, applied, interface, lacks_absolute]

theorem lacks_textType : Lacks ',' textType := lacks_absolute _ (by decide)

theorem lacks_param (p : Param) : Lacks ',' (param p) := by
  cases p <;> simp [param, lacks_identityType, lacks_textType]

/-- The names of parameters with commas between them. -/
theorem paramNames_lines (params : List Param) :
    (pieces ',' (separated (paramLines params))).filterMap declaredName? = params.map Param.name := by
  have hlacks : ∀ line ∈ paramLines params, Lacks ',' line := by
    fun_induction paramLines params <;> simp_all [lacks_paramLine]
  rw [filterMap_pieces_separated rfl hlacks]
  fun_induction paramLines params <;> simp_all

theorem paramNames_code (params : List Param) :
    (pieces ',' (separated (params.map param))).filterMap declaredName? = params.map Param.name := by
  rw [filterMap_pieces_separated rfl (by simp [lacks_param]), List.filterMap_map]
  induction params <;> simp_all

/-! ### Constructors -/

/-- The function in the line of a constructor. -/
def lineFunction (c : Constructor) : FunctionTrees :=
  ⟨c.name, separated (paramLines c.params), c.assignments.flatMap fun a => a.line ++ [sign ';']⟩

/-- The function in the code of a constructor. -/
def codeFunction (c : ConstructorCode) : FunctionTrees :=
  ⟨c.name, separated (c.params.map param),
    [word "Self", group .brace (terminated (c.initializers.map initializer))]⟩

theorem functions_line (c : Constructor) : functions c.line = [lineFunction c] := rfl

theorem functions_constructor (c : ConstructorCode) :
    functions (constructor c ++ rest) = codeFunction c :: functions rest := by
  rfl

theorem functions_constructors (cs : List ConstructorCode) :
    functions (cs.flatMap constructor) = cs.map codeFunction := by
  induction cs with
  | nil => rfl
  | cons c rest ih => rw [List.flatMap_cons, functions_constructor, ih, List.map_cons]

/-- The assignments in the line of a constructor are those that it makes. -/
theorem assigned_lineFunction (c : Constructor) : (lineFunction c).assigned = c.assignments := by
  have hlacks : ∀ line ∈ c.assignments.map Assignment.line, Lacks ';' line := by
    simp [Assignment.line]
  have hpieces := pieces_flatMap hlacks
  rw [List.flatMap_map] at hpieces
  rw [FunctionTrees.assigned, lineFunction, hpieces, List.filterMap_append, List.filterMap_map]
  have hread : assignment? ∘ Assignment.line = some := rfl
  simp [hread, assignment?]

/-- The members that the literal of a constructor takes from a variable. -/
theorem variableMember?_initializer (i : Initializer) :
    variableMember? (initializer i) =
      if i.value = .parameter then some ⟨i.ident, i.ident⟩ else none := by
  obtain ⟨ident, value⟩ := i
  cases value <;> rfl

theorem lacks_initializer (i : Initializer) : Lacks ',' (initializer i) := by
  unfold initializer
  split <;> simp [lacks_absolute]

/-- The pieces of the literal of a constructor; nothing stands behind the last comma. -/
theorem pieces_initializers (initializers : List Initializer) :
    pieces ',' (terminated (initializers.map initializer)) = initializers.map initializer ++ [[]] :=
  pieces_flatMap (by simp [lacks_initializer])

/-- The members that a literal takes from variables are those with a parameter as their value. -/
theorem filterMap_variableMember? (initializers : List Initializer) :
    (initializers.map initializer).filterMap variableMember? =
      (initializers.filter (·.value = .parameter)).map fun i => ⟨i.ident, i.ident⟩ := by
  induction initializers with
  | nil => rfl
  | cons i rest ih =>
    rw [List.map_cons, List.filterMap_cons, variableMember?_initializer, ih]
    by_cases hvalue : i.value = .parameter <;> simp [hvalue]

/-- What the literal of a constructor takes from its parameters: every member with a parameter as
its value, if there is such a parameter. -/
theorem taken_codeFunction (c : ConstructorCode) :
    (codeFunction c).taken =
      ((c.initializers.filter (·.value = .parameter)).map fun i => ⟨i.ident, i.ident⟩).filter
        fun a => (c.params.map Param.name).contains a.source := by
  have hbody : firstBlock? (codeFunction c).body =
      some (terminated (c.initializers.map initializer)) := rfl
  have hnames : (codeFunction c).paramNames = c.params.map Param.name := paramNames_code c.params
  rw [FunctionTrees.taken, hbody, Option.getD_some, pieces_initializers, hnames,
    List.filterMap_append, filterMap_variableMember?]
  simp [variableMember?]

/-- The members that the constructor with parameters takes from them. -/
theorem filter_initializers_full :
    (ConstructorCode.of (.full fields) fields own).initializers.filter (·.value = .parameter) =
      ⟨identityName, .parameter⟩ :: fields.map fun f => ⟨f.ident, .parameter⟩ := by
  simp [ConstructorCode.initializers_full, List.filter_map, Function.comp_def]

/-- The constructor without parameters stores nothing it was given. -/
theorem taken_empty :
    (codeFunction (.of .empty fields own)).taken = Constructor.empty.assignments := by
  rw [taken_codeFunction]
  simp [ConstructorCode.of, Constructor.empty, Constructor.assigned, Constructor.assignments]

/-- The constructor with parameters stores all of them. -/
theorem taken_full :
    (codeFunction (.of (.full fields) fields own)).taken = (Constructor.full fields).assignments := by
  have hparams : (ConstructorCode.of (.full fields) fields own).params.map Param.name =
      identityName :: fields.map Field.ident := by
    simp [ConstructorCode.of, Constructor.full, Param.name, Function.comp_def]
  rw [taken_codeFunction, filter_initializers_full, hparams, List.filter_eq_self.mpr]
  · simp [Constructor.assignments, Constructor.full, Param.name]
  · simpa using fun f hf => .inr ⟨f, hf, rfl⟩

/-- Some code's constructors and the lines of them are the same functions, and what the line assigns
the code takes from a parameter. -/
structure SameFunction (line code : FunctionTrees) : Prop where
  name : line.name = code.name
  paramNames : line.paramNames = code.paramNames
  stored : line.assigned = code.taken

theorem sameFunction_of {c : Constructor}
    (h : (codeFunction (.of c fields own)).taken = c.assignments) :
    SameFunction (lineFunction c) (codeFunction (.of c fields own)) where
  name := rfl
  paramNames := (paramNames_lines c.params).trans (paramNames_code c.params).symm
  stored := (assigned_lineFunction c).trans h.symm

/-! ### Members of the struct -/

theorem lacks_documentation (text : Tree) (h : c ≠ '#') : Lacks c (documentation text) := by
  simp [documentation, outerAttribute, h]

/-- The name of a member that is no field written by hand. -/
theorem declaredName?_member (hvisibility : Lacks ':' visibility) :
    declaredName? (member visibility .identity) = some identityName ∧
      ∀ f, declaredName? (member visibility (.generated f)) = some f.ident := by
  have hfront : ∀ text, Lacks ':' (documentation text ++ visibility) := fun text =>
    lacks_append.mpr ⟨lacks_documentation text (by decide), hvisibility⟩
  exact ⟨declaredName?_append (hfront _), fun f => declaredName?_append (hfront _)⟩

theorem lacks_member (hvisibility : Lacks ',' visibility) :
    Lacks ',' (member visibility .identity) ∧
      ∀ f, Lacks ',' (member visibility (.generated f)) := by
  simp [member, lacks_documentation, hvisibility, lacks_identityType, lacks_textType]

/-- The pieces of the struct's body that stand first declare the identity and the generated
fields. -/
theorem declaredName?_structTrees {s : StructItem} (h : ∀ c, Lacks c s.visibility) :
    ∃ body, lastBlock? (of s (.ofFields s.name fields)).structTrees = some body ∧
      ((pieces ',' body).take (fields.length + 1)).map declaredName? =
        (identityName :: fields.map Field.ident).map some := by
  have hmember := lacks_member (h ',')
  have hname := declaredName?_member (h ':')
  have hgenerated :
      ∀ e ∈ (Member.identity :: fields.map Member.generated).map (member s.visibility),
      Lacks ',' e := by
    simp [hmember]
  obtain ⟨others, hpieces, -⟩ := exists_pieces_separated
    (s.ownFields.map fun f => member s.visibility (.own f)) (by simp) hgenerated
  refine ⟨_, by rw [structTrees, lastBlock?_append], ?_⟩
  have hmembers : (of s (.ofFields s.name fields)).members.map (member s.visibility) =
      (Member.identity :: fields.map Member.generated).map (member s.visibility) ++
        s.ownFields.map fun f => member s.visibility (.own f) := by
    simp [membersOf, Function.comp_def]
  change ((pieces ',' (separated ((of s (.ofFields s.name fields)).members.map
    (member s.visibility)))).take _).map _ = _
  rw [hmembers, hpieces, List.take_left']
  · simp [hname]
  · simp

/-- The functions of the code are its constructors. -/
theorem functions_inherentTrees (g : Generated) :
    ∃ body, lastBlock? g.inherentTrees = some body ∧
      functions body = g.constructors.map codeFunction := by
  refine ⟨_, by rw [inherentTrees, implementation, ← List.append_assoc, lastBlock?_append], ?_⟩
  exact functions_constructors g.constructors

end Generated

/-! ### The agreement -/

/-- The tokens of the lines of an expansion. -/
structure TextLines where
  schema : List Tree
  identity : List Tree
  fields : List (List Tree)
  empty : List Tree
  full : List Tree

namespace TextLines

/-- All lines in their order. -/
def all (lines : TextLines) : List (List Tree) :=
  lines.schema :: lines.identity :: (lines.fields ++ [lines.empty, lines.full])

/-- The lines of a model. -/
def ofFields (name : String) (fields : List Field) : TextLines where
  schema := (Declaration.schema name).line
  identity := Declaration.identity.line
  fields := fields.map fun f => (Declaration.field f).line
  empty := Constructor.empty.line
  full := (Constructor.full fields).line

end TextLines

open Generated

/-- The lines and the code denote the same members. -/
structure SameMembers (name : String) (fields : List Field) (lines : TextLines) (g : Generated) :
    Prop where
  /-- The schema of both is the name of the struct. -/
  schemaLine : (constantValue? "SCHEMA" lines.schema).map denotedAll = some [some name]
  schemaCode : ((lastBlock? g.inherentTrees).bind (constantValue? "SCHEMA")).map denotedAll =
    some [some name]
  /-- The lines of the identity and of the fields name the fields that the struct begins with. -/
  names : ∃ body, lastBlock? g.structTrees = some body ∧
    (lines.identity :: lines.fields).map declaredName? =
      (identityName :: fields.map Field.ident).map some ∧
    ((pieces ',' body).take (fields.length + 1)).map declaredName? =
      (identityName :: fields.map Field.ident).map some
  /-- The line of a field has the key that its descriptor and the two lookups have. -/
  keysLine : lines.fields.map keyText? = fields.map fun f => some f.key
  keysListed : (Descriptor.listed? g.trees).map (List.map Descriptor.key) =
    some (fields.map Field.key)
  keysValue : ((lastBlock? g.interfaceTrees).bind (functionBody? "value")).map denotedAll =
    some (fields.map fun f => some f.key)
  keysValueMut : ((lastBlock? g.interfaceTrees).bind (functionBody? "value_mut")).map denotedAll =
    some (fields.map fun f => some f.key)
  /-- The functions of the code are those of the two lines. -/
  constructors : ∃ body empty full emptyCode fullCode, lastBlock? g.inherentTrees = some body ∧
    functions body = [emptyCode, fullCode] ∧
    functions lines.empty = [empty] ∧ SameFunction empty emptyCode ∧ empty.paramNames = [] ∧
    functions lines.full = [full] ∧ SameFunction full fullCode ∧
    full.paramNames = identityName :: fields.map Field.ident ∧
    full.assigned = full.paramNames.map fun name => ⟨name, name⟩

/-- Lines that can be read are read one by one. -/
theorem mapM_tokens?_text {declarations : List Declaration} (h : ∀ d ∈ declarations, d.Readable) :
    (declarations.map Declaration.text).mapM tokens? = some (declarations.map Declaration.line) := by
  induction declarations with
  | nil => rfl
  | cons d rest ih =>
    obtain ⟨hd, hrest⟩ := List.forall_mem_cons.mp h
    simp [d.tokens?_text hd, ih hrest]

/-- The declarations of a model can be read if the identifiers of its fields can be declared. -/
theorem readable_ofFields {name : String} {fields : List Field}
    (h : ∀ f ∈ fields, Text.isDeclarable f.ident = true) :
    ∀ d ∈ (Expansion.ofFields name fields).declarations, d.Readable := by
  have hident : ∀ f ∈ fields, Text.isIdentifier f.ident = true := by
    intro f hf
    have hdeclarable := h f hf
    rw [Text.isDeclarable_eq, Bool.and_eq_true] at hdeclarable
    exact hdeclarable.1
  have hid : Text.isIdentifier identityName = true := by decide
  simp only [Expansion.ofFields, List.mem_cons, List.mem_append, List.mem_map, List.not_mem_nil,
    or_false]
  rintro d (rfl | rfl | ⟨f, hf, rfl⟩ | rfl | rfl)
  · trivial
  · trivial
  · exact hident f hf
  · simp [Declaration.Readable, Constructor.Readable, Constructor.empty]
  · simpa [Declaration.Readable, Constructor.Readable, Constructor.full, Param.name, hid]
      using hident

theorem tokens?_texts {name : String} {fields : List Field}
    (h : ∀ f ∈ fields, Text.isDeclarable f.ident = true) :
    (Expansion.ofFields name fields).texts.mapM tokens? =
      some (TextLines.ofFields name fields).all := by
  rw [Expansion.texts, mapM_tokens?_text (readable_ofFields h)]
  simp [Expansion.ofFields, TextLines.ofFields, TextLines.all, Declaration.line]

/-- The lines and the code of one struct and some fields denote the same members. -/
theorem sameMembers_of {s : StructItem} {fields : List Field} (h : ∀ c, Lacks c s.visibility) :
    SameMembers s.name fields (.ofFields s.name fields) (.of s (.ofFields s.name fields)) where
  schemaLine := by simp [TextLines.ofFields, constantValue?_line, Token.literal]
  schemaCode := spells_of.schema
  names := by
    obtain ⟨body, hbody, hnames⟩ := declaredName?_structTrees h
    refine ⟨body, hbody, ?_, hnames⟩
    simp [TextLines.ofFields]
  keysLine := by simp [TextLines.ofFields]
  keysListed := by simp [Descriptor.listed?_of]
  keysValue := spells_of.value
  keysValueMut := spells_of.valueMut
  constructors := by
    obtain ⟨body, hbody, hfunctions⟩ := functions_inherentTrees (.of s (.ofFields s.name fields))
    rw [constructors_of] at hfunctions
    have hfull : (lineFunction (.full fields)).paramNames = (Constructor.full fields).params.map _ :=
      paramNames_lines _
    refine ⟨body, _, _, _, _, hbody, hfunctions, functions_line _, sameFunction_of taken_empty,
      paramNames_lines _, functions_line _, sameFunction_of taken_full, ?_, ?_⟩
    · rw [hfull]
      simp [Constructor.full, Param.name]
    · rw [hfull, assigned_lineFunction]
      simp [Constructor.assignments]

/-- A struct that can become a model is expanded to any fields whose identifiers can be declared.
The lines of the expansion can be read, code is made of it, and both denote the same members. -/
theorem renderings_agree {item tokens : List Tree} {s : StructItem} {fields : List Field}
    (hread : readItem item = .ok (.struct s, tokens)) (htarget : (Item.struct s).target = .model)
    (hfields : ∀ f ∈ fields, Text.isDeclarable f.ident = true) :
    ∃ e g lines, (Request.mk (Item.struct s).target s.name fields).expand = .ok e ∧
      e.texts.mapM tokens? = some (TextLines.all lines) ∧ Generated.of? s e = .ok g ∧
      SameMembers s.name fields lines g := by
  refine ⟨.ofFields s.name fields, .of s (.ofFields s.name fields), .ofFields s.name fields, ?_,
    tokens?_texts hfields, ?_, sameMembers_of (Grammar.lacks_visibility hread)⟩
  · rw [htarget]
    rfl
  · exact Generated.of?_eq_ok.mpr ⟨by simpa using hfields, rfl⟩

/-- A key with a null character in front of a digit and with quotes, which the two renderings escape
differently, a raw identifier, and a struct with a comma inside a field of its own. -/
theorem renderings_agree_null_key :
    ∃ item tokens s,
      Token.lex "item" "pub(in a::b) struct A<K, V> \x7b own: Map<K, V>, n: u8 \x7d" = some item ∧
      readItem item = .ok (.struct s, tokens) ∧ (Item.struct s).target = .model ∧
      (∀ f ∈ [⟨"r#type", "\x001\"\\"⟩, ⟨"title", "title"⟩], Text.isDeclarable (Field.ident f) = true) ∧
      ∃ e g lines, (Request.mk (Item.struct s).target s.name
          [⟨"r#type", "\x001\"\\"⟩, ⟨"title", "title"⟩]).expand = .ok e ∧
        e.texts.mapM tokens? = some (TextLines.all lines) ∧ Generated.of? s e = .ok g ∧
        SameMembers s.name [⟨"r#type", "\x001\"\\"⟩, ⟨"title", "title"⟩] lines g := by
  have hread : (Token.lex "item" "pub(in a::b) struct A<K, V> \x7b own: Map<K, V>, n: u8 \x7d").bind
      readStruct = some (["own", "n"], .model) := by decide +kernel
  obtain ⟨item, hlex, hread⟩ := Option.bind_eq_some_iff.mp hread
  have hlist : Field.ofList ["own", "n"] [] = .ok [] := rfl
  obtain ⟨g, hexpands, -⟩ := exists_expands hread hlist (by simp)
  obtain ⟨tokens, hitem⟩ := hexpands.read
  obtain ⟨accepted, haccepts, -⟩ := hexpands.made
  have hfields : ∀ f ∈ [⟨"r#type", "\x001\"\\"⟩, ⟨"title", "title"⟩],
      Text.isDeclarable (Field.ident f) = true := by decide
  exact ⟨item, tokens, g.item, hlex, hitem, haccepts.target, hfields,
    renderings_agree hitem haccepts.target hfields⟩

end KeyedModel
