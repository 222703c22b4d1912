import KeyedModel.Proofs.Generated.Preserved
import KeyedModel.Proofs.Generated.Renderings
import KeyedModel.Proofs.Grammar.OwnFields

/-!
# Constructors initialise the struct

The fields of the struct, the parameters of a constructor and the members of its literal are listed
in three places of the code. They are read off its tokens here, and line up for all lists of fields,
also where an identifier is repeated or is that of a field written by hand.
-/

namespace KeyedModel

open Token (Tree sign word operator group)
open Grammar (StructItem OwnField)

namespace Generated

variable {fields : List Field} {own : List String} {s : StructItem} {g : Generated} {name : String}

/-! ### Literals of a struct -/

/-- The attributes in front of some trees, and what stands behind them. -/
def cutAttributes : List Tree → List (List Tree) × List Tree
  | .punct '#' _ _ :: .group .bracket _ body _ :: rest =>
    (body :: (cutAttributes rest).1, (cutAttributes rest).2)
  | trees => ([], trees)

/-- A member of a literal behind its attributes: its name and the expression that it is set to. A
name alone is set to the variable of that name. -/
def setting? (trees : List Tree) : Option (String × List Tree) :=
  match (cutAttributes trees).2 with
  | [.ident member place] => some (member, [.ident member place])
  | .ident member _ :: .punct ':' _ _ :: expression => some (member, expression)
  | _ => none

/-- The members of the literal of the struct that is the whole body of a function. A comma may stand
behind the last one. -/
def FunctionTrees.entries? (f : FunctionTrees) : Option (List (List Tree)) :=
  match f.body with
  | [.ident "Self" _, .group .brace _ inner _] => some ((pieces ',' inner).filter (!·.isEmpty))
  | _ => none

/-- The expression for the initial value of a field. -/
def valueTrees (ident : String) : InitialValue → List Tree
  | .parameter => [word ident]
  | .noIdentity => absolute ["core", "option", "Option", "None"]
  | .emptyText => absolute ["std", "string", "String", "new"] ++ [group .paren []]
  | .default => absolute ["core", "default", "Default", "default"] ++ [group .paren []]

theorem setting?_initializer (i : Initializer) :
    setting? (initializer i) = some (i.ident, valueTrees i.ident i.value) := by
  obtain ⟨ident, value⟩ := i
  cases value <;> rfl

/-- The literal of a constructor has a member for each field that it initialises. -/
theorem entries?_codeFunction (c : ConstructorCode) :
    (codeFunction c).entries? = some (c.initializers.map initializer) := by
  have hfull : ∀ e ∈ c.initializers.map initializer, (!e.isEmpty) = true := by
    rintro e he
    obtain ⟨i, -, rfl⟩ := List.mem_map.mp he
    unfold initializer
    split <;> rfl
  change some ((pieces ',' (terminated (c.initializers.map initializer))).filter _) = _
  rw [pieces_initializers, List.filter_append, List.filter_eq_self.mpr hfull]
  simp

/-! ### Fields of the struct -/

/-- The fields of the struct, as they print between its commas. -/
def memberTrees (g : Generated) : List (List Tree) := g.members.map (member g.item.visibility)

/-- A field that was read declares its name. -/
theorem declaredName?_own {f : OwnField} (h : f.WasRead) : declaredName? f.trees = some f.ident := by
  obtain ⟨colon, type, htyped⟩ := h.typed
  rw [OwnField.trees, htyped, word]
  exact declaredName?_append (lacks_append.mpr ⟨h.attributes.lacks (by decide), h.visibility ':'⟩)

/-- The fields of the struct by their names: the identity first, the fields written by hand last. -/
theorem declaredName?_memberTrees (hvisibility : Lacks ':' s.visibility)
    (hown : ∀ f ∈ s.ownFields, f.WasRead) :
    (of s (.ofFields name fields)).memberTrees.map declaredName? =
      (identityName :: fields.map Field.ident ++ s.ownFields.map (·.ident)).map some := by
  obtain ⟨hidentity, hgenerated⟩ := declaredName?_member hvisibility
  have hwritten : s.ownFields.map (fun f => declaredName? (member s.visibility (.own f))) =
      s.ownFields.map fun f => some f.ident :=
    List.map_congr_left fun f hf => declaredName?_own (hown f hf)
  have hmembers : (of s (.ofFields name fields)).memberTrees =
      (membersOf fields s).map (member s.visibility) := by
    rw [memberTrees, members_of]
    rfl
  rw [hmembers]
  simp [membersOf, Function.comp_def, hidentity, hgenerated, hwritten]

/-! ### Constructors -/

/-- The members of a literal that sets the identity, the generated fields and the fields written by
hand, in this order, with what each is set to. -/
def settings (identity text : InitialValue) (fields : List Field) (own : List String) :
    List (String × List Tree) :=
  (identityName, valueTrees identityName identity) ::
      (fields.map fun f => (f.ident, valueTrees f.ident text)) ++
    own.map fun ident => (ident, valueTrees ident .default)

/-- The function initialises the members of a struct with the given settings, and with nothing else:
its literal has one member for each of the struct, in the same order. Every parameter is the value of
the member of the same name, and of no other. -/
structure FunctionTrees.Initializes (f : FunctionTrees) (members : List (List Tree))
    (settings : List (String × List Tree)) : Prop where
  literal : ∃ entries, f.entries? = some entries ∧ entries.map setting? = settings.map some ∧
    entries.map (fun e => (setting? e).map Prod.fst) = members.map declaredName? ∧
    entries.filterMap variableMember? = f.paramNames.map fun name => ⟨name, name⟩

/-- The parameters of a function with at least one, by their names. -/
theorem declaredName?_params {params : List Param} (h : params ≠ []) :
    (pieces ',' (separated (params.map param))).map declaredName? =
      params.map fun p => some p.name := by
  have hlacks : ∀ e ∈ params.map param, Lacks ',' e := by simp [lacks_param]
  obtain ⟨others, hpieces, hothers⟩ := exists_pieces_separated [] (by simpa using h) hlacks
  rw [List.append_nil, hothers rfl, List.append_nil] at hpieces
  simp [hpieces, Function.comp_def]

/-- A constructor initialises a struct if it has an initializer for each of its fields, and takes
from parameters what it has parameters for. -/
theorem initializes_codeFunction {c : ConstructorCode} {members : List (List Tree)}
    (hnames : members.map declaredName? = c.initializers.map fun i => some i.ident)
    (htaken : (c.initializers.filter (·.value = .parameter)).map (·.ident) =
      c.params.map Param.name) :
    (codeFunction c).Initializes members
      (c.initializers.map fun i => (i.ident, valueTrees i.ident i.value)) where
  literal := by
    have hparams : (codeFunction c).paramNames = c.params.map Param.name := paramNames_code c.params
    refine ⟨_, entries?_codeFunction c, ?_, ?_, ?_⟩
    · simp [Function.comp_def, setting?_initializer]
    · rw [hnames]
      simp [Function.comp_def, setting?_initializer]
    · rw [filterMap_variableMember?, hparams, ← htaken]
      simp

/-- The constructors of the code initialise its struct. -/
structure Initializes (g : Generated) (s : StructItem) (fields : List Field) : Prop where
  /-- The struct has these fields between its braces. -/
  struct : g.structTrees = s.braced g.memberTrees
  names : g.memberTrees.map declaredName? =
    (identityName :: fields.map Field.ident ++ s.ownFields.map (·.ident)).map some
  /-- One constructor has no parameters, the other has one for each generated field. -/
  constructors : ∃ body empty full, lastBlock? g.inherentTrees = some body ∧
    functions body = [empty, full] ∧
    empty.name = "new" ∧ empty.params = [] ∧
    empty.Initializes g.memberTrees
      (settings .noIdentity .emptyText fields (s.ownFields.map (·.ident))) ∧
    full.name = "with_fields" ∧
    (pieces ',' full.params).map declaredName? =
      (identityName :: fields.map Field.ident).map some ∧
    full.Initializes g.memberTrees
      (settings .parameter .parameter fields (s.ownFields.map (·.ident)))

/-- Whatever fields a struct that was read is expanded to, both constructors initialise exactly the
fields of the new struct. -/
theorem of?_initializes {tokens printed : List Tree}
    (hread : Grammar.readItem tokens = .ok (.struct s, printed))
    (hg : of? s (.ofFields name fields) = .ok g) : g.Initializes s fields := by
  obtain ⟨-, rfl⟩ := of?_eq_ok.mp hg
  have hnames : (of s (.ofFields name fields)).memberTrees.map declaredName? =
      (identityName :: fields.map Field.ident ++ s.ownFields.map (·.ident)).map some :=
    declaredName?_memberTrees (Grammar.lacks_visibility hread ':') (Grammar.ownFields_wasRead hread)
  obtain ⟨body, hbody, hfunctions⟩ := functions_inherentTrees (of s (.ofFields name fields))
  rw [constructors_of] at hfunctions
  have hinitialized (c : Constructor) : (of s (.ofFields name fields)).memberTrees.map declaredName? =
      (ConstructorCode.of c fields (s.ownFields.map (·.ident))).initializers.map
        fun i => some i.ident := by
    rw [hnames, ← ConstructorCode.idents_of c, List.map_map]
    rfl
  refine ⟨rfl, hnames, body, _, _, hbody, hfunctions, rfl, rfl, ?_, rfl, ?_, ?_⟩
  · have htaken : (ConstructorCode.of .empty fields (s.ownFields.map (·.ident))).initializers.filter
        (·.value = .parameter) = [] := by
      simp [ConstructorCode.initializers_empty, List.filter_map, Function.comp_def]
    have hempty := initializes_codeFunction (hinitialized .empty) (by rw [htaken]; rfl)
    simpa [settings, ConstructorCode.initializers_empty, Function.comp_def] using hempty
  · have hparams : Param.identity :: fields.map .field ≠ [] := by simp
    refine (declaredName?_params hparams).trans ?_
    simp [Param.name, Function.comp_def]
  · have hfull := initializes_codeFunction (hinitialized (.full fields)) (by
      rw [filter_initializers_full]
      simp [ConstructorCode.of, Constructor.full, Param.name, Function.comp_def])
    simpa [settings, ConstructorCode.initializers_full, Function.comp_def] using hfull

/-- Also where an identifier is repeated and others are those of fields written by hand. -/
theorem initializes_repeated_idents :
    ∃ item s printed, ∃ g : Generated,
      Token.lex "item" "struct A \x7b a: u8, id: Map<u8, u8> \x7d" = some item ∧
        Grammar.readItem item = .ok (.struct s, printed) ∧
        s.ownFields.map (·.ident) = ["a", "id"] ∧
        g.Initializes s [⟨"a", "x"⟩, ⟨"a", "y"⟩, ⟨"id", "z"⟩] := by
  have hread : (Token.lex "item" "struct A \x7b a: u8, id: Map<u8, u8> \x7d").bind readStruct =
      some (["a", "id"], .model) := by decide +kernel
  obtain ⟨item, hlex, hread⟩ := Option.bind_eq_some_iff.mp hread
  obtain ⟨s, printed, hitem, hown, -⟩ := readStruct_eq_some hread
  have hdeclarable : ∀ f ∈ [Field.mk "a" "x", ⟨"a", "y"⟩, ⟨"id", "z"⟩],
      Text.isDeclarable f.ident = true := by
    decide
  have hmade := of?_eq_ok.mpr ⟨by simpa using hdeclarable,
    (rfl : of s (.ofFields s.name [⟨"a", "x"⟩, ⟨"a", "y"⟩, ⟨"id", "z"⟩]) = _)⟩
  exact ⟨item, s, printed, _, hlex, hitem, hown, of?_initializes hitem hmade⟩

end Generated

end KeyedModel
