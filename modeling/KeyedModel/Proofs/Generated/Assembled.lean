import KeyedModel.Proofs.Generated.Preserved
import KeyedModel.Proofs.Grammar.LoneFields

/-!
# Where the assembly stops

The assembly of generated code stops at the identifier of a field that makes no word, or that makes
one which is a keyword, so that its field cannot be read. Nothing else about a struct or the fields
can stop it: neither keys nor the schema name, neither repeated identifiers nor the visibility.
-/

namespace KeyedModel

open Token (Tree word group)
open Grammar (StructItem OwnField IsVisibility readAll)
open Text (isDeclarable isIdentifier isKeyword isPlainIdent)

namespace Text

/-- The text can be the identifier of a field: an identifier that is no keyword, or the raw mark and
an identifier that may be raw. -/
def Usable (text : String) : Prop :=
  isPlainIdent text.toList = true ∧ text ∉ keywords ∨
    ∃ word : String, text = "r#" ++ word ∧ isPlainIdent word.toList = true ∧ word ∉ neverRaw

theorem isDeclarable_iff_usable (text : String) : isDeclarable text = true ↔ Usable text := by
  unfold isDeclarable
  split
  · rename_i rest hrest
    rw [Bool.and_eq_true]
    constructor
    · rintro ⟨hplain, hraw⟩
      have htext : text = "r#" ++ String.ofList rest := by simp [← String.toList_inj, hrest]
      exact .inr ⟨String.ofList rest, htext, by simpa using hplain, by simpa using hraw⟩
    · rintro (⟨hplain, -⟩ | ⟨word, rfl, hplain, hraw⟩)
      · simp [hrest, isPlainIdent, not_isIdentContinue_hash] at hplain
      · obtain rfl : word.toList = rest := by simpa using hrest
        exact ⟨hplain, by simpa using hraw⟩
  · rename_i hrest
    rw [Bool.and_eq_true]
    constructor
    · rintro ⟨hplain, hkeyword⟩
      exact .inl ⟨hplain, by simpa [isKeyword] using hkeyword⟩
    · rintro (⟨hplain, hkeyword⟩ | ⟨word, rfl, -, -⟩)
      · exact ⟨hplain, by simpa [isKeyword] using hkeyword⟩
      · exact absurd (by simp) (hrest word.toList)

/-- Without its mark an identifier is one still. -/
theorem isIdentifier_unraw {text : String} (h : isIdentifier text = true) :
    isIdentifier (unraw text) = true := by
  unfold unraw
  split
  · rename_i rest hrest
    have hplain : isPlainIdent rest = true := by
      simp only [isIdentifier, hrest, Bool.and_eq_true] at h
      exact h.1
    rw [isIdentifier_of_not_raw, String.toList_ofList]
    · exact hplain
    · rintro more hmore
      rw [String.toList_ofList] at hmore
      simp [hmore, isPlainIdent, not_isIdentContinue_hash] at hplain
  · exact h

end Text

namespace Generated

variable {front : List Tree} {fields : List Field} {s : StructItem} {name : String}

/-! ### Words -/

/-- A list is mapped if each of its elements can be. -/
theorem mapM_eq_if {α β : Type} {f : α → Option β} {p : α → Bool} {g : α → β}
    (h : ∀ a, f a = if p a then some (g a) else none) (list : List α) :
    list.mapM f = if list.all p then some (list.map g) else none := by
  induction list with
  | nil => rfl
  | cons a rest ih =>
    rw [List.mapM_cons, h a, ih]
    cases ha : p a <;> cases hrest : rest.all p <;> simp [ha, hrest]

/-- Words are made of identifiers only. -/
theorem wordsOf?_eq_if (spellings : List String) :
    wordsOf? spellings = if spellings.all isIdentifier then some (spellings.map word) else none :=
  mapM_eq_if (fun _ => rfl) spellings

/-! ### Members -/

/-- The rules of any text may be nested deeply enough for the types of new members. -/
theorem exists_meaningFor_eq (trees : List Tree) :
    ∃ depth, Grammar.meaningFor trees = Grammar.meaningOf Grammar.rules (depth + 3) :=
  ⟨16 * Tree.sizeList trees + 29, by rw [Grammar.meaningFor, Grammar.depthFor]; rfl⟩

/-- The identity is read as it was put together. -/
theorem assembleMember?_identity (hfront : IsVisibility front) :
    assembleMember? front .identity = some (member front .identity) := by
  have hread : readAll .loneField (member front .identity) = .ok ((), member front .identity) := by
    obtain ⟨depth, hmeaning⟩ := exists_meaningFor_eq (member front .identity)
    rw [Grammar.readAll_eq_ok, hmeaning]
    exact Grammar.Rule.run_loneField hfront (by decide) (Grammar.meaning_identityType depth)
  have hword : wordOf? Member.identity.ident = some (word identityName) := if_pos (by decide)
  simp [assembleMember?, hword, hread]

/-- A generated field is read as it was put together if its identifier can be declared. -/
theorem assembleMember?_generated (hfront : IsVisibility front) (f : Field) :
    assembleMember? front (.generated f) =
      if isDeclarable f.ident then some (member front (.generated f)) else none := by
  obtain ⟨depth, hmeaning⟩ := exists_meaningFor_eq (member front (.generated f))
  have hread (hkeyword : isKeyword f.ident = false) :
      readAll .loneField (member front (.generated f)) = .ok ((), member front (.generated f)) := by
    rw [Grammar.readAll_eq_ok, hmeaning]
    exact Grammar.Rule.run_loneField hfront hkeyword (Grammar.meaning_textType (depth + 2))
  have hunread (hkeyword : isKeyword f.ident = true) (read : Unit × List Tree) :
      readAll .loneField (member front (.generated f)) ≠ .ok read := by
    intro h
    rw [Grammar.readAll_eq_ok, hmeaning] at h
    exact Grammar.Rule.rest_of_run_loneField hfront hkeyword h rfl
  rw [assembleMember?, wordOf?, Text.isDeclarable_eq, Member.ident]
  cases hident : isIdentifier f.ident with
  | false => rfl
  | true =>
    cases hkeyword : isKeyword f.ident with
    | false => simp [hread hkeyword]
    | true =>
      cases hresult : readAll Grammar.Rule.loneField (member front (.generated f)) with
      | error e => simp
      | ok read => exact absurd hresult (hunread hkeyword read)

/-! ### The whole assembly -/

/-- The names in the code are identifiers if those of the fields can be declared. -/
theorem all_isIdentifier_spellings (h : ∀ f ∈ fields, isDeclarable f.ident = true) :
    (constructorSpellings fields .empty).all isIdentifier = true ∧
      (constructorSpellings fields (.full fields)).all isIdentifier = true ∧
      (interfaceSpellings fields).all isIdentifier = true := by
  have hident : ∀ f ∈ fields, isIdentifier f.ident = true := fun f hf =>
    (Bool.and_eq_true_iff.mp ((Text.isDeclarable_eq _).symm.trans (h f hf))).1
  have hname : ∀ f ∈ fields, isIdentifier f.name = true := fun f hf =>
    Text.isIdentifier_unraw (hident f hf)
  have hidentity : isIdentifier identityName = true := by decide
  have hnew : isIdentifier Constructor.empty.name = true := by decide
  have hfull : isIdentifier (Constructor.full fields).name = true :=
    (by decide : isIdentifier "with_fields" = true)
  refine ⟨?_, ?_, ?_⟩
  · simpa [constructorSpellings, hidentity, Constructor.empty] using ⟨hnew, hident⟩
  · simpa [constructorSpellings, hidentity, Constructor.full, Param.name] using ⟨hfull, hident⟩
  · simpa [interfaceSpellings, hidentity] using ⟨hident, hname⟩

/-- The assembly stops exactly if the identifier of a field cannot be declared; otherwise it gives
the code for the struct. -/
theorem assemble?_eq_if (hfront : IsVisibility s.visibility) :
    assemble? s (.ofFields name fields) =
      if fields.all (isDeclarable ·.ident) then some (of s (.ofFields name fields)).trees
      else none := by
  have hgenerated : (fields.map Member.generated).mapM (assembleMember? s.visibility) =
      if fields.all (isDeclarable ·.ident) then
        some (fields.map fun f => member s.visibility (.generated f))
      else none := by
    rw [List.mapM_map]
    exact mapM_eq_if (assembleMember?_generated hfront) fields
  rw [assemble?, Expansion.members_ofFields, List.mapM_cons, assembleMember?_identity hfront,
    hgenerated, Expansion.constructors_ofFields, Expansion.fields_ofFields]
  have hmembers : (of s (.ofFields name fields)).members.map (member s.visibility) =
      member s.visibility .identity ::
        (fields.map fun f => member s.visibility (.generated f)) ++
        s.ownFields.map OwnField.trees := by
    rw [members_of]
    simp [membersOf, member, Function.comp_def]
  have htrees : (of s (.ofFields name fields)).trees =
      s.header ++ s.whereClause ++ [group .brace (separated
        ((of s (.ofFields name fields)).members.map (member s.visibility)))] ++
      (of s (.ofFields name fields)).inherentTrees ++
      (of s (.ofFields name fields)).interfaceTrees := rfl
  by_cases hall : fields.all (isDeclarable ·.ident) = true
  · have hdeclarable : ∀ f ∈ fields, isDeclarable f.ident = true := by simpa using hall
    obtain ⟨hempty, hfull, hinterface⟩ := all_isIdentifier_spellings hdeclarable
    rw [if_pos hall, if_pos hall, htrees, hmembers]
    simp [wordsOf?_eq_if, hempty, hfull, hinterface]
  · simp [hall]

/-- For every struct that was read, the assembly of the code for any fields stops exactly if the
identifier of one of them cannot be used; otherwise it gives the generated code. -/
theorem assemble?_eq_none_iff {tokens printed : List Tree}
    (hread : Grammar.readItem tokens = .ok (.struct s, printed)) (name : String)
    (fields : List Field) :
    (assemble? s (.ofFields name fields) = none ↔ ∃ f ∈ fields, ¬ Text.Usable f.ident) ∧
      assemble? s (.ofFields name fields) =
        (of? s (.ofFields name fields)).toOption.map trees := by
  rw [assemble?_eq_if (Grammar.isVisibility_of_readItem hread)]
  by_cases hall : ∀ f ∈ fields, isDeclarable f.ident = true
  · have hmade : of? s (.ofFields name fields) = .ok (of s (.ofFields name fields)) :=
      of?_eq_ok.mpr ⟨by simpa using hall, rfl⟩
    rw [if_pos (List.all_eq_true.mpr hall), hmade]
    refine ⟨⟨nofun, ?_⟩, rfl⟩
    rintro ⟨f, hf, hunusable⟩
    exact absurd ((Text.isDeclarable_iff_usable _).mp (hall f hf)) hunusable
  · have hmade : (of? s (.ofFields name fields)).toOption = none := by
      cases hof : of? s (.ofFields name fields) with
      | error e => rfl
      | ok g => exact absurd (by simpa using (of?_eq_ok.mp hof).1) hall
    rw [if_neg (mt List.all_eq_true.mp hall), hmade]
    refine ⟨⟨fun _ => ?_, fun _ => rfl⟩, rfl⟩
    simp only [not_forall, exists_prop] at hall
    obtain ⟨f, hf, hundeclarable⟩ := hall
    exact ⟨f, hf, fun husable => hundeclarable ((Text.isDeclarable_iff_usable _).mpr husable)⟩

/-- Behind any visibility a keyword cannot be used, and the same word can with the raw mark. -/
theorem assemble?_keyword :
    ∃ item s printed, Token.lex "item" "pub(in ::a::b) struct A;" = some item ∧
      Grammar.readItem item = .ok (.struct s, printed) ∧
      assemble? s (.ofFields "\"" [⟨"pub", "x"⟩]) = none ∧
      assemble? s (.ofFields "\"" [⟨"r#pub", "]"⟩, ⟨"r#pub", "]"⟩]) ≠ none := by
  have hread : (Token.lex "item" "pub(in ::a::b) struct A;").bind readStruct = some ([], .model) := by
    decide +kernel
  obtain ⟨item, hlex, hread⟩ := Option.bind_eq_some_iff.mp hread
  obtain ⟨s, printed, hitem, -, -⟩ := readStruct_eq_some hread
  have hpub : ¬ Text.Usable "pub" := by
    rw [← Text.isDeclarable_iff_usable]
    decide
  have hraw : Text.Usable "r#pub" := by
    rw [← Text.isDeclarable_iff_usable]
    decide
  refine ⟨item, s, printed, hlex, hitem, ?_, ?_⟩
  · exact (assemble?_eq_none_iff hitem _ _).1.mpr ⟨_, List.mem_cons_self, hpub⟩
  · rw [Ne, (assemble?_eq_none_iff hitem _ _).1]
    simpa using hraw

end Generated

end KeyedModel
