import KeyedModel.Proofs.Generated.Initialized

/-!
# Conditional fields

A field of a struct may have an attribute that removes it unless a condition holds, and so may a
member of a literal. The new struct keeps these attributes of the fields written by hand; in the
literals of the constructors there are none. So a literal fits the struct exactly if no field is
removed from it.
-/

namespace KeyedModel

open Token (Tree lex word)
open Grammar (StructItem OwnField AreAttributes)

namespace Generated

variable {fields : List Field} {s : StructItem} {g : Generated} {name : String}
  {holds : String → Bool} {attributes front rest : List Tree}

/-! ### Conditions -/

/-- The condition in an attribute, if it is one that makes something conditional. -/
def condition? : List Tree → Option String
  | [.ident "cfg" _, .group .paren _ condition _] => some (Token.text condition)
  | _ => none

/-- The conditions in the attributes in front of some trees. -/
def conditions (trees : List Tree) : List String := (cutAttributes trees).1.filterMap condition?

/-- Whether some trees stay where certain conditions hold. -/
def stays (holds : String → Bool) (trees : List Tree) : Bool := (conditions trees).all holds

/-- The fields that remain in the struct, by their names. -/
def remaining (g : Generated) (holds : String → Bool) : List (Option String) :=
  (g.memberTrees.filter (stays holds)).map declaredName?

/-- The fields that the literal of a function initialises with what remains of it. -/
def FunctionTrees.initialized? (f : FunctionTrees) (holds : String → Bool) :
    Option (List (Option String)) :=
  f.entries?.map fun entries =>
    (entries.filter (stays holds)).map fun e => (setting? e).map Prod.fst

/-- Where certain conditions hold, both constructors initialise the fields that the struct has. -/
def Consistent (g : Generated) (holds : String → Bool) : Prop :=
  ∃ body, lastBlock? g.inherentTrees = some body ∧
    (functions body).map FunctionTrees.name = ["new", "with_fields"] ∧
    ∀ f ∈ functions body, f.initialized? holds = some (g.remaining holds)

/-! ### Members -/

/-- Behind its attributes a member has none. -/
theorem cutAttributes_front (h : Lacks '#' front) :
    cutAttributes (front ++ word name :: rest) = ([], front ++ word name :: rest) := by
  cases front with
  | nil => rfl
  | cons t more =>
    obtain ⟨ht, -⟩ := lacks_cons.mp h
    rw [List.cons_append, cutAttributes.eq_def]
    split
    · rename_i heq
      obtain ⟨rfl, -⟩ := List.cons.inj heq
      simp at ht
    · rfl

theorem cutAttributes_append (h : AreAttributes attributes) :
    cutAttributes (attributes ++ rest) =
      ((cutAttributes attributes).1 ++ (cutAttributes rest).1, (cutAttributes rest).2) := by
  induction h with
  | nil => rfl
  | cons _ ih => simp [cutAttributes, ih]

/-- Whether a field written by hand stays is up to its attributes. -/
theorem stays_own {f : OwnField} (h : f.WasRead) :
    stays holds f.trees = stays holds f.attributes := by
  have hrest : cutAttributes (f.visibility ++ word f.ident :: f.typed) =
      ([], f.visibility ++ word f.ident :: f.typed) := cutAttributes_front (h.visibility '#')
  rw [stays, conditions, OwnField.trees, List.append_assoc, cutAttributes_append h.attributes, hrest,
    List.append_nil, stays, conditions]

/-- Fields that were not written by hand always stay. -/
theorem stays_member (hvisibility : Lacks '#' s.visibility) :
    stays holds (member s.visibility .identity) = true ∧
      ∀ f, stays holds (member s.visibility (.generated f)) = true := by
  have hfront (text : Tree) (ident : String) (type : List Tree) :
      stays holds (documentation text ++ s.visibility ++ word ident :: type) = true := by
    have hcut : cutAttributes (documentation text ++ s.visibility ++ word ident :: type) =
        ([[word "doc", Token.sign '=', text]], s.visibility ++ word ident :: type) := by
      simp [documentation, outerAttribute, Token.sign, Token.group, cutAttributes,
        cutAttributes_front hvisibility]
    rw [stays, conditions, hcut]
    rfl
  exact ⟨hfront _ _ _, fun f => hfront _ _ _⟩

/-- A member of the literal of a constructor always stays. -/
theorem stays_initializer (i : Initializer) : stays holds (initializer i) = true := by
  obtain ⟨ident, value⟩ := i
  cases value <;> rfl

theorem initialized?_codeFunction (c : ConstructorCode) :
    (codeFunction c).initialized? holds = some (c.initializers.map fun i => some i.ident) := by
  have hentries : (c.initializers.map initializer).filter (stays holds) =
      c.initializers.map initializer :=
    List.filter_eq_self.mpr (by simp [stays_initializer])
  rw [FunctionTrees.initialized?, entries?_codeFunction, Option.map_some, hentries]
  simp [Function.comp_def, setting?_initializer]

/-! ### Consistency -/

/-- All fields of the struct remain if those written by hand do. -/
theorem remaining_eq_iff (hvisibility : Lacks '#' s.visibility)
    (hown : ∀ f ∈ s.ownFields, f.WasRead) :
    (of s (.ofFields name fields)).remaining holds =
        (of s (.ofFields name fields)).memberTrees.map declaredName? ↔
      ∀ f ∈ s.ownFields, stays holds f.attributes = true := by
  obtain ⟨hidentity, hgenerated⟩ :
      stays holds (member s.visibility .identity) = true ∧
        ∀ f, stays holds (member s.visibility (.generated f)) = true := stays_member hvisibility
  have hall : (of s (.ofFields name fields)).remaining holds =
        (of s (.ofFields name fields)).memberTrees.map declaredName? ↔
      ∀ trees ∈ (of s (.ofFields name fields)).memberTrees, stays holds trees = true := by
    refine ⟨fun h => ?_, fun h => by rw [remaining, List.filter_eq_self.mpr h]⟩
    have hlength := congrArg List.length h
    rw [remaining, List.length_map, List.length_map] at hlength
    exact List.length_filter_eq_length_iff.mp hlength
  rw [hall, memberTrees, members_of, List.forall_mem_map]
  have hwritten : (∀ f ∈ s.ownFields, stays holds (member s.visibility (.own f)) = true) ↔
      ∀ f ∈ s.ownFields, stays holds f.attributes = true :=
    forall₂_congr fun f hf => by rw [← stays_own (hown f hf)]; rfl
  rw [← hwritten]
  change (∀ m ∈ membersOf fields s, stays holds (member s.visibility m) = true) ↔ _
  simp [membersOf, hidentity, hgenerated, or_imp, forall_and]

/-- The literals initialise all fields under all conditions, so they fit the struct exactly if all
of its fields remain. -/
theorem consistent_of_iff {tokens printed : List Tree}
    (hread : Grammar.readItem tokens = .ok (.struct s, printed)) :
    (of s (.ofFields name fields)).Consistent holds ↔
      ∀ f ∈ s.ownFields, stays holds f.attributes = true := by
  have hown := Grammar.ownFields_wasRead hread
  rw [← remaining_eq_iff (Grammar.lacks_visibility hread '#') hown]
  have hnames : (of s (.ofFields name fields)).memberTrees.map declaredName? =
      (identityName :: fields.map Field.ident ++ s.ownFields.map (·.ident)).map some :=
    declaredName?_memberTrees (Grammar.lacks_visibility hread ':') hown
  obtain ⟨body, hbody, hfunctions⟩ := functions_inherentTrees (of s (.ofFields name fields))
  rw [constructors_of] at hfunctions
  have hcode (c : Constructor) :
      (codeFunction (.of c fields (s.ownFields.map (·.ident)))).initialized? holds =
        some ((of s (.ofFields name fields)).memberTrees.map declaredName?) := by
    rw [initialized?_codeFunction, hnames, ← ConstructorCode.idents_of c, List.map_map]
    rfl
  have hinitialized : ∀ f ∈ functions body, f.initialized? holds =
      some ((of s (.ofFields name fields)).memberTrees.map declaredName?) := by
    simp [hfunctions, hcode]
  constructor
  · rintro ⟨other, hother, -, hconsistent⟩
    obtain rfl : body = other := Option.some.inj (hbody.symm.trans hother)
    have hfirst : codeFunction (.of .empty fields (s.ownFields.map (·.ident))) ∈ functions body := by
      simp [hfunctions]
    exact Option.some.inj ((hconsistent _ hfirst).symm.trans (hinitialized _ hfirst))
  · intro hremaining
    refine ⟨body, hbody, by rw [hfunctions]; rfl, fun f hf => ?_⟩
    rw [hinitialized f hf, hremaining]

/-- Whatever fields a struct that was read is expanded to, the constructors fit the struct where
certain conditions hold exactly if no field written by hand is removed from it there. -/
theorem of?_consistent_iff {tokens printed : List Tree}
    (hread : Grammar.readItem tokens = .ok (.struct s, printed))
    (hg : of? s (.ofFields name fields) = .ok g) (holds : String → Bool) :
    g.Consistent holds ↔ ∀ f ∈ s.ownFields, stays holds f.attributes = true := by
  obtain ⟨-, rfl⟩ := of?_eq_ok.mp hg
  exact consistent_of_iff hread

/-- The conditions of the fields written by hand, if the trees are a struct. -/
def readConditions (item : List Tree) : Option (List (List String)) :=
  match Grammar.readItem item with
  | .ok (.struct s, _) => some (s.ownFields.map fun f => conditions f.attributes)
  | _ => none

/-- A struct whose only field has a condition. -/
theorem exists_conditional :
    ∃ item s printed, lex "item" "struct A \x7b #[cfg(x)] b: u8 \x7d" = some item ∧
      Grammar.readItem item = .ok (.struct s, printed) ∧
      of? s (.ofFields s.name []) = .ok (of s (.ofFields s.name [])) ∧
      ∀ holds, (∀ f ∈ s.ownFields, stays holds f.attributes = true) ↔ holds "x" = true := by
  have hread : (lex "item" "struct A \x7b #[cfg(x)] b: u8 \x7d").bind readConditions =
      some [["x"]] := by decide +kernel
  obtain ⟨item, hlex, hread⟩ := Option.bind_eq_some_iff.mp hread
  unfold readConditions at hread
  split at hread
  · rename_i s printed hitem
    have hconditions := Option.some.inj hread
    refine ⟨item, s, printed, hlex, hitem, of?_eq_ok.mpr ⟨by simp, rfl⟩, fun holds => ?_⟩
    have hall : (∀ f ∈ s.ownFields, stays holds f.attributes = true) ↔
        (s.ownFields.map fun f => conditions f.attributes).all (·.all holds) = true := by
      simp [stays]
    simp [hall, hconditions]
  · cases hread

/-- It is consistent where the condition holds, and not where it does not. -/
theorem consistent_conditional :
    ∃ item s printed, ∃ g : Generated,
      lex "item" "struct A \x7b #[cfg(x)] b: u8 \x7d" = some item ∧
      Grammar.readItem item = .ok (.struct s, printed) ∧ of? s (.ofFields s.name []) = .ok g ∧
      ∀ holds, g.Consistent holds ↔ holds "x" = true := by
  obtain ⟨item, s, printed, hlex, hread, hg, hholds⟩ := exists_conditional
  exact ⟨item, s, printed, _, hlex, hread, hg, fun holds =>
    (of?_consistent_iff hread hg holds).trans (hholds holds)⟩

/-- So not every struct has consistent constructors. -/
theorem not_forall_consistent :
    ¬ ∀ (text : String) (item printed : List Tree) (s : StructItem) (name : String)
      (fields : List Field) (g : Generated) (holds : String → Bool),
      lex "item" text = some item → Grammar.readItem item = .ok (.struct s, printed) →
      of? s (.ofFields name fields) = .ok g → g.Consistent holds := by
  intro h
  obtain ⟨item, s, printed, hlex, hread, hg, hholds⟩ := exists_conditional
  have hconsistent := h _ item printed s s.name [] _ (fun _ => false) hlex hread hg
  exact Bool.false_ne_true
    ((hholds _).mp ((consistent_of_iff hread).mp hconsistent))

end Generated

end KeyedModel
