import KeyedModel.Proofs.Grammar.TidyExpressions
import KeyedModel.Proofs.Grammar.WholeText

/-!
# Items keep trees writable

A struct is printed from its parts, each of which can be written down. Its name and the names of its
fields are words that were read.
-/

namespace KeyedModel.Grammar

open Token (Tree Place Leaf Writable sign word)

set_option synthInstance.maxSize 10000000

/-! ### Names -/

/-- The name can be written down. -/
class IsName (name : String) : Prop where
  stands : (Leaf.ident name).Stands

/-- A name that can be written down. -/
structure SpelledName where
  val : String
  isName : IsName val

instance (name : SpelledName) : IsName name.val := name.isName

instance (name : String) [h : IsName name] : IsWritable [word name] := ⟨.ident h.stands⟩

/-- What is taken for the terminal is a word. -/
class Terminal.TakesWord (t : Terminal) : Prop where
  match_eq : ∀ {trees taken rest : List Tree}, t.match? trees = some (taken, rest) →
    ∃ name place, trees = .ident name place :: rest ∧ taken = [.ident name place]

instance : Terminal.name.TakesWord where
  match_eq h := by
    obtain ⟨name, place, htrees, htaken, -⟩ := Terminal.match?_name.mp h
    exact ⟨name, place, htrees, htaken⟩

instance : Terminal.anyWord.TakesWord := ⟨Terminal.match?_anyWord.mp⟩

instance (c : Prop) [Decidable c] (t u : Terminal) [t.TakesWord] [u.TakesWord] :
    (if c then t else u).TakesWord := by
  split <;> infer_instance

instance (c : Prop) [Decidable c] (t u : Terminal) [t.Whole] [u.Whole] :
    (if c then t else u).Whole := by
  split <;> infer_instance

namespace Rule

instance (t : Terminal) [t.Whole] : (declaredName t).Tidy := by
  unfold declaredName
  refine tidy_bind inferInstance fun taken _ => ?_
  split <;> infer_instance

/-- The name in a declaration is a word that was read. -/
theorem isName_of_declaredName {t : Terminal} [ht : t.TakesWord] {meaning : Meaning}
    {closing : Place} {trees : List Tree} {reply : Reply String} (htrees : Writable trees)
    (h : (declaredName t).run meaning closing trees = .ok reply) : IsName reply.value := by
  obtain ⟨a, b, ha, hb, rfl⟩ := run_bind_eq_ok.mp h
  obtain ⟨c, hc, rfl⟩ := run_held_eq_ok.mp ha
  obtain ⟨taken, rest, d, hmatch, hd, rfl⟩ := run_take_eq_ok.mp hc
  cases hd
  obtain ⟨name, place, rfl, rfl⟩ := ht.match_eq hmatch
  cases hb
  exact ⟨(Token.chained_cons.mp htrees.chained).1⟩

instance (priority := high) {α : Type} [CarriesTrees α] (t : Terminal) [t.Whole] [t.TakesWord]
    (f : String → Rule α) [hf : ∀ name : SpelledName, (f name.val).Tidy] :
    (declaredName t >>= f).Tidy where
  run_ok hmeaning htrees h := by
    obtain ⟨a, b, ha, hb, rfl⟩ := run_bind_eq_ok.mp h
    have hfirst : a.Tidy _ := Tidy.run_ok hmeaning htrees ha
    have hname := isName_of_declaredName htrees ha
    exact hfirst.after ((hf ⟨a.value, hname⟩).run_ok hmeaning (hfirst.writable_rest htrees) hb)

instance (t : Terminal) [t.Whole] [t.TakesWord] : (printedName t).Tidy := by
  unfold printedName; infer_instance

/-! ### Visibility and fields -/

instance : visibility.Tidy := by unfold visibility; infer_instance
instance (unnamed : Bool) : (fieldType unnamed).Tidy := by unfold fieldType; infer_instance

end Rule

section

instance : CarriesTrees OwnField :=
  ⟨fun f => IsWritable f.attributes ∧ IsWritable f.visibility ∧ IsName f.ident ∧ IsWritable f.typed⟩

instance (attributes visibility typed : List Tree) (ident : String) [IsWritable attributes]
    [IsWritable visibility] [IsName ident] [IsWritable typed] :
    IsWritable (⟨attributes, visibility, ident, typed⟩ : OwnField) := ⟨‹_›, ‹_›, ‹_›, ‹_›⟩

instance (f : OwnField) [hf : IsWritable f] : IsWritable f.trees := by
  obtain ⟨hattributes, hvisibility, hident, htyped⟩ := hf.out
  have hname : Writable [word f.ident] := writable _
  exact ⟨(hattributes.out.append hvisibility.out).append (hname.append htyped.out)⟩

end

instance {α : Type} [CarriesTrees α] (found : List (Rule.Listed α)) (f : Rule.Listed α → List Tree)
    [hfound : IsWritable found] [hf : ∀ l : WritableValue (Rule.Listed α), IsWritable (f l.val)] :
    IsWritable (found.flatMap f) :=
  ⟨Rule.writable_flatMap fun l hl => (hf ⟨l, hfound.out l hl⟩).out⟩

namespace Rule

instance : namedField.Tidy := by unfold namedField; infer_instance
instance : namedFields.Tidy := by unfold namedFields; infer_instance
instance : fields.Tidy := by unfold fields; infer_instance
instance : tupleFields.Tidy := by unfold tupleFields; infer_instance
instance : keptWhere.Tidy := by unfold keptWhere; infer_instance

end Rule

/-! ### Structs -/

instance : CarriesTrees StructBody where
  Writable
    | .named fields => IsWritable fields
    | .tuple fields => IsWritable fields
    | .unit => True

instance (fields : List (Rule.Listed OwnField)) [h : IsWritable fields] :
    IsWritable (StructBody.named fields) := ⟨h⟩

instance (fields : List Tree) [h : IsWritable fields] : IsWritable (StructBody.tuple fields) := ⟨h⟩
instance : IsWritable StructBody.unit := ⟨trivial⟩

instance : CarriesTrees StructItem := ⟨fun s => Writable s.trees⟩

instance (attributes visibility whereClause : List Tree) (name : String) (generics : GenericParams)
    (body : StructBody) [IsWritable attributes] [IsWritable visibility] [IsName name]
    [IsWritable generics] [IsWritable whereClause] [hbody : IsWritable body] :
    IsWritable (StructItem.mk attributes visibility name generics whereClause body) := by
  have hstruct : Writable [word "struct"] := .ident (Token.stands_word (by decide))
  have hsemicolon : Writable [sign ';'] := .alone (by decide) (by decide)
  have hheader :
      Writable (StructItem.mk attributes visibility name generics whereClause body).header :=
    (writable (attributes ++ visibility)).append
      (hstruct.append ((writable [word name]).append (writable generics.declared)))
  constructor
  cases body with
  | named fields =>
    have hfields : IsWritable fields := hbody.out
    exact (hheader.append (writable whereClause)).append
      (Writable.group.mpr (writable (fields.flatMap fun f => f.element.trees ++ f.comma)))
  | tuple fields =>
    have hfields : IsWritable fields := hbody.out
    have hgroup : Writable [Token.group .paren fields] := Writable.group.mpr (writable fields)
    exact hheader.append (hgroup.append ((writable whereClause).append hsemicolon))
  | unit => exact (hheader.append (writable whereClause)).append hsemicolon

instance (s : StructItem) [h : IsWritable s] : IsWritable s.trees := ⟨h.out⟩

namespace Rule

instance (attributes visibility : List Tree) [IsWritable attributes] [IsWritable visibility] :
    (structItem attributes visibility).Tidy := by
  unfold structItem; infer_instance

/-! ### Functions -/

instance (words : List String) : (signatureFollows.acceptOne words).Tidy := by
  induction words <;> unfold signatureFollows.acceptOne <;> infer_instance

instance (safety : List String) : (signatureFollows safety).Tidy := by
  unfold signatureFollows; infer_instance

instance : Treeless ParameterForm where

instance : receiver.Tidy := by unfold receiver; infer_instance

/-- The pattern that binds nothing can be written down. -/
instance : IsWritable [Token.word "_", sign ':'] := by
  have hword : Writable [Token.word "_"] := .ident (Token.stands_word (by decide))
  have hcolon : Writable [sign ':'] := .alone (by decide) (by decide)
  exact ⟨hword.append hcolon⟩

instance : parameter.Tidy := by unfold parameter; infer_instance

instance : parameters.Tidy := by
  unfold parameters
  refine tidy_iterate (fun received? _ => ?_) inferInstance
  refine tidy_bind inferInstance fun ended _ => ?_
  split
  · infer_instance
  refine tidy_bind inferInstance fun _ _ => tidy_bind inferInstance fun variadic _ => ?_
  -- what follows a parameter depends on its form, however that was found
  dsimp only
  split
  all_goals
    refine tidy_bind inferInstance fun form _ => ?_
    split <;> infer_instance

instance (safe : Bool) : (signature safe).Tidy := by unfold signature; infer_instance

/-! ### Parts of items -/

instance : Treeless TypeForm where

instance : macroItem.Tidy := by unfold macroItem; infer_instance

instance (whereBefore whereAfter : Bool) : (typeDeclaration whereBefore whereAfter).Tidy := by
  unfold typeDeclaration; infer_instance

instance : constantName.Tidy := by unfold constantName; infer_instance
instance : constantBody.Tidy := by unfold constantBody; infer_instance
instance : bodyOrEnd.Tidy := by unfold bodyOrEnd; infer_instance
instance : traitItem.Tidy := by unfold traitItem; infer_instance
instance : implItem.Tidy := by unfold implItem; infer_instance
instance : foreignStatic.Tidy := by unfold foreignStatic; infer_instance
instance : foreignItem.Tidy := by unfold foreignItem; infer_instance

instance (item : Rule Unit) [item.Tidy] : (itemBlock item).Tidy := by
  unfold itemBlock; infer_instance

/-! ### Items -/

instance : Treeless Item where

instance : variant.Tidy := by unfold variant; infer_instance
instance : functionItem.Tidy := by unfold functionItem; infer_instance
instance : foreignCrate.Tidy := by unfold foreignCrate; infer_instance

instance (start : Place) (inherited : Bool) : (foreignBlock start inherited).Tidy := by
  unfold foreignBlock; infer_instance

instance (start : Place) (inherited : Bool) : (foreignItems start inherited).Tidy := by
  unfold foreignItems; infer_instance

instance (roots : Bool) : (useTree roots).Tidy := by unfold useTree; infer_instance
instance : useItem.Tidy := by unfold useItem; infer_instance
instance : staticItem.Tidy := by unfold staticItem; infer_instance
instance : moduleItem.Tidy := by unfold moduleItem; infer_instance
instance : traitBody.Tidy := by unfold traitBody; infer_instance
instance : markedTrait.Tidy := by unfold markedTrait; infer_instance
instance : traitOrAlias.Tidy := by unfold traitOrAlias; infer_instance

instance (inherited : Bool) : (implementation inherited).Tidy := by
  unfold implementation; infer_instance

instance (start : Place) (inherited : Bool) : (unsafeItem start inherited).Tidy := by
  unfold unsafeItem; infer_instance

instance : macroDeclaration.Tidy := by unfold macroDeclaration; infer_instance
instance : macroCall.Tidy := by unfold macroCall; infer_instance

instance (start : Place) (inherited : Bool) : (otherItem start inherited).Tidy := by
  unfold otherItem; infer_instance

instance (attributes : List Tree) [IsWritable attributes] : (itemBehind attributes).Tidy := by
  unfold itemBehind; infer_instance

instance : item.Tidy := by unfold item; infer_instance

/-! ### Statements -/

instance : Treeless CallSort where
instance : Treeless StatementEnd where

instance : callFollows.Tidy := by unfold callFollows; infer_instance
instance : startsStatic.Tidy := by unfold startsStatic; infer_instance
instance : startsConst.Tidy := by unfold startsConst; infer_instance
instance : startsAsyncItem.Tidy := by unfold startsAsyncItem; infer_instance
instance : startsItem.Tidy := by unfold startsItem; infer_instance
instance : binding.Tidy := by unfold binding; infer_instance
instance : statement.Tidy := by unfold statement; infer_instance
instance : statements.Tidy := by unfold statements; infer_instance

end Rule

/-! ### Whole texts -/

theorem tidy_rules (n : Nonterminal) : (rules n).Tidy := by
  cases n <;> unfold rules <;> infer_instance

/-- Phrases keep trees writable, however deeply they are nested. -/
theorem meaningOf_tidy (depth : Nat) : (meaningOf rules depth).Tidy := by
  refine ⟨?_, meaningOf_goesForward rules depth, meaningOf_advances depth⟩
  induction depth with
  | zero =>
    intro n closing trees reply _ h
    cases h
  | succ depth ih =>
    intro n closing trees reply htrees h
    have htidy : (meaningOf rules depth).Tidy :=
      ⟨ih, meaningOf_goesForward rules depth, meaningOf_advances depth⟩
    exact (tidy_rules n).run_ok htidy htrees h

/-- What is printed for a text that is read completely can be written down if the text can. -/
theorem writable_of_readAll {α : Type} [CarriesTrees α] {rule : Rule α} [rule.Tidy]
    {trees printed : List Tree} {value : α} (htrees : Writable trees)
    (h : readAll rule trees = .ok (value, printed)) : Writable printed :=
  (Rule.Tidy.run_ok (meaningOf_tidy _) htrees (readAll_eq_ok.mp h)).printed

/-- An item can be written down as it is printed if it could be as it was read. -/
theorem writable_of_readItem {trees printed : List Tree} {item : Item} (htrees : Writable trees)
    (h : readItem trees = .ok (item, printed)) : Writable printed :=
  writable_of_readAll htrees h

end KeyedModel.Grammar
