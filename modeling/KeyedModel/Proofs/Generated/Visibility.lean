import KeyedModel.Proofs.Generated.Outline
import KeyedModel.Proofs.Grammar.Visibilities

/-!
# Reading a struct

An item that is a struct was read behind attributes and a visibility; no other rule for items gives
one. In the visibility there is no punctuation, so it neither ends a field nor declares a name.
-/

namespace KeyedModel.Grammar

open Token (Tree Place)
open Rule
open Generated (Lacks)

set_option synthInstance.maxSize 10000000

variable {α β : Type} {trees : List Tree}

/-! ### Values with a property -/

namespace Rule

variable {p : α → Prop}

/-- Every value that the rule gives has the property. -/
class Yields (p : α → Prop) (r : Rule α) : Prop where
  out : r.Gives p

instance (r : Rule β) (f : β → Rule α) [h : ∀ b, (f b).Yields p] : (r >>= f).Yields p :=
  ⟨gives_bind fun b => (h b).out⟩

instance (priority := high) {γ : Type} (r : Rule (β × γ)) (f : β × γ → Rule α)
    [h : ∀ b c, (f (b, c)).Yields p] : (r >>= f).Yields p :=
  ⟨gives_bind fun (b, c) => (h b c).out⟩

instance (priority := 10001) {γ δ : Type} (r : Rule (β × γ × δ)) (f : β × γ × δ → Rule α)
    [h : ∀ b c d, (f (b, c, d)).Yields p] : (r >>= f).Yields p :=
  ⟨gives_bind fun (b, c, d) => (h b c d).out⟩

instance (c : Prop) [Decidable c] (r s : Rule α) [r.Yields p] [s.Yields p] :
    (if c then r else s).Yields p := by
  split <;> assumption

instance (c : Prop) [Decidable c] (a b : α) [(pure a : Rule α).Yields p]
    [(pure b : Rule α).Yields p] : (pure (if c then a else b) : Rule α).Yields p := by
  split <;> assumption

instance (spot : Place) (cause : Cause) : (.failAt spot cause : Rule α).Yields p := ⟨trivial⟩
instance (cause : Cause) : (.fail cause : Rule α).Yields p := ⟨trivial⟩

instance (known : List Expected) (sights : List Sight) :
    (expectingFrom known sights : Rule α).Yields p := by
  induction sights generalizing known with
  | nil => exact inferInstanceAs (Yields p (.fail _))
  | cons s rest ih => unfold expectingFrom; infer_instance

instance (sights : List Sight) : (expecting sights : Rule α).Yields p := by
  unfold expecting; infer_instance

end Rule

/-! ### Items that are no structs -/

/-- The item is no struct. -/
def Item.Other (i : Item) : Prop := ∀ s, i ≠ .struct s

namespace Rule

/-- The rule gives no struct. -/
abbrev GivesOther (r : Rule Item) : Prop := r.Yields Item.Other

instance (kind : ItemKind) (name : String) : (pure (.other kind name) : Rule Item).GivesOther :=
  ⟨fun _ => Item.noConfusion⟩

instance : functionItem.GivesOther := by unfold functionItem; infer_instance
instance : foreignCrate.GivesOther := by unfold foreignCrate; infer_instance

instance (start : Place) (inherited : Bool) : (foreignBlock start inherited).GivesOther := by
  unfold foreignBlock; infer_instance

instance (start : Place) (inherited : Bool) : (foreignItems start inherited).GivesOther := by
  unfold foreignItems; infer_instance

instance : useItem.GivesOther := by unfold useItem; infer_instance
instance : staticItem.GivesOther := by unfold staticItem; infer_instance
instance : moduleItem.GivesOther := by unfold moduleItem; infer_instance
instance : markedTrait.GivesOther := by unfold markedTrait; infer_instance
instance : traitOrAlias.GivesOther := by unfold traitOrAlias; infer_instance

instance (inherited : Bool) : (implementation inherited).GivesOther := by
  unfold implementation; infer_instance

instance (start : Place) (inherited : Bool) : (unsafeItem start inherited).GivesOther := by
  unfold unsafeItem; infer_instance

instance : macroDeclaration.GivesOther := by unfold macroDeclaration; infer_instance
instance : macroCall.GivesOther := by unfold macroCall; infer_instance

instance (start : Place) (inherited : Bool) : (otherItem start inherited).GivesOther := by
  unfold otherItem; infer_instance

/-! ### Runs that give a struct -/

/-- A struct has the visibility that it was read behind. -/
instance (attributes visibility : List Tree) (name : String) (generics : GenericParams)
    (whereClause : List Tree) (body : StructBody) :
    (pure ⟨attributes, visibility, name, generics, whereClause, body⟩ : Rule StructItem).Yields
      (·.visibility = visibility) := ⟨rfl⟩

instance (attributes visibility : List Tree) :
    (structItem attributes visibility).Yields (·.visibility = visibility) := by
  unfold structItem; infer_instance

end Rule

/-- A struct is read behind attributes and a visibility, and printed from its parts. -/
theorem exists_run_structItem {s : StructItem} {printed : List Tree}
    (h : readItem trees = .ok (.struct s, printed)) :
    ∃ (attributes visibility : Reply Unit) (found : Reply StructItem),
      Rule.attributes.run (meaningFor trees) none trees = .ok attributes ∧
      Rule.visibility.run (meaningFor trees) none attributes.rest = .ok visibility ∧
      (Rule.structItem attributes.printed visibility.printed).run (meaningFor trees) none
        visibility.rest = .ok found ∧
      found.value = s ∧ printed = found.printed ++ s.trees := by
  obtain ⟨r, hr, hreply⟩ := run_writtenIf_eq_ok.mp (readAll_eq_ok.mp h)
  obtain ⟨a, b, ha, hb, rfl⟩ := run_bind_eq_ok.mp hr
  obtain ⟨attributes, hattributes, rfl⟩ := run_held_eq_ok.mp ha
  have hvalue : b.value = .struct s := congrArg Reply.value hreply.symm
  have hprinted := congrArg Reply.printed hreply
  unfold itemBehind at hb
  obtain ⟨c, d, hc, hd, rfl⟩ := run_bind_eq_ok.mp hb
  cases hc
  obtain ⟨e, f, he, hf, rfl⟩ := run_bind_eq_ok.mp hd
  obtain ⟨visibility, hvisibility, rfl⟩ := run_held_eq_ok.mp he
  dsimp only at hf
  rw [run_next_bind] at hf
  split at hf
  · obtain ⟨found, k, hfound, hk, rfl⟩ := run_bind_eq_ok.mp hf
    obtain ⟨l, m, hl, hm, rfl⟩ := run_bind_eq_ok.mp hk
    cases hl
    cases hm
    obtain rfl : found.value = s := Item.struct.inj hvalue
    exact ⟨attributes, visibility, found, hattributes, hvisibility, hfound, rfl,
      by simpa [Reply.after, hvalue, Item.isAsWritten] using hprinted⟩
  · have hother (start : Place) : GivesOther (do
        emit attributes.printed
        emit visibility.printed
        otherItem start visibility.printed.isEmpty) := inferInstance
    exact absurd hvalue ((hother _).out.run_value hf s)

/-! ### Visibilities -/

/-- A struct that is read has a visibility. -/
theorem isVisibility_of_readItem {s : StructItem} {printed : List Tree}
    (h : readItem trees = .ok (.struct s, printed)) : IsVisibility s.visibility := by
  obtain ⟨attributes, visibility, found, -, hvisibility, hfound, rfl, -⟩ := exists_run_structItem h
  have hyields : (structItem attributes.printed visibility.printed).Yields
      (·.visibility = visibility.printed) := inferInstance
  have hprinted : found.value.visibility = visibility.printed := hyields.out.run_value hfound
  rw [hprinted]
  exact prints_visibility.out hvisibility

/-- In a visibility there is no punctuation but between parentheses. -/
theorem IsVisibility.lacks (h : IsVisibility trees) (c : Char) : Lacks c trees := by
  cases h <;> simp [Lacks, Generated.isSign]

/-- The visibility of a struct that is read has no punctuation. -/
theorem lacks_visibility {s : StructItem} {tokens : List Tree}
    (h : readItem trees = .ok (.struct s, tokens)) (c : Char) : Lacks c s.visibility :=
  (isVisibility_of_readItem h).lacks c

end KeyedModel.Grammar
