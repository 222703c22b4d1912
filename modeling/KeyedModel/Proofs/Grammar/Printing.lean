import KeyedModel.Proofs.Grammar.Structs

/-!
# Items print something

Every item has a word or a sign of its own that is taken and printed, so an item that is read never
prints nothing: one that is kept as it was written has taken a token, and any other has printed one.

Whether a rule takes and prints a token is a class, and instances find it for a rule from its parts.
-/

namespace KeyedModel.Grammar

open Token (Tree Place)

set_option synthInstance.maxSize 10000000

variable {α β : Type} {meaning : Meaning} {closing : Place} {trees : List Tree}

namespace Rule

/-- The rule takes a token and prints one. -/
class PrintsSome (r : Rule α) : Prop where
  out : ∀ {meaning : Meaning} {closing : Place} {trees : List Tree} {reply : Reply α},
    meaning.GoesForward → r.run meaning closing trees = .ok reply →
      reply.printed ≠ [] ∧ reply.rest.length < trees.length

/-! ### Rules in a row -/

instance (r : Rule α) (f : α → Rule β) [hr : r.PrintsSome] : (r >>= f).PrintsSome where
  out hforward h := by
    obtain ⟨a, b, ha, hb, rfl⟩ := run_bind_eq_ok.mp h
    obtain ⟨hprinted, htaken⟩ := hr.out hforward ha
    have hrest := (run_suffix hforward hb).length_le
    exact ⟨List.append_ne_nil_of_left_ne_nil hprinted _, Nat.lt_of_le_of_lt hrest htaken⟩

theorem printsSome_bind {r : Rule α} {f : α → Rule β} (hf : ∀ a, (f a).PrintsSome) :
    (r >>= f).PrintsSome where
  out hforward h := by
    obtain ⟨a, b, ha, hb, rfl⟩ := run_bind_eq_ok.mp h
    obtain ⟨hprinted, htaken⟩ := (hf a.value).out hforward hb
    have hrest := (run_suffix hforward ha).length_le
    exact ⟨List.append_ne_nil_of_right_ne_nil _ hprinted, Nat.lt_of_lt_of_le htaken hrest⟩

instance (r : Rule α) (f : α → Rule β) [hf : ∀ a, (f a).PrintsSome] : (r >>= f).PrintsSome :=
  printsSome_bind hf

instance (priority := high) {γ : Type} (r : Rule (α × γ)) (f : α × γ → Rule β)
    [hf : ∀ a c, (f (a, c)).PrintsSome] : (r >>= f).PrintsSome :=
  printsSome_bind fun (a, c) => hf a c

instance (c : Prop) [Decidable c] (r s : Rule α) [r.PrintsSome] [s.PrintsSome] :
    (if c then r else s).PrintsSome := by
  split <;> assumption

/-- In a choice the test has taken a token, or the other side does. -/
instance (w : String) (r s : Rule α) [hs : s.PrintsSome] :
    (acceptWord w >>= fun found => if found then r else s).PrintsSome where
  out hforward h := by
    obtain ⟨a, b, ha, hb, rfl⟩ := run_bind_eq_ok.mp h
    rw [acceptWord, run_accept] at ha
    split at ha
    · rename_i taken rest hmatch
      cases ha
      obtain ⟨place, rfl, rfl⟩ := Terminal.match?_word.mp hmatch
      have hrest := (run_suffix hforward hb).length_le
      exact ⟨by simp [Reply.after], Nat.lt_succ_of_le hrest⟩
    · cases ha
      exact hs.out hforward hb

/-! ### Failing and taking -/

instance (cause : Cause) : (.fail cause : Rule α).PrintsSome := ⟨fun _ h => nomatch h⟩

instance (spot : Place) (cause : Cause) : (.failAt spot cause : Rule α).PrintsSome :=
  ⟨fun _ h => nomatch h⟩

instance (known : List Expected) (sights : List Sight) :
    (expectingFrom known sights : Rule α).PrintsSome := by
  induction sights generalizing known <;> unfold expectingFrom <;> infer_instance

instance (sights : List Sight) : (expecting sights : Rule α).PrintsSome := by
  unfold expecting; infer_instance

instance (chars : String) : (op chars).PrintsSome where
  out _ h := by
    obtain ⟨taken, rest, b, hmatch, hb, rfl⟩ := run_take_eq_ok.mp h
    have htaken : taken ≠ [] := matchOp_ne_nil hmatch
    have hrest := Terminal.match?_lt hmatch
    cases hb
    exact ⟨List.append_ne_nil_of_left_ne_nil htaken _, hrest⟩

instance (w : String) : (word w).PrintsSome where
  out _ h := by
    obtain ⟨taken, rest, b, hmatch, hb, rfl⟩ := run_take_eq_ok.mp h
    obtain ⟨place, rfl, rfl⟩ := Terminal.match?_word.mp hmatch
    cases hb
    exact ⟨List.cons_ne_nil _ _, Nat.lt_succ_self _⟩

instance (d : Token.Delimiter) (body : Rule α) : (within d body).PrintsSome where
  out _ h := by
    unfold within Rule.run at h
    split at h
    · split at h
      · split at h
        · cases h
        · cases h
          exact ⟨List.cons_ne_nil _ _, Nat.lt_succ_self _⟩
      · cases h
    · cases h

/-! ### Items that are no structs -/

instance (safe : Bool) : (signature safe).PrintsSome := by unfold signature; infer_instance
instance : functionItem.PrintsSome := by unfold functionItem; infer_instance
instance : foreignCrate.PrintsSome := by unfold foreignCrate; infer_instance
instance (item : Rule Unit) : (itemBlock item).PrintsSome := by unfold itemBlock; infer_instance

instance (start : Place) (inherited : Bool) : (foreignBlock start inherited).PrintsSome := by
  unfold foreignBlock; infer_instance

instance (start : Place) (inherited : Bool) : (foreignItems start inherited).PrintsSome := by
  unfold foreignItems; infer_instance

instance : useItem.PrintsSome := by unfold useItem; infer_instance
instance : staticItem.PrintsSome := by unfold staticItem; infer_instance
instance : constantBody.PrintsSome := by unfold constantBody; infer_instance
instance : moduleItem.PrintsSome := by unfold moduleItem; infer_instance
instance : markedTrait.PrintsSome := by unfold markedTrait; infer_instance
instance : traitOrAlias.PrintsSome := by unfold traitOrAlias; infer_instance

instance (before after : Bool) : (typeDeclaration before after).PrintsSome := by
  unfold typeDeclaration; infer_instance

instance (inherited : Bool) : (implementation inherited).PrintsSome := by
  unfold implementation; infer_instance

instance (start : Place) (inherited : Bool) : (unsafeItem start inherited).PrintsSome := by
  unfold unsafeItem; infer_instance

instance : macroDeclaration.PrintsSome := by unfold macroDeclaration; infer_instance
instance : macroCall.PrintsSome := by unfold macroCall; infer_instance

instance (start : Place) (inherited : Bool) : (otherItem start inherited).PrintsSome := by
  unfold otherItem; infer_instance

/-- What is read behind attributes and is no struct prints something. -/
theorem printed_of_itemBehind {attributes : List Tree} {kind : ItemKind} {name : String}
    {reply : Reply Item} (hforward : meaning.GoesForward)
    (h : (itemBehind attributes).run meaning closing trees = .ok reply)
    (hother : reply.value = .other kind name) :
    reply.printed ≠ [] ∧ reply.rest.length < trees.length := by
  unfold itemBehind at h
  obtain ⟨a, b, ha, hb, rfl⟩ := run_bind_eq_ok.mp h
  cases ha
  obtain ⟨d, e, hd, he, rfl⟩ := run_bind_eq_ok.mp hb
  obtain ⟨v, hv, rfl⟩ := run_held_eq_ok.mp hd
  dsimp only at he
  rw [run_next_bind] at he
  split at he
  · obtain ⟨f, g, -, hg, rfl⟩ := run_bind_eq_ok.mp he
    obtain ⟨k, l, -, hl, rfl⟩ := run_bind_eq_ok.mp hg
    cases hl
    cases hother
  · have hrule (start : Place) : PrintsSome (do
        emit attributes
        emit v.printed
        otherItem start v.printed.isEmpty) := inferInstance
    obtain ⟨hprinted, htaken⟩ := (hrule _).out hforward he
    have hrest := (run_suffix hforward hv).length_le
    exact ⟨by simpa [Reply.after] using hprinted, Nat.lt_of_lt_of_le htaken hrest⟩

end Rule

/-- How an item that was read is printed: a struct from its parts, and one that is kept as it was
written as that. -/
structure PrintedAs (trees : List Tree) (read : Item) (printed : List Tree) : Prop where
  ne_nil : printed ≠ []
  struct {s : StructItem} (hread : read = .struct s) : printed = s.trees
  asWritten (hread : read.isAsWritten = true) : printed = trees

/-- An item that is read prints something. -/
theorem printedAs_of_readItem {read : Item} {printed : List Tree}
    (h : readItem trees = .ok (read, printed)) : PrintedAs trees read printed := by
  cases read with
  | struct s =>
    obtain ⟨-, rfl⟩ := struct_of_readItem h
    refine ⟨?_, fun hread => Item.struct.inj hread ▸ rfl, nofun⟩
    unfold StructItem.trees
    split <;> simp
  | other kind name =>
    have hforward := meaningFor_goesForward trees
    obtain ⟨r, hr, hreply⟩ := Rule.run_writtenIf_eq_ok.mp (readAll_eq_ok.mp h)
    obtain ⟨a, b, ha, hb, rfl⟩ := Rule.run_bind_eq_ok.mp hr
    obtain ⟨c, hc, rfl⟩ := Rule.run_held_eq_ok.mp ha
    obtain ⟨hvalue, hprinted, hrest, -⟩ := Reply.mk.inj hreply
    obtain ⟨hsome, htaken⟩ := Rule.printed_of_itemBehind hforward hb hvalue.symm
    have hne : trees ≠ [] := by
      have hbehind := (Rule.run_suffix hforward hc).length_le
      exact List.ne_nil_of_length_pos (Nat.lt_of_lt_of_le (Nat.zero_lt_of_lt htaken) hbehind)
    rw [← hvalue, ← hrest] at hprinted
    cases hkept : (Item.other kind name).isAsWritten with
    | true =>
      have hwritten : printed = trees := by
        simpa [hkept, writtenBefore] using hprinted
      exact ⟨hwritten ▸ hne, nofun, fun _ => hwritten⟩
    | false =>
      have hother : printed = b.printed := by
        simpa [hkept, Reply.after] using hprinted
      exact ⟨hother ▸ hsome, nofun, fun hread => nomatch hkept.symm.trans hread⟩

end KeyedModel.Grammar
