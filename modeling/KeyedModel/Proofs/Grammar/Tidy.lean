import KeyedModel.Proofs.Grammar.Advancing
import KeyedModel.Proofs.Token.Writable

/-!
# Rules that keep trees writable

A rule reads trees that can be written down. What it prints, and every tree in the value that it
gives, must be such again; and what it takes must not end in a mark that waits for the next tree,
since the trees may be printed as they were written.

This is a property of single steps that rules are put together from, and so of all rules. It is a
class, and instances find it for a rule from its parts. A value reaches the next step together with
the fact that its trees can be written down.
-/

namespace KeyedModel.Grammar

open Token (Tree Place Span Delimiter Writable EndsFree Chained)

variable {α β σ : Type} {trees : List Tree}

/-! ### Values -/

/-- Says of the values of a type that the trees in them can be written down. -/
class CarriesTrees (α : Type) where
  Writable : α → Prop

/-- The trees in the value can be written down. -/
class IsWritable [CarriesTrees α] (a : α) : Prop where
  out : CarriesTrees.Writable a

/-- A value with trees that can be written down. -/
structure WritableValue (α : Type) [CarriesTrees α] where
  val : α
  writable : IsWritable val

instance [CarriesTrees α] (a : WritableValue α) : IsWritable a.val := a.writable

/-- Nothing is asked of the values of the type, since there are no trees in them. -/
class Treeless (α : Type) : Prop

instance [Treeless α] : CarriesTrees α := ⟨fun _ => True⟩
instance [Treeless α] (a : α) : IsWritable a := ⟨trivial⟩

instance : Treeless Unit where
instance : Treeless Bool where
instance : Treeless Nat where
instance : Treeless String where
instance : Treeless Span where
instance : Treeless Delimiter where
instance : Treeless Shape where
instance : Treeless Precedence where

instance : CarriesTrees (List Tree) := ⟨Writable⟩
instance [CarriesTrees α] : CarriesTrees (Option α) := ⟨fun a? => ∀ a ∈ a?, IsWritable a⟩
instance [CarriesTrees α] [CarriesTrees β] : CarriesTrees (α × β) :=
  ⟨fun v => IsWritable v.1 ∧ IsWritable v.2⟩
instance [CarriesTrees α] [CarriesTrees β] : CarriesTrees (α ⊕ β) :=
  ⟨fun v => v.elim IsWritable IsWritable⟩

instance [Treeless α] (a? : Option α) : IsWritable a? := ⟨fun _ _ => inferInstance⟩

instance [Treeless α] (a? : Option (Option α)) : IsWritable a? := ⟨fun _ _ => inferInstance⟩

instance [Treeless α] [Treeless β] (v : α × β) : IsWritable v := ⟨inferInstance, inferInstance⟩

theorem writable (trees : List Tree) [h : IsWritable trees] : Writable trees := h.out

instance : IsWritable ([] : List Tree) := ⟨.nil⟩

instance (a b : List Tree) [IsWritable a] [IsWritable b] : IsWritable (a ++ b) :=
  ⟨(writable a).append (writable b)⟩

instance (c : Prop) [Decidable c] [CarriesTrees α] (a b : α) [IsWritable a] [IsWritable b] :
    IsWritable (if c then a else b) := by
  split <;> infer_instance

section

variable [CarriesTrees α] [CarriesTrees β] (a : α) (b : β)

instance (a? : Option α) [ha? : IsWritable a?] [IsWritable a] : IsWritable (a?.getD a) := by
  cases a? with
  | none => assumption
  | some found => exact ha?.out found rfl

instance : IsWritable (none : Option α) := ⟨by simp [CarriesTrees.Writable]⟩
instance [IsWritable a] : IsWritable (some a) := ⟨by simpa [CarriesTrees.Writable]⟩
instance [IsWritable a] [IsWritable b] : IsWritable (a, b) := ⟨‹_›, ‹_›⟩
instance (v : α × β) [h : IsWritable v] : IsWritable v.1 := h.out.1
instance (v : α × β) [h : IsWritable v] : IsWritable v.2 := h.out.2
instance [h : IsWritable a] : IsWritable (.inl a : α ⊕ β) := ⟨h⟩
instance [h : IsWritable b] : IsWritable (.inr b : α ⊕ β) := ⟨h⟩

end

/-! ### Replies -/

/-- What is printed and given can be written down, and nothing that was taken waits for what is
left. -/
structure Reply.Tidy [CarriesTrees α] (reply : Reply α) (trees : List Tree) : Prop where
  value : IsWritable reply.value
  printed : Writable reply.printed
  taken : ∃ taken, trees = taken ++ reply.rest ∧ EndsFree taken

namespace Reply.Tidy

variable [CarriesTrees α] [CarriesTrees β] {reply : Reply α}

theorem writable_rest (h : reply.Tidy trees) (htrees : Writable trees) : Writable reply.rest := by
  obtain ⟨taken, rfl, -⟩ := h.taken
  exact htrees.of_suffix (List.suffix_append _ _)

/-- What was taken can be printed as it was written. -/
theorem written (h : reply.Tidy trees) (htrees : Writable trees) :
    Writable (writtenBefore trees reply.rest) := by
  obtain ⟨taken, rfl, hends⟩ := h.taken
  have hwritten : writtenBefore (taken ++ reply.rest) reply.rest = taken := by
    simp [writtenBefore]
  rw [hwritten]
  exact htrees.of_prefix hends

/-- Where nothing is taken there is nothing to ask. -/
theorem of_silent (value : α) [IsWritable value] (stray : Option SyntaxError) :
    (⟨value, [], trees, stray⟩ : Reply α).Tidy trees :=
  ⟨inferInstance, .nil, [], rfl, .nil⟩

theorem after {first : Reply α} {second : Reply β} (hfirst : first.Tidy trees)
    (hsecond : second.Tidy first.rest) : (first.after second).Tidy trees := by
  obtain ⟨taken, htaken, hends⟩ := hfirst.taken
  obtain ⟨more, hmore, hmoreEnds⟩ := hsecond.taken
  refine ⟨hsecond.value, hfirst.printed.append hsecond.printed, taken ++ more, ?_, ?_⟩
  · rw [htaken, hmore, List.append_assoc]
    rfl
  · exact hends.append hmoreEnds

end Reply.Tidy

/-! ### Terminals -/

/-- What is taken for the terminal can be written down and waits for nothing. -/
class Terminal.Whole (t : Terminal) : Prop where
  match_ok : ∀ {trees taken rest : List Tree}, Writable trees →
    t.match? trees = some (taken, rest) →
      Writable taken ∧ ∃ front, trees = front ++ rest ∧ EndsFree front

/-- What directly follows the operator makes neither a comment nor a lifetime of it. -/
class ClosedOp (chars : String) : Prop where
  last : ∀ c ∈ chars.toList.getLast?, c ≠ '/' ∧ c ≠ '\''

instance : ClosedOp "::" := ⟨by decide⟩
instance : ClosedOp ":" := ⟨by decide⟩
instance : ClosedOp "," := ⟨by decide⟩
instance : ClosedOp ";" := ⟨by decide⟩
instance : ClosedOp "<" := ⟨by decide⟩
instance : ClosedOp ">" := ⟨by decide⟩
instance : ClosedOp "=" := ⟨by decide⟩
instance : ClosedOp "=>" := ⟨by decide⟩
instance : ClosedOp "->" := ⟨by decide⟩
instance : ClosedOp "+" := ⟨by decide⟩
instance : ClosedOp "-" := ⟨by decide⟩
instance : ClosedOp "*" := ⟨by decide⟩
instance : ClosedOp "&" := ⟨by decide⟩
instance : ClosedOp "|" := ⟨by decide⟩
instance : ClosedOp "!" := ⟨by decide⟩
instance : ClosedOp "?" := ⟨by decide⟩
instance : ClosedOp "@" := ⟨by decide⟩
instance : ClosedOp "#" := ⟨by decide⟩
instance : ClosedOp "." := ⟨by decide⟩
instance : ClosedOp ".." := ⟨by decide⟩
instance : ClosedOp "..=" := ⟨by decide⟩
instance : ClosedOp "..." := ⟨by decide⟩

namespace Terminal

/-- An operator is taken as it was written, except that its last character stands alone. -/
theorem matchOp_eq_some {chars : List Char} {taken rest : List Tree}
    (h : matchOp chars trees = some (taken, rest)) :
    ∃ front c spacing place, chars.getLast? = some c ∧
      trees = front ++ .punct c spacing place :: rest ∧
      taken = front ++ [.punct c .alone place] := by
  fun_induction matchOp chars trees generalizing taken rest with
  | case1 c d spacing place tail heq =>
    obtain ⟨rfl, rfl⟩ := Prod.mk.inj (Option.some.inj h)
    exact ⟨[], d, spacing, place, by simpa using heq, rfl, rfl⟩
  | case2 => cases h
  | case3 c more d place tail hmore heq ih =>
    obtain ⟨r, hr, heq⟩ := Option.map_eq_some_iff.mp h
    obtain ⟨rfl, rfl⟩ := Prod.mk.inj heq
    obtain ⟨front, e, spacing, spot, hlast, rfl, htaken⟩ := ih hr
    refine ⟨.punct d .joint place :: front, e, spacing, spot, ?_, rfl, by rw [htaken]; rfl⟩
    rw [List.getLast?_cons, hlast]
    rfl
  | case4 => cases h
  | case5 => cases h

/-- A punctuation character fits in whatever way it is spaced. -/
theorem fits_punct {t : Tree} {c : Char} {spacing spacing' : Token.Spacing} {place place' : Place}
    (h : t.Fits (.punct c spacing place)) : t.Fits (.punct c spacing' place') := by
  unfold Tree.Fits at h ⊢
  split at h
  · exact absurd rfl (h.not_punct _ _ _)
  · intro d _ _ heq
    cases heq
    exact h c spacing place rfl
  · trivial

/-- What is taken for an operator can be written down, and only a slash at its end waits for what
follows. -/
theorem match?_op {chars : String} {trees taken rest : List Tree} (htrees : Writable trees)
    (hquote : ∀ c ∈ chars.toList.getLast?, c ≠ '\'')
    (h : (op chars).match? trees = some (taken, rest)) :
    Writable taken ∧ ∃ front, trees = front ++ rest ∧
      ((∀ c ∈ chars.toList.getLast?, c ≠ '/') → EndsFree front) := by
  obtain ⟨front, c, spacing, place, hlast, rfl, rfl⟩ := matchOp_eq_some h
  obtain ⟨hfront, hrest, hfits⟩ := Token.chained_append.mp htrees.chained
  have hspelled : (Tree.punct c spacing place).Spelled := (Token.chained_cons.mp hrest).1
  have hsign : Writable [Tree.punct c .alone place] := .alone hspelled.1 (hquote c hlast)
  refine ⟨⟨Token.chained_append.mpr ⟨hfront, hsign.chained, fun t ht u hu => ?_⟩, ?_⟩,
    front ++ [.punct c spacing place], by simp, fun hslash => ?_⟩
  · obtain rfl : Tree.punct c .alone place = u := by simpa using hu
    exact fits_punct (hfits t ht _ rfl)
  · intro t ht
    exact hsign.endsFree t (by simpa using ht)
  · intro t ht
    obtain rfl : Tree.punct c spacing place = t := by simpa using ht
    exact ⟨hquote c hlast, fun heq => absurd heq (hslash c hlast)⟩

instance (chars : String) [hclosed : ClosedOp chars] : (op chars).Whole where
  match_ok htrees h := by
    obtain ⟨htaken, front, heq, hends⟩ := match?_op htrees (fun c hc => (hclosed.last c hc).2) h
    exact ⟨htaken, front, heq, hends fun c hc => (hclosed.last c hc).1⟩

/-- One tree is taken as it is. -/
theorem whole_of_singleton {t : Tree} {rest : List Tree} (htrees : Writable (t :: rest))
    (hfree : t.Free) : Writable [t] ∧ ∃ front, t :: rest = front ++ rest ∧ EndsFree front :=
  have hfirst : Writable [t] := htrees.of_prefix (by simpa [EndsFree] using hfree)
  ⟨hfirst, [t], rfl, hfirst.endsFree⟩

instance (w : String) : (word w).Whole where
  match_ok htrees h := by
    obtain ⟨place, rfl, rfl⟩ := match?_word.mp h
    exact whole_of_singleton htrees trivial

instance : anyWord.Whole where
  match_ok htrees h := by
    obtain ⟨w, place, rfl, rfl⟩ := match?_anyWord.mp h
    exact whole_of_singleton htrees trivial

instance : name.Whole where
  match_ok htrees h := by
    obtain ⟨w, place, rfl, rfl, -⟩ := match?_name.mp h
    exact whole_of_singleton htrees trivial

instance : lifetime.Whole where
  match_ok htrees h := by
    obtain ⟨mark, w, place, rfl, rfl⟩ := match?_lifetime.mp h
    have hends : EndsFree [Tree.punct '\'' .joint mark, Tree.ident w place] := by
      simp [EndsFree, Tree.Free]
    have htaken : Writable [Tree.punct '\'' .joint mark, Tree.ident w place] :=
      htrees.of_prefix hends
    exact ⟨htaken, _, rfl, hends⟩

/-- A literal is taken as it is; the sign of a negative number stands alone. -/
theorem matchLiteral_whole (admits : Token.LiteralKind → Bool) {trees taken rest : List Tree}
    (htrees : Writable trees) (h : matchLiteral admits trees = some (taken, rest)) :
    Writable taken ∧ ∃ front, trees = front ++ rest ∧ EndsFree front := by
  unfold matchLiteral at h
  split at h
  · split at h
    · obtain ⟨rfl, rfl⟩ := Prod.mk.inj (Option.some.inj h)
      exact whole_of_singleton htrees trivial
    · cases h
  · split at h
    · obtain ⟨rfl, rfl⟩ := Prod.mk.inj (Option.some.inj h)
      exact whole_of_singleton htrees trivial
    · cases h
  · dsimp only at h
    split at h
    · rename_i spacing place text spot _ _
      obtain ⟨rfl, rfl⟩ := Prod.mk.inj (Option.some.inj h)
      have hsign : Writable [Tree.punct '-' .alone place] := .alone (by decide) (by decide)
      obtain ⟨hnumber, -⟩ := whole_of_singleton (htrees.of_suffix (List.suffix_cons _ _)) trivial
      exact ⟨hsign.append hnumber, [_, _], rfl, by simp [EndsFree, Tree.Free]⟩
    · cases h
  · cases h

instance : literal.Whole := ⟨matchLiteral_whole fun _ => true⟩
instance : textLiteral.Whole := ⟨matchLiteral_whole (· == .text)⟩
instance : intLiteral.Whole := ⟨matchLiteral_whole (· == .int)⟩
instance : floatLiteral.Whole := ⟨matchLiteral_whole (· == .float)⟩

end Terminal

/-- Every phrase keeps trees writable, and operands take a token. -/
structure Meaning.Tidy (meaning : Meaning) : Prop where
  reply : ∀ n closing trees reply, Writable trees → meaning n closing trees = .ok reply →
    reply.Tidy trees
  goesForward : meaning.GoesForward
  advances : meaning.Advances

namespace Rule

/-- The rule keeps trees writable if the phrases that it calls do. -/
class Tidy [CarriesTrees α] (r : Rule α) : Prop where
  run_ok : ∀ {meaning : Meaning} {closing : Place} {trees : List Tree} {reply : Reply α},
    meaning.Tidy → Writable trees → r.run meaning closing trees = .ok reply → reply.Tidy trees

section Steps

variable [CarriesTrees α] [CarriesTrees β] [CarriesTrees σ]

/-- One rule after another. -/
theorem tidy_bind {r : Rule α} {f : α → Rule β} (hr : r.Tidy)
    (hf : ∀ a, IsWritable a → (f a).Tidy) : (r >>= f).Tidy where
  run_ok hmeaning htrees h := by
    obtain ⟨a, b, ha, hb, rfl⟩ := run_bind_eq_ok.mp h
    have hfirst := hr.run_ok hmeaning htrees ha
    exact hfirst.after ((hf a.value hfirst.value).run_ok hmeaning (hfirst.writable_rest htrees) hb)

instance {r : Rule α} {f : α → Rule β} [hr : r.Tidy] [hf : ∀ a : WritableValue α, (f a.val).Tidy] :
    (r >>= f).Tidy :=
  tidy_bind hr fun a ha => hf ⟨a, ha⟩

/-- A rule whose value is taken apart into two. -/
instance (priority := high) {r : Rule (α × β)} {f : α × β → Rule σ} [hr : r.Tidy]
    [hf : ∀ (a : WritableValue α) (b : WritableValue β), (f (a.val, b.val)).Tidy] :
    (r >>= f).Tidy :=
  tidy_bind hr fun (a, b) h => hf ⟨a, h.out.1⟩ ⟨b, h.out.2⟩

/-- A rule whose value is taken apart into three. -/
instance (priority := 10001) {γ : Type} [CarriesTrees γ] {r : Rule (α × β × γ)}
    {f : α × β × γ → Rule σ} [hr : r.Tidy]
    [hf : ∀ (a : WritableValue α) (b : WritableValue β) (c : WritableValue γ),
      (f (a.val, b.val, c.val)).Tidy] :
    (r >>= f).Tidy :=
  tidy_bind hr fun (a, b, c) h => hf ⟨a, h.out.1⟩ ⟨b, h.out.2.out.1⟩ ⟨c, h.out.2.out.2⟩

/-- A rule whose value may be missing. -/
instance (priority := high) {r : Rule (Option α)} {f : Option α → Rule β} [hr : r.Tidy]
    [hsome : ∀ a : WritableValue α, (f (some a.val)).Tidy] [hnone : (f none).Tidy] :
    (r >>= f).Tidy :=
  tidy_bind hr fun a? h =>
    match a? with
    | some a => hsome ⟨a, h.out a rfl⟩
    | none => hnone

instance {c : Prop} [Decidable c] {r s : Rule α} [r.Tidy] [s.Tidy] :
    (if c then r else s).Tidy := by
  split <;> infer_instance

instance (a : α) [IsWritable a] : (.done a : Rule α).Tidy where
  run_ok _ _ h := by
    cases h
    exact .of_silent a none

instance (a : α) [IsWritable a] : (pure a : Rule α).Tidy := inferInstanceAs (Tidy (.done a))

instance (cause : Cause) : (.fail cause : Rule α).Tidy where
  run_ok _ _ h := by cases h

instance (spot : Place) (cause : Cause) : (.failAt spot cause : Rule α).Tidy where
  run_ok _ _ h := by cases h

instance (sight : Sight) (after : Nat) : (.sees sight after .done : Rule Bool).Tidy where
  run_ok _ _ h := by
    cases h
    exact .of_silent _ none

instance : here.Tidy where
  run_ok _ _ h := by
    cases h
    exact .of_silent _ none

instance : (.remaining .done : Rule Nat).Tidy where
  run_ok _ _ h := by
    cases h
    exact .of_silent _ none

instance (sight : Sight) : (next sight).Tidy := inferInstanceAs (Tidy (.sees sight 0 .done))
instance (sight : Sight) : (second sight).Tidy := inferInstanceAs (Tidy (.sees sight 1 .done))
instance (sight : Sight) : (third sight).Tidy := inferInstanceAs (Tidy (.sees sight 2 .done))

instance (n : Nonterminal) : (phrase n).Tidy where
  run_ok hmeaning htrees h := by
    simp only [phrase, Rule.run] at h
    split at h
    · cases h
    · rename_i r hr
      cases h
      exact (hmeaning.reply _ _ _ _ htrees hr).after (.of_silent _ _)

/-- Reading inside of a group keeps what is left over in it. -/
instance (d : Delimiter) (body : Rule α) [hbody : body.Tidy] : (within d body).Tidy where
  run_ok hmeaning htrees h := by
    unfold within Rule.run at h
    split at h
    · split at h
      · split at h
        · cases h
        · rename_i inner _ _ _ _ r hr
          cases h
          have hinner : Writable inner := by
            obtain ⟨⟨hchained, hends⟩, -⟩ := Token.chained_cons.mp htrees.chained
            exact ⟨hchained, hends⟩
          have htidy := hbody.run_ok hmeaning hinner hr
          refine ⟨htidy.value, ?_, [_], rfl, ?_⟩
          · simpa using Writable.group.mpr htidy.printed
          · simp [EndsFree, Tree.Free]
      · cases h
    · cases h

/-- What is kept back can be printed later. -/
instance (body : Rule α) [hbody : body.Tidy] : (held body).Tidy where
  run_ok hmeaning htrees h := by
    obtain ⟨a, ha, rfl⟩ := run_held_eq_ok.mp h
    have htidy := hbody.run_ok hmeaning htrees ha
    exact ⟨⟨htidy.value, ⟨htidy.printed⟩⟩, .nil, htidy.taken⟩

instance (body : Rule α) [body.Tidy] : (silently body).Tidy :=
  inferInstanceAs (Tidy (held body >>= fun (a, _) => pure a))

/-- What is kept as it was written can be printed as it was. -/
instance (keep : α → Bool) (body : Rule α) [hbody : body.Tidy] : (writtenIf keep body).Tidy where
  run_ok hmeaning htrees h := by
    simp only [writtenIf, Rule.run] at h
    split at h
    · cases h
    · rename_i r hr
      cases h
      have htidy := hbody.run_ok hmeaning htrees hr
      refine ⟨htidy.value, ?_, htidy.taken⟩
      split
      · simpa using htidy.written htrees
      · simpa using htidy.printed

instance (body : Rule α) [body.Tidy] : (written body).Tidy :=
  inferInstanceAs (Tidy (writtenIf _ body))

instance (trees : List Tree) [IsWritable trees] : (emit trees).Tidy where
  run_ok _ _ h := by
    cases h
    exact ⟨inferInstance, by simpa using writable trees, [], rfl, .nil⟩

instance (body : Rule α) [hbody : body.Tidy] : (.attempt body .done : Rule (Option α)).Tidy where
  run_ok hmeaning htrees h := by
    simp only [Rule.run] at h
    split at h
    · cases h
      exact .of_silent none none
    · rename_i r hr
      cases h
      have htidy := hbody.run_ok hmeaning htrees hr
      have hvalue := htidy.value
      exact htidy.after (.of_silent (some r.value) none)

instance (body : Rule α) [hbody : body.Tidy] : (.foresee body .done : Rule (Option α)).Tidy where
  run_ok hmeaning htrees h := by
    simp only [Rule.run] at h
    split at h
    · cases h
      exact .of_silent none none
    · rename_i r hr
      cases h
      have hvalue := (hbody.run_ok hmeaning htrees hr).value
      exact .of_silent (some r.value) none

end Steps

instance (n : Nonterminal) : (phrase_ n).Tidy :=
  inferInstanceAs (Tidy (phrase n >>= fun _ => pure ()))

instance : anyGroup.Tidy where
  run_ok _ htrees h := by
    unfold anyGroup Rule.run at h
    split at h
    · rename_i d opening inner closed rest
      cases h
      have hgroup : Writable [Tree.group d opening inner closed] :=
        htrees.of_prefix (by simp [EndsFree, Tree.Free])
      exact ⟨inferInstance, hgroup, [_], rfl, hgroup.endsFree⟩
    · cases h

instance : everything.Tidy where
  run_ok _ htrees h := by
    cases h
    exact ⟨inferInstance, by simpa using htrees, _, by simp, htrees.endsFree⟩

/-! ### Taking terminals -/

instance (t : Terminal) [ht : t.Whole] : (token t).Tidy where
  run_ok _ htrees h := by
    obtain ⟨taken, rest, b, hmatch, hb, rfl⟩ := run_take_eq_ok.mp h
    cases hb
    obtain ⟨htaken, hfront⟩ := ht.match_ok htrees hmatch
    exact ⟨⟨htaken⟩, by simpa using htaken, hfront⟩

instance [CarriesTrees α] (t : Terminal) (f : List Tree → Rule α) [t.Whole]
    [∀ taken : WritableValue (List Tree), (f taken.val).Tidy] : (.take t f : Rule α).Tidy :=
  inferInstanceAs (Tidy (token t >>= f))

instance (chars : String) [ClosedOp chars] : (op chars).Tidy := by unfold op; infer_instance
instance (w : String) : (word w).Tidy := by unfold word; infer_instance
instance : name.Tidy := by unfold name; infer_instance
instance : anyWord.Tidy := by unfold anyWord; infer_instance
instance : lifetime.Tidy := by unfold lifetime; infer_instance
instance : literal.Tidy := by unfold literal; infer_instance
instance (t : Terminal) [t.Whole] : (accept t).Tidy := by unfold accept; infer_instance
instance (w : String) : (acceptWord w).Tidy := by unfold acceptWord; infer_instance

instance (chars : String) [ClosedOp chars] : (acceptOp chars).Tidy := by
  unfold acceptOp; infer_instance

instance : (acceptAny []).Tidy := by unfold acceptAny; infer_instance

instance (chars : String) (rest : List String) [ClosedOp chars] [(acceptAny rest).Tidy] :
    (acceptAny (chars :: rest)).Tidy := by
  unfold acceptAny; infer_instance

/-- Behind an operator that ends in a slash a token must be taken. -/
theorem tidy_op_bind [CarriesTrees α] {chars : String} {r : Rule α}
    (hquote : ∀ c ∈ chars.toList.getLast?, c ≠ '\'') (hr : r.Tidy) (hadvances : r.Advances) :
    (op chars >>= fun _ => r).Tidy where
  run_ok hmeaning htrees h := by
    obtain ⟨a, b, ha, hb, rfl⟩ := run_bind_eq_ok.mp h
    obtain ⟨taken, rest, c, hmatch, hc, rfl⟩ := run_take_eq_ok.mp ha
    cases hc
    dsimp only at hb
    obtain ⟨htaken, front, rfl, -⟩ := Terminal.match?_op htrees hquote hmatch
    have htidy := hr.run_ok hmeaning (htrees.of_suffix (List.suffix_append _ _)) hb
    have hlt := hadvances.run_lt hmeaning.goesForward hmeaning.advances hb trivial
    obtain ⟨more, hmore, hends⟩ := htidy.taken
    refine ⟨htidy.value, ?_, front ++ more, ?_, fun t ht => ?_⟩
    · simpa [Reply.after] using htaken.append htidy.printed
    · simpa [Reply.after] using hmore
    · cases more with
      | nil =>
        rw [hmore] at hlt
        exact absurd hlt (Nat.lt_irrefl _)
      | cons u more =>
        have hlast : (front ++ u :: more).getLast? = (u :: more).getLast? := by
          simp [List.getLast?_append, List.getLast?_cons]
        exact hends t (hlast ▸ ht)

/-! ### Looking ahead and failing -/

instance (sight other : Sight) : (nextBut sight other).Tidy := by unfold nextBut; infer_instance

instance (sights : List Sight) : (nextAny sights).Tidy := by
  induction sights <;> unfold nextAny <;> infer_instance

instance [CarriesTrees α] (known : List Expected) (sights : List Sight) :
    (expectingFrom known sights : Rule α).Tidy := by
  induction sights generalizing known <;> unfold expectingFrom <;> infer_instance

instance [CarriesTrees α] (sights : List Sight) : (expecting sights : Rule α).Tidy := by
  unfold expecting; infer_instance

instance [CarriesTrees α] (text : String) : (expectingPhrase text : Rule α).Tidy := by
  unfold expectingPhrase; infer_instance

/-! ### Repetition -/

instance (limit : Nat) (body : Rule Bool) [body.Tidy] : (repeatUpTo limit body).Tidy := by
  induction limit <;> unfold repeatUpTo <;> infer_instance

instance (body : Rule Bool) [body.Tidy] : (repeatWhile body).Tidy :=
  inferInstanceAs (Tidy (.remaining .done >>= fun n => repeatUpTo (n + 1) body))

theorem tidy_iterateUpTo [CarriesTrees α] [CarriesTrees σ] {body : σ → Rule (σ ⊕ α)}
    (hbody : ∀ state, IsWritable state → (body state).Tidy) (limit : Nat) (state : σ)
    (hstate : IsWritable state) : (iterateUpTo limit body state).Tidy := by
  induction limit generalizing state with
  | zero => unfold iterateUpTo; infer_instance
  | succ limit ih =>
    refine tidy_bind (hbody state hstate) fun next hnext => ?_
    cases next with
    | inl state => exact ih state hnext.out
    | inr result =>
      have hresult : IsWritable result := hnext.out
      infer_instance

/-- A repetition whose rounds keep trees writable. -/
theorem tidy_iterate [CarriesTrees α] [CarriesTrees σ] {body : σ → Rule (σ ⊕ α)} {state : σ}
    (hbody : ∀ state, IsWritable state → (body state).Tidy) (hstate : IsWritable state) :
    (iterate body state).Tidy := by
  have hrounds (limit : Nat) : (iterateUpTo limit body state).Tidy :=
    tidy_iterateUpTo hbody limit state hstate
  exact inferInstanceAs (Tidy (.remaining .done >>= fun n => iterateUpTo (n + 1) body state))

instance [CarriesTrees α] [CarriesTrees σ] (body : σ → Rule (σ ⊕ α)) (state : σ)
    [hstate : IsWritable state] [hbody : ∀ state : WritableValue σ, (body state.val).Tidy] :
    (iterate body state).Tidy :=
  tidy_iterate (fun state hstate => hbody ⟨state, hstate⟩) hstate

/-! ### Lists -/

instance [CarriesTrees α] : CarriesTrees (Listed α) :=
  ⟨fun l => IsWritable l.element ∧ IsWritable l.comma⟩

instance [CarriesTrees α] : CarriesTrees (List (Listed α)) := ⟨fun ls => ∀ l ∈ ls, IsWritable l⟩

instance [CarriesTrees α] (element : α) (comma : List Tree) [IsWritable element]
    [IsWritable comma] : IsWritable (⟨element, comma⟩ : Listed α) := ⟨‹_›, ‹_›⟩

instance [CarriesTrees α] (l : Listed α) [h : IsWritable l] : IsWritable l.element := h.out.1
instance [CarriesTrees α] (l : Listed α) [h : IsWritable l] : IsWritable l.comma := h.out.2

instance [CarriesTrees α] : IsWritable ([] : List (Listed α)) := ⟨by simp [CarriesTrees.Writable]⟩

instance [CarriesTrees α] (found : List (Listed α)) (last : Listed α) [hfound : IsWritable found]
    [hlast : IsWritable last] : IsWritable (found ++ [last]) where
  out l hl := by
    rcases List.mem_append.mp hl with hl | hl
    · exact hfound.out l hl
    · obtain rfl := List.mem_singleton.mp hl
      exact hlast

instance [CarriesTrees α] [CarriesTrees β] (found : List (Listed α)) (f : Listed α → Listed β)
    [hfound : IsWritable found] [hf : ∀ l : WritableValue (Listed α), IsWritable (f l.val)] :
    IsWritable (found.map f) where
  out l hl := by
    obtain ⟨found, hmem, rfl⟩ := List.mem_map.mp hl
    exact hf ⟨found, hfound.out found hmem⟩

set_option synthInstance.maxSize 1000 in
instance [CarriesTrees α] (stop : Sight) (element : Rule α) [element.Tidy] :
    (listUntil stop element).Tidy := by
  unfold listUntil; infer_instance

instance (element : Rule Unit) [element.Tidy] : (commaList element).Tidy := by
  unfold commaList; infer_instance

end Rule

end KeyedModel.Grammar
