import KeyedModel.Proofs.Grammar.Flush

/-!
# What rules return and print

What is kept of a phrase is what a rule returned for it, or what it printed while that was held
back. A property of either is proved for a rule from its parts.
-/

namespace KeyedModel.Grammar

open Token (Tree Place)

variable {α β : Type}

/-! ### Shapes -/

/-- One punctuation character, wherever it was written. -/
def IsPunct (c : Char) (trees : List Tree) : Prop := ∃ place, trees = [.punct c .alone place]

/-- One word, keyword or not. -/
def IsWord (trees : List Tree) : Prop := ∃ name place, trees = [.ident name place]

/-- Nothing, or trees that begin with a punctuation character. -/
def Led (c : Char) (trees : List Tree) : Prop :=
  trees = [] ∨ ∃ place more, trees = .punct c .alone place :: more

namespace Rule

/-! ### Rules in a row -/

/-- What the rule returns has the property, whatever it reads. -/
structure Returns (p : α → Prop) (r : Rule α) : Prop where
  out {meaning : Meaning} {closing : Place} {trees : List Tree} {reply : Reply α} :
    r.run meaning closing trees = .ok reply → p reply.value

/-- What the rule prints has the property, whatever it reads. -/
structure Prints (p : List Tree → Prop) (r : Rule α) : Prop where
  out {meaning : Meaning} {closing : Place} {trees : List Tree} {reply : Reply α} :
    r.run meaning closing trees = .ok reply → p reply.printed

variable {p : α → Prop} {q : β → Prop} {shape : List Tree → Prop}

theorem returns_pure {a : α} (h : p a) : (pure a : Rule α).Returns p where
  out hrun := by
    cases hrun
    exact h

theorem returns_bind {r : Rule α} {f : α → Rule β} (hr : r.Returns p)
    (hf : ∀ a, p a → (f a).Returns q) : (r >>= f).Returns q where
  out h := by
    obtain ⟨a, b, ha, hb, rfl⟩ := run_bind_eq_ok.mp h
    have hvalue := (hf a.value (hr.out ha)).out hb
    exact hvalue

/-- Where it does not matter what the first rule returns. -/
theorem returns_behind {r : Rule α} {f : α → Rule β} (hf : ∀ a, (f a).Returns q) :
    (r >>= f).Returns q :=
  returns_bind (p := fun _ => True) ⟨fun _ => trivial⟩ fun a _ => hf a

/-- What is held back has the shape in which it would have been printed. -/
theorem returns_held_bind {r : Rule α} {f : α × List Tree → Rule β} (hr : r.Prints shape)
    (hf : ∀ a printed, shape printed → (f (a, printed)).Returns q) :
    (held r >>= f).Returns q where
  out h := by
    obtain ⟨a, b, ha, hb, rfl⟩ := run_bind_eq_ok.mp h
    obtain ⟨c, hc, rfl⟩ := run_held_eq_ok.mp ha
    have hvalue := (hf c.value c.printed (hr.out hc)).out hb
    exact hvalue

theorem returns_silently {r : Rule α} (hr : r.Returns p) : (silently r).Returns p where
  out h := by
    simp only [silently, Rule.run] at h
    split at h
    · cases h
    · rename_i a ha
      cases h
      have hvalue := hr.out ha
      exact hvalue

theorem returns_within {d : Token.Delimiter} {r : Rule α} (hr : r.Returns p) :
    (within d r).Returns p where
  out h := by
    unfold within Rule.run at h
    split at h
    · split at h
      · split at h
        · cases h
        · rename_i a ha
          cases h
          have hvalue := hr.out ha
          exact hvalue
      · cases h
    · cases h

theorem returns_ite {c : Prop} [Decidable c] {r s : Rule α} (hr : r.Returns p)
    (hs : s.Returns p) : (if c then r else s).Returns p := by
  split
  · exact hr
  · exact hs

theorem returns_fail (cause : Cause) : (.fail cause : Rule α).Returns p where
  out h := by cases h

theorem returns_expecting (sights : List Sight) : (expecting sights : Rule α).Returns p := by
  have hfrom (known : List Expected) : (expectingFrom known sights : Rule α).Returns p := by
    induction sights generalizing known with
    | nil => exact returns_fail _
    | cons s rest ih => exact returns_behind fun _ => returns_ite (ih _) (ih _)
  exact hfrom []

/-! ### Terminals -/

theorem prints_op (c : Char) {chars : String} (h : chars.toList = [c]) :
    (op chars).Prints (IsPunct c) where
  out hrun := by
    obtain ⟨taken, rest, b, hmatch, hb, rfl⟩ := run_take_eq_ok.mp hrun
    rw [Terminal.match?, h] at hmatch
    obtain ⟨spacing, place, -, rfl⟩ := matchOp_singleton.mp hmatch
    cases hb
    exact ⟨place, rfl⟩

theorem prints_name : name.Prints IsWord where
  out h := by
    obtain ⟨taken, rest, b, hmatch, hb, rfl⟩ := run_take_eq_ok.mp h
    obtain ⟨name, place, -, rfl, -⟩ := Terminal.match?_name.mp hmatch
    cases hb
    exact ⟨name, place, rfl⟩

theorem prints_anyWord : anyWord.Prints IsWord where
  out h := by
    obtain ⟨taken, rest, hmatch, rfl⟩ := run_anyWord_eq_ok.mp h
    obtain ⟨name, place, -, rfl⟩ := Terminal.match?_anyWord.mp hmatch
    exact ⟨name, place, rfl⟩

theorem prints_word (w : String) :
    (word w).Prints fun printed => ∃ place, printed = [.ident w place] where
  out h := by
    obtain ⟨taken, rest, b, hmatch, hb, rfl⟩ := run_take_eq_ok.mp h
    obtain ⟨place, -, rfl⟩ := Terminal.match?_word.mp hmatch
    cases hb
    exact ⟨place, rfl⟩

theorem prints_lifetime : lifetime.Prints fun printed =>
    ∃ mark name place, printed = [.punct '\'' .joint mark, .ident name place] where
  out h := by
    obtain ⟨taken, rest, b, hmatch, hb, rfl⟩ := run_take_eq_ok.mp h
    obtain ⟨mark, name, place, -, rfl⟩ := Terminal.match?_lifetime.mp hmatch
    cases hb
    exact ⟨mark, name, place, rfl⟩

/-- What begins with an operator. -/
theorem prints_op_behind (c : Char) {chars : String} (h : chars.toList = [c]) {r : Rule α} :
    (op chars >>= fun _ => r).Prints fun printed =>
      ∃ place more, printed = .punct c .alone place :: more where
  out hrun := by
    obtain ⟨a, b, ha, -, rfl⟩ := run_bind_eq_ok.mp hrun
    obtain ⟨place, hplace⟩ := (prints_op c h).out ha
    exact ⟨place, b.printed, by simp [Reply.after, hplace]⟩

/-- What begins with an operator if there is anything. -/
theorem prints_acceptOp_bind (c : Char) {chars : String} (h : chars.toList = [c]) {r : Rule Unit} :
    (acceptOp chars >>= fun found => if found then r else pure ()).Prints (Led c) where
  out hrun := by
    obtain ⟨a, b, ha, hb, rfl⟩ := run_bind_eq_ok.mp hrun
    rw [acceptOp, run_accept] at ha
    split at ha
    · rename_i taken rest hmatch
      rw [Terminal.match?, h] at hmatch
      obtain ⟨spacing, place, -, rfl⟩ := matchOp_singleton.mp hmatch
      cases ha
      exact .inr ⟨place, b.printed, rfl⟩
    · cases ha
      cases hb
      exact .inl rfl

/-- Attributes begin with their mark. -/
theorem prints_attributes : attributes.Prints (Led '#') where
  out h := by
    obtain ⟨a, b, ha, hb, rfl⟩ := run_bind_eq_ok.mp h
    obtain ⟨c, d, hc, hd, rfl⟩ := run_bind_eq_ok.mp ha
    rw [acceptOp, run_accept] at hc
    split at hc
    · rename_i taken rest hmatch
      obtain ⟨spacing, place, -, rfl⟩ := matchOp_singleton.mp hmatch
      cases hc
      exact .inr ⟨place, d.printed ++ b.printed, rfl⟩
    · cases hc
      cases hd
      cases hb
      exact .inl rfl

/-! ### Rules that print nothing -/

/-- The rule prints nothing of what it takes. -/
class PrintsNothing (r : Rule α) : Prop where
  out : r.Prints (· = [])

instance (r : Rule α) [hr : r.Silent] : r.PrintsNothing := ⟨⟨fun h => (hr.run_ok h).1⟩⟩

theorem printsNothing_bind {r : Rule α} {f : α → Rule β} (hr : r.PrintsNothing)
    (hf : ∀ a, (f a).PrintsNothing) : (r >>= f).PrintsNothing := by
  refine ⟨⟨fun h => ?_⟩⟩
  obtain ⟨a, b, ha, hb, rfl⟩ := run_bind_eq_ok.mp h
  have hnone := hr.out.out ha
  have hmore := (hf a.value).out.out hb
  simp [Reply.after, hnone, hmore]

instance (r : Rule α) (f : α → Rule β) [hr : r.PrintsNothing] [hf : ∀ a, (f a).PrintsNothing] :
    (r >>= f).PrintsNothing :=
  printsNothing_bind hr hf

instance (priority := high) {γ : Type} (r : Rule (α × γ)) (f : α × γ → Rule β)
    [hr : r.PrintsNothing] [hf : ∀ a c, (f (a, c)).PrintsNothing] : (r >>= f).PrintsNothing :=
  printsNothing_bind hr fun (a, c) => hf a c

instance (c : Prop) [Decidable c] (r s : Rule α) [r.PrintsNothing] [s.PrintsNothing] :
    (if c then r else s).PrintsNothing := by
  split <;> assumption

instance (body : Rule α) : (held body).PrintsNothing := by
  refine ⟨⟨fun h => ?_⟩⟩
  obtain ⟨a, -, rfl⟩ := run_held_eq_ok.mp h
  rfl

instance (body : Rule α) : (silently body).PrintsNothing := by
  refine ⟨⟨fun h => ?_⟩⟩
  simp only [silently, Rule.run] at h
  split at h <;> cases h
  rfl

end Rule

end KeyedModel.Grammar
