import KeyedModel.Proofs.Grammar.Running

/-!
# Values that a rule can give

What a rule gives is often limited whatever it reads: a property that holds wherever the rule may
end holds of every result.
-/

namespace KeyedModel.Grammar

open Token (Tree Place)

variable {α β : Type} {meaning : Meaning} {closing : Place} {trees : List Tree}

namespace Rule

/-- Whatever the rule reads, the value that it gives has the property. -/
def Gives (p : α → Prop) : Rule α → Prop
  | done a => p a
  | fail _ => True
  | failAt _ _ => True
  | sees _ _ next => ∀ b, (next b).Gives p
  | take _ next => ∀ ts, (next ts).Gives p
  | takeGroup next => ∀ d, (next d).Gives p
  | takeRest next => next.Gives p
  | inside _ _ next => ∀ b, (next b).Gives p
  | call _ next => ∀ s, (next s).Gives p
  | attempt _ next => ∀ b, (next b).Gives p
  | foresee _ next => ∀ b, (next b).Gives p
  | hold _ next => ∀ b ts, (next b ts).Gives p
  | asWritten _ _ next => ∀ b, (next b).Gives p
  | print _ next => next.Gives p
  | place next => ∀ p', (next p').Gives p
  | remaining next => ∀ n, (next n).Gives p

/-- A rule gives what its last part gives for a value of the first part. -/
theorem Gives.bind {q : α → Prop} {p : β → Prop} {r : Rule α} {f : α → Rule β} (hr : r.Gives q)
    (h : ∀ a, q a → (f a).Gives p) : (r >>= f).Gives p := by
  change (r.bind f).Gives p
  induction r with
  | done a => exact h a hr
  | fail _ => trivial
  | failAt _ _ => trivial
  | sees _ _ _ ih => exact fun b => ih b (hr b) h
  | take _ _ ih => exact fun ts => ih ts (hr ts) h
  | takeGroup _ ih => exact fun d => ih d (hr d) h
  | takeRest _ ih => exact ih hr h
  | inside _ _ _ _ ih => exact fun b => ih b (hr b) h
  | call _ _ ih => exact fun s => ih s (hr s) h
  | attempt _ _ _ ih => exact fun b => ih b (hr b) h
  | foresee _ _ _ ih => exact fun b => ih b (hr b) h
  | hold _ _ _ ih => exact fun b ts => ih b ts (hr b ts) h
  | asWritten _ _ _ _ ih => exact fun b => ih b (hr b) h
  | print _ _ ih => exact ih hr h
  | place _ ih => exact fun p' => ih p' (hr p') h
  | remaining _ ih => exact fun n => ih n (hr n) h

/-- Every rule gives some value. -/
theorem gives_true (r : Rule α) : r.Gives fun _ => True := by
  induction r with
  | done _ => trivial
  | fail _ => trivial
  | failAt _ _ => trivial
  | takeRest _ ih => exact ih
  | print _ _ ih => exact ih
  | inside _ _ _ _ ih | attempt _ _ _ ih | foresee _ _ _ ih | asWritten _ _ _ _ ih => exact ih
  | hold _ _ _ ih => exact ih
  | sees _ _ _ ih | take _ _ ih | takeGroup _ ih | call _ _ ih | place _ ih | remaining _ ih =>
    exact ih

/-- A rule gives what its last part gives. -/
theorem gives_bind {p : β → Prop} {r : Rule α} {f : α → Rule β} (h : ∀ a, (f a).Gives p) :
    (r >>= f).Gives p :=
  r.gives_true.bind fun a _ => h a

/-- The value of a successful run is one that the rule can give. -/
theorem Gives.run_value {p : α → Prop} {r : Rule α} (hr : r.Gives p) {reply : Reply α}
    (h : r.run meaning closing trees = .ok reply) : p reply.value := by
  induction r generalizing closing trees with
  | done a =>
    cases h
    exact hr
  | fail _ => cases h
  | failAt _ _ => cases h
  | sees _ _ _ ih => exact ih _ (hr _) h
  | take _ _ ih =>
    obtain ⟨taken, rest, b, -, hb, rfl⟩ := run_take_eq_ok.mp h
    have hvalue := ih _ (hr _) hb
    exact hvalue
  | takeGroup _ ih =>
    unfold Rule.run at h
    split at h
    · split at h
      · cases h
      · rename_i b hb
        cases h
        have hvalue := ih _ (hr _) hb
        exact hvalue
    · cases h
  | takeRest _ ih =>
    simp only [Rule.run] at h
    split at h
    · cases h
    · rename_i b hb
      cases h
      have hvalue := ih hr hb
      exact hvalue
  | inside _ _ _ _ ih =>
    unfold Rule.run at h
    split at h
    · split at h
      · split at h
        · cases h
        · split at h
          · cases h
          · rename_i b hb
            cases h
            have hvalue := ih _ (hr _) hb
            exact hvalue
      · cases h
    · cases h
  | call _ _ ih =>
    simp only [Rule.run] at h
    split at h
    · cases h
    · split at h
      · cases h
      · rename_i b hb
        cases h
        have hvalue := ih _ (hr _) hb
        exact hvalue
  | attempt _ _ _ ih =>
    simp only [Rule.run] at h
    split at h
    · exact ih _ (hr _) h
    · split at h
      · cases h
      · rename_i b hb
        cases h
        have hvalue := ih _ (hr _) hb
        exact hvalue
  | foresee _ _ _ ih =>
    simp only [Rule.run] at h
    split at h
    · exact ih _ (hr _) h
    · exact ih _ (hr _) h
  | hold _ _ _ ih =>
    simp only [Rule.run] at h
    split at h
    · cases h
    · split at h
      · cases h
      · rename_i b hb
        cases h
        have hvalue := ih _ _ (hr _ _) hb
        exact hvalue
  | asWritten _ _ _ _ ih =>
    simp only [Rule.run] at h
    split at h
    · cases h
    · split at h
      · cases h
      · rename_i b hb
        cases h
        have hvalue := ih _ (hr _) hb
        exact hvalue
  | print _ _ ih =>
    simp only [Rule.run] at h
    split at h
    · cases h
    · rename_i b hb
      cases h
      have hvalue := ih hr hb
      exact hvalue
  | place _ ih => exact ih _ (hr _) h
  | remaining _ ih => exact ih _ (hr _) h

end Rule

end KeyedModel.Grammar
