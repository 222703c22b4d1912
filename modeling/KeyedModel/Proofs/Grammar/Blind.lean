import KeyedModel.Proofs.Grammar.Literals
import KeyedModel.Proofs.Grammar.Unplaced

/-!
# Reading without places

What is read from tokens does not depend on where they are: tokens without their places are read as
the same, but for the places in it, and errors are the same, but for where they are.

A rule goes on with what it has read, and that may hold places. So two rules are compared: the second
one goes on with the values without their places. That one rule reads like another in this way is a
class, and instances compare two rules part by part.
-/

namespace KeyedModel.Grammar

open Token (Tree Place Delimiter)
open Placed (unplaced)

set_option synthInstance.maxSize 10000000

/-! ### Rules -/

instance : Placed Nonterminal where
  unplaced
    | .exprFrom left base braces => .exprFrom (unplaced left) base braces
    | n => n

/-- Phrases are read without places as they are read with them. -/
def Meaning.Blind (meaning : Meaning) : Prop :=
  ∀ n closing trees, meaning (unplaced n) none (unplaced trees) = unplaced (meaning n closing trees)

namespace Rule

section

variable {α β σ : Type} [Placed α] [Placed β] [Placed σ]

/-- The second rule reads without places what the first one reads with them. -/
class Unplaces (r r' : Rule α) : Prop where
  run_eq : ∀ {meaning : Meaning}, meaning.Blind → ∀ closing trees,
    r'.run meaning none (unplaced trees) = unplaced (r.run meaning closing trees)

/-- What the rule reads does not depend on places. -/
abbrev Blind (r : Rule α) : Prop := Unplaces r r

/-- A rule that leaves some tokens leaves them wherever they are, and the tokens in front of them, and
what it has read differs in places only. -/
theorem Blind.run_elsewhere {meaning : Meaning} {r : Rule α} [hr : r.Blind] {closing : Place}
    {front front' tail tail' printed : List Tree} {value : α} (hblind : meaning.Blind)
    (hforward : meaning.GoesForward) (hfront : unplaced front' = unplaced front)
    (htail : unplaced tail' = unplaced tail)
    (h : r.run meaning closing (front ++ tail) = .ok ⟨value, printed, tail, none⟩) (spot : Place) :
    ∃ value' printed', r.run meaning spot (front' ++ tail') = .ok ⟨value', printed', tail', none⟩ ∧
      unplaced value' = unplaced value := by
  have hsame : unplaced (r.run meaning spot (front' ++ tail')) =
      unplaced (r.run meaning closing (front ++ tail)) := by
    rw [← hr.run_eq hblind, ← hr.run_eq hblind, unplaced_append, unplaced_append, hfront, htail]
  rw [h, unplaced_ok, unplaced_reply] at hsame
  rcases hagain : r.run meaning spot (front' ++ tail') with e | ⟨value', printed', rest, stray⟩
  · rw [hagain] at hsame
    cases hsame
  rw [hagain, unplaced_ok, unplaced_reply] at hsame
  obtain ⟨hvalue, -, hrest, hstray⟩ := Reply.mk.inj (Except.ok.inj hsame)
  obtain ⟨used, hused⟩ := run_suffix hforward hagain
  have hlength : rest.length = tail'.length := by
    simpa using congrArg List.length (hrest.trans htail.symm)
  obtain ⟨-, rfl⟩ := List.append_inj' hused hlength
  cases stray with
  | some e => cases hstray
  | none => exact ⟨value', printed', rfl, hvalue⟩

/-! ### Rules in a row -/

/-- One rule after another, which goes on with the value without its places. -/
theorem unplaces_bind {r r' : Rule α} {f f' : α → Rule β} (hr : r.Unplaces r')
    (hf : ∀ a, (f a).Unplaces (f' (unplaced a))) : (r >>= f).Unplaces (r' >>= f') where
  run_eq {meaning} h closing trees := by
    rw [run_bind, run_bind, hr.run_eq h closing]
    rcases r.run meaning closing trees with e | ⟨value, printed, rest, stray⟩
    · rfl
    · simp only [unplaced_ok, unplaced_reply, (hf value).run_eq h closing]
      cases (f value).run meaning closing rest with
      | error e => rfl
      | ok b => exact congrArg Except.ok (Reply.after_unplaced ⟨value, printed, rest, stray⟩ b).symm

instance {r r' : Rule α} {f f' : α → Rule β} [hr : r.Unplaces r']
    [hf : ∀ a, (f a).Unplaces (f' (unplaced a))] : (r >>= f).Unplaces (r' >>= f') :=
  unplaces_bind hr hf

/-- A rule whose value has no places in it. -/
instance (priority := high) [hα : Plain α] {r r' : Rule α} {f f' : α → Rule β} [r.Unplaces r']
    [hf : ∀ a, (f a).Unplaces (f' a)] : (r >>= f).Unplaces (r' >>= f') :=
  have (a : α) : (f a).Unplaces (f' (unplaced a)) := by
    rw [hα.unplaced_eq]
    exact hf a
  inferInstance

/-- A rule whose value is taken apart into two. -/
instance (priority := 1100) {r r' : Rule (α × β)} {f f' : α × β → Rule σ} [r.Unplaces r']
    [hf : ∀ a b, (f (a, b)).Unplaces (f' (unplaced a, unplaced b))] :
    (r >>= f).Unplaces (r' >>= f') :=
  have (v : α × β) : (f v).Unplaces (f' (unplaced v)) := hf v.1 v.2
  inferInstance

/-- A rule whose value is taken apart into one without places and another. -/
instance (priority := 1200) [hα : Plain α] {r r' : Rule (α × β)} {f f' : α × β → Rule σ}
    [r.Unplaces r'] [hf : ∀ a b, (f (a, b)).Unplaces (f' (a, unplaced b))] :
    (r >>= f).Unplaces (r' >>= f') :=
  have (a : α) (b : β) : (f (a, b)).Unplaces (f' (unplaced a, unplaced b)) := by
    rw [hα.unplaced_eq]
    exact hf a b
  inferInstance

/-- A rule whose value may be missing. -/
instance (priority := 1100) {r r' : Rule (Option α)} {f f' : Option α → Rule β} [r.Unplaces r']
    [hsome : ∀ a, (f (some a)).Unplaces (f' (some (unplaced a)))]
    [hnone : (f none).Unplaces (f' none)] : (r >>= f).Unplaces (r' >>= f') :=
  have (v : Option α) : (f v).Unplaces (f' (unplaced v)) := by
    cases v with
    | none => exact hnone
    | some a => exact hsome a
  inferInstance

/-- A rule whose value may be missing, and is taken apart into two if it is not. -/
instance (priority := 1200) {r r' : Rule (Option (α × β))} {f f' : Option (α × β) → Rule σ}
    [r.Unplaces r'] [hsome : ∀ a b, (f (some (a, b))).Unplaces (f' (some (unplaced a, unplaced b)))]
    [(f none).Unplaces (f' none)] : (r >>= f).Unplaces (r' >>= f') :=
  have (v : α × β) : (f (some v)).Unplaces (f' (some (unplaced v))) := hsome v.1 v.2
  inferInstance

instance (priority := 1300) [hα : Plain α] [hβ : Plain β] {r r' : Rule (Option (α × β))}
    {f f' : Option (α × β) → Rule σ} [r.Unplaces r']
    [hsome : ∀ a b, (f (some (a, b))).Unplaces (f' (some (a, b)))]
    [(f none).Unplaces (f' none)] : (r >>= f).Unplaces (r' >>= f') :=
  have (a : α) (b : β) : (f (some (a, b))).Unplaces (f' (some (unplaced a, unplaced b))) := by
    rw [hα.unplaced_eq, hβ.unplaced_eq]
    exact hsome a b
  inferInstance

instance {c : Prop} [Decidable c] {r r' s s' : Rule α} [r.Unplaces r'] [s.Unplaces s'] :
    (if c then r else s).Unplaces (if c then r' else s') := by
  split <;> infer_instance

/-- A choice by a value that may have been found from places. -/
theorem unplaces_ite {c c' : Bool} (hc : Unplaced c c') {r r' s s' : Rule α} (hr : r.Unplaces r')
    (hs : s.Unplaces s') : (if c then r else s).Unplaces (if c' then r' else s') := by
  rw [show c' = c from hc.eq]
  infer_instance

instance {c c' : Bool} [hc : Unplaced c c'] {r r' s s' : Rule α} [hr : r.Unplaces r']
    [hs : s.Unplaces s'] : (if c then r else s).Unplaces (if c' then r' else s') :=
  unplaces_ite hc hr hs

/-! ### Single steps -/

instance {a a' : α} [ha : Unplaced a a'] : (.done a : Rule α).Unplaces (.done a') where
  run_eq _ _ _ := by rw [ha.eq]; rfl

instance {a a' : α} [Unplaced a a'] : (pure a : Rule α).Unplaces (pure a') :=
  inferInstanceAs (Unplaces (.done a) (.done a'))

instance (cause : Cause) : (.fail cause : Rule α).Blind where
  run_eq _ closing trees := congrArg Except.error (errorAt_unplaced closing trees cause)

instance {spot spot' : Place} {cause cause' : Cause} [hspot : Unplaced spot spot']
    [hcause : Unplaced cause cause'] :
    (.failAt spot cause : Rule α).Unplaces (.failAt spot' cause') where
  run_eq _ _ _ := by rw [hspot.eq, hcause.eq]; rfl

instance (s : Sight) (after : Nat) : (.sees s after .done : Rule Bool).Blind where
  run_eq _ closing trees := by rw [Rule.run, s.seesAfter_unplaced]; rfl

instance (s : Sight) : (next s).Blind := by unfold next; infer_instance
instance (s : Sight) : (second s).Blind := by unfold second; infer_instance
instance (s : Sight) : (third s).Blind := by unfold third; infer_instance

instance : here.Blind where
  run_eq _ closing trees := by
    rw [here, Rule.run, frontPlace_unplaced]
    rfl

instance : (.remaining .done : Rule Nat).Blind where
  run_eq _ closing trees := by
    rw [Rule.run, length_unplaced]
    rfl

instance (t : Terminal) : (token t).Blind where
  run_eq _ closing trees := by
    simp only [token, Rule.run, t.match?_unplaced]
    cases t.match? trees with
    | none => exact congrArg Except.error (t.failure_unplaced closing trees)
    | some r =>
      simp only [unplaced_some, List.append_nil]
      rfl

instance (t : Terminal) {f f' : List Tree → Rule α}
    [∀ taken, (f taken).Unplaces (f' (unplaced taken))] :
    (.take t f : Rule α).Unplaces (.take t f') :=
  inferInstanceAs (Unplaces (token t >>= f) (token t >>= f'))

instance : anyGroup.Blind where
  run_eq _ closing trees := by
    rcases trees with _ | ⟨_ | _ | _ | ⟨d, opening, inner, closed⟩, rest⟩
    case cons.group =>
      simp only [anyGroup, Rule.run, unplaced_cons, unplaced_group, unplaced_ok, unplaced_reply]
      rfl
    all_goals exact congrArg Except.error (errorAt_unplaced closing _ _)

instance : everything.Blind where
  run_eq _ closing trees := by
    simp only [everything, Rule.run, List.append_nil]
    rfl

/-- The inside of a group ends at a place as well. -/
instance (d : Delimiter) {body body' : Rule α} [hbody : body.Unplaces body'] :
    (within d body).Unplaces (within d body') where
  run_eq h closing trees := by
    rcases trees with _ | ⟨_ | _ | _ | ⟨e, opening, inner, closed⟩, rest⟩
    case cons.group =>
      simp only [within, Rule.run, unplaced_cons, unplaced_group, hbody.run_eq h closed]
      by_cases hd : (d == e) = true
      · simp only [if_pos hd]
        rcases body.run _ closed inner with e | ⟨value, printed, left, stray⟩
        · rfl
        · simp [leftover_unplaced]
      · simp only [if_neg hd, unplaced_error, ← errorAt_unplaced closing]
        simp
    all_goals exact congrArg Except.error (errorAt_unplaced closing _ _)

instance {n n' : Nonterminal} [hn : Unplaced n n'] : (phrase n).Unplaces (phrase n') where
  run_eq h closing trees := by
    rw [run_phrase, run_phrase, hn.eq]
    exact h n closing trees

instance {n n' : Nonterminal} [Unplaced n n'] : (phrase_ n).Unplaces (phrase_ n') :=
  inferInstanceAs (Unplaces (phrase n >>= fun _ => pure ()) (phrase n' >>= fun _ => pure ()))

instance {body body' : Rule α} [hbody : body.Unplaces body'] : (held body).Unplaces (held body') where
  run_eq h closing trees := by
    simp only [held, Rule.run, hbody.run_eq h closing]
    rcases body.run _ closing trees with e | ⟨value, printed, rest, stray⟩
    · rfl
    · simp

instance {body body' : Rule α} [body.Unplaces body'] : (silently body).Unplaces (silently body') :=
  inferInstanceAs (Unplaces (held body >>= fun (a, _) => pure a) (held body' >>= fun (a, _) => pure a))

/-- What is kept as it was written is kept by values that differ in places only. -/
instance {keep keep' : α → Bool} [hkeep : ∀ a, Unplaced (keep a) (keep' (unplaced a))]
    {body body' : Rule α} [hbody : body.Unplaces body'] :
    (writtenIf keep body).Unplaces (writtenIf keep' body') where
  run_eq h closing trees := by
    simp only [writtenIf, Rule.run, hbody.run_eq h closing]
    rcases body.run _ closing trees with e | ⟨value, printed, rest, stray⟩
    · rfl
    · have hsame : keep' (unplaced value) = keep value := (hkeep value).eq
      simp only [unplaced_ok, unplaced_reply, hsame]
      split <;> simp [writtenBefore_unplaced]

instance {body body' : Rule α} [body.Unplaces body'] : (written body).Unplaces (written body') := by
  unfold written; infer_instance

instance {trees trees' : List Tree} [h : Unplaced trees trees'] : (emit trees).Unplaces (emit trees')
    where
  run_eq _ _ _ := by
    simp only [emit, Rule.run, h.eq, List.append_nil]
    rfl

/-! ### Reading ahead -/

instance {body body' : Rule α} [hbody : body.Unplaces body'] :
    (.attempt body .done : Rule (Option α)).Unplaces (.attempt body' .done) where
  run_eq h closing trees := by
    simp only [Rule.run, hbody.run_eq h closing]
    rcases body.run _ closing trees with e | ⟨value, printed, rest, stray⟩
    · rfl
    · simp [Reply.after]

instance {body body' : Rule α} [hbody : body.Unplaces body'] :
    (.foresee body .done : Rule (Option α)).Unplaces (.foresee body' .done) where
  run_eq h closing trees := by
    simp only [Rule.run, hbody.run_eq h closing]
    cases body.run _ closing trees <;> rfl

/-! ### Repetition -/

instance (limit : Nat) {body body' : Rule Bool} [body.Unplaces body'] :
    (repeatUpTo limit body).Unplaces (repeatUpTo limit body') := by
  induction limit <;> unfold repeatUpTo <;> infer_instance

instance {body body' : Rule Bool} [body.Unplaces body'] :
    (repeatWhile body).Unplaces (repeatWhile body') :=
  inferInstanceAs (Unplaces (.remaining .done >>= fun n => repeatUpTo (n + 1) body)
    (.remaining .done >>= fun n => repeatUpTo (n + 1) body'))

/-- A result ends the repetition, and a state goes on with it. -/
theorem unplaces_iterateUpTo {body body' : σ → Rule (σ ⊕ α)}
    (hbody : ∀ state, (body state).Unplaces (body' (unplaced state))) (limit : Nat) (state : σ) :
    (iterateUpTo limit body state).Unplaces (iterateUpTo limit body' (unplaced state)) := by
  induction limit generalizing state with
  | zero => unfold iterateUpTo; infer_instance
  | succ limit ih =>
    unfold iterateUpTo
    refine unplaces_bind (hbody state) fun next => ?_
    cases next with
    | inl state => exact ih state
    | inr result => exact inferInstanceAs (Unplaces (pure result) (pure (unplaced result)))

theorem unplaces_iterate {body body' : σ → Rule (σ ⊕ α)} {state state' : σ}
    (hbody : ∀ state, (body state).Unplaces (body' (unplaced state)))
    (hstate : Unplaced state state') : (iterate body state).Unplaces (iterate body' state') := by
  rw [hstate.eq]
  have (limit : Nat) := unplaces_iterateUpTo hbody limit state
  exact inferInstanceAs (Unplaces (.remaining .done >>= fun n => iterateUpTo (n + 1) body state)
    (.remaining .done >>= fun n => iterateUpTo (n + 1) body' (unplaced state)))

instance {body body' : σ → Rule (σ ⊕ α)} {state state' : σ}
    [hbody : ∀ state, (body state).Unplaces (body' (unplaced state))]
    [hstate : Unplaced state state'] : (iterate body state).Unplaces (iterate body' state') :=
  unplaces_iterate hbody hstate

/-- A state without places. -/
instance (priority := high) [hσ : Plain σ] {body body' : σ → Rule (σ ⊕ α)} {state : σ}
    [hbody : ∀ state, (body state).Unplaces (body' state)] :
    (iterate body state).Unplaces (iterate body' state) :=
  have (state : σ) : (body state).Unplaces (body' (unplaced state)) := by
    rw [hσ.unplaced_eq]
    exact hbody state
  inferInstance

end

/-! ### Small rules -/

section

variable {α : Type} [Placed α]

instance (chars : String) : (op chars).Blind := by unfold op; infer_instance
instance (w : String) : (word w).Blind := by unfold word; infer_instance
instance : name.Blind := by unfold name; infer_instance
instance : anyWord.Blind := by unfold anyWord; infer_instance
instance : lifetime.Blind := by unfold lifetime; infer_instance
instance : literal.Blind := by unfold literal; infer_instance
instance (t : Terminal) : (accept t).Blind := by unfold accept; infer_instance

instance (chars : String) : (acceptOp chars).Blind := by unfold acceptOp; infer_instance
instance (w : String) : (acceptWord w).Blind := by unfold acceptWord; infer_instance

instance (operators : List String) : (acceptAny operators).Blind := by
  induction operators <;> unfold acceptAny <;> infer_instance

instance (sights : List Sight) : (nextAny sights).Blind := by
  induction sights <;> unfold nextAny <;> infer_instance

instance (sight other : Sight) : (nextBut sight other).Blind := by
  unfold nextBut; infer_instance

instance (known : List Expected) (sights : List Sight) :
    (expectingFrom known sights : Rule α).Blind := by
  induction sights generalizing known <;> unfold expectingFrom <;> infer_instance

instance (sights : List Sight) : (expecting sights : Rule α).Blind := by
  unfold expecting; infer_instance

instance (text : String) : (expectingPhrase text : Rule α).Blind := by
  unfold expectingPhrase; infer_instance

instance : (unfit : Rule α).Blind := by unfold unfit; infer_instance

instance (stop : Sight) {element element' : Rule α} [element.Unplaces element'] :
    (listUntil stop element).Unplaces (listUntil stop element') := by
  unfold listUntil; infer_instance

instance {element element' : Rule Unit} [element.Unplaces element'] :
    (commaList element).Unplaces (commaList element') := by
  unfold commaList; infer_instance

end

end Rule

end KeyedModel.Grammar
