import KeyedModel.Grammar.Rule

/-!
# Running rules in a row

`Rule.run` passes the remaining tokens from one step of a rule to the next. This file says once what
running `r >>= f` gives, so that later proofs take a rule apart into its parts and never unfold the
interpreter. It also proves that no rule puts tokens back.
-/

namespace KeyedModel.Grammar

open Token (Tree Place Delimiter)
open Text (isKeyword)

variable {α β : Type} {meaning : Meaning} {closing : Place} {trees : List Tree}

namespace Rule

attribute [local simp] Rule.run

/-- One rule after another runs the second where the first has stopped. -/
theorem run_bind (r : Rule α) (f : α → Rule β) (closing : Place) (trees : List Tree) :
    (r >>= f).run meaning closing trees =
      match r.run meaning closing trees with
      | .error e => .error e
      | .ok a =>
        match (f a.value).run meaning closing a.rest with
        | .error e => .error e
        | .ok b => .ok (a.after b) := by
  change (r.bind f).run meaning closing trees = _
  induction r generalizing closing trees with
  | done value =>
    simp only [Rule.bind, Rule.run]
    cases (f value).run meaning closing trees <;> simp [Reply.after]
  | fail cause => rfl
  | failAt spot cause => rfl
  | sees sight after next ih => exact ih _ f closing trees
  | take t next ih =>
    simp only [Rule.bind, Rule.run]
    cases t.match? trees with
    | none => rfl
    | some taken =>
      simp only [ih]
      rcases ha : (next taken.1).run meaning closing taken.2 with e | a
      · rfl
      · rcases hb : (f a.value).run meaning closing a.rest with e | b <;> simp [hb, Reply.after]
  | takeGroup next ih =>
    rcases trees with _ | ⟨_ | _ | _ | ⟨d, opening, inner, closed⟩, rest⟩
    iterate 4 rfl
    simp only [Rule.bind, Rule.run, ih]
    rcases ha : (next d).run meaning closing rest with e | a
    · rfl
    · rcases hb : (f a.value).run meaning closing a.rest with e | b <;> simp [hb, Reply.after]
  | takeRest next ih =>
    simp only [Rule.bind, Rule.run, ih]
    rcases ha : next.run meaning closing [] with e | a
    · rfl
    · rcases hb : (f a.value).run meaning closing a.rest with e | b <;> simp [hb, Reply.after]
  | inside d body next _ ih =>
    rcases trees with _ | ⟨_ | _ | _ | ⟨e, opening, inner, closed⟩, rest⟩
    iterate 4 rfl
    simp only [Rule.bind, Rule.run]
    by_cases hd : (d == e) = true
    · simp only [hd, if_true, ih]
      rcases hr : body.run meaning closed inner with e | r
      · rfl
      · rcases ha : (next r.value).run meaning closing rest with e | a
        · simp [ha]
        · rcases hb : (f a.value).run meaning closing a.rest with e | b <;>
            simp [ha, hb, Reply.after, Option.or_assoc]
    · simp [hd]
  | call n next ih =>
    simp only [Rule.bind, Rule.run]
    rcases hr : meaning n closing trees with e | r
    · rfl
    · simp only [ih]
      rcases ha : (next r.value).run meaning closing r.rest with e | a
      · rfl
      · rcases hb : (f a.value).run meaning closing a.rest with e | b <;>
          simp [hb, Reply.after, Option.or_assoc]
  | attempt body next _ ih =>
    simp only [Rule.bind, Rule.run]
    rcases hr : body.run meaning closing trees with e | r
    · exact ih _ f closing trees
    · simp only [ih]
      rcases ha : (next (some r.value)).run meaning closing r.rest with e | a
      · rfl
      · rcases hb : (f a.value).run meaning closing a.rest with e | b <;>
          simp [hb, Reply.after, Option.or_assoc]
  | foresee body next _ ih =>
    simp only [Rule.bind, Rule.run]
    rcases hr : body.run meaning closing trees with e | r
    · exact ih _ f closing trees
    · exact ih _ f closing trees
  | hold body next _ ih =>
    simp only [Rule.bind, Rule.run]
    rcases hr : body.run meaning closing trees with e | r
    · rfl
    · simp only [ih]
      rcases ha : (next r.value r.printed).run meaning closing r.rest with e | a
      · rfl
      · rcases hb : (f a.value).run meaning closing a.rest with e | b <;>
          simp [hb, Reply.after, Option.or_assoc]
  | asWritten body keep next _ ih =>
    simp only [Rule.bind, Rule.run]
    rcases hr : body.run meaning closing trees with e | r
    · rfl
    · simp only [ih]
      rcases ha : (next r.value).run meaning closing r.rest with e | a
      · rfl
      · rcases hb : (f a.value).run meaning closing a.rest with e | b <;>
          simp [hb, Reply.after, Option.or_assoc]
  | print ts next ih =>
    simp only [Rule.bind, Rule.run, ih]
    rcases ha : next.run meaning closing trees with e | a
    · rfl
    · rcases hb : (f a.value).run meaning closing a.rest with e | b <;> simp [hb, Reply.after]
  | place next ih => exact ih _ f closing trees
  | remaining next ih => exact ih _ f closing trees

/-- A successful run of two rules in a row is a successful run of each. -/
theorem run_bind_eq_ok {r : Rule α} {f : α → Rule β} {closing : Place} {trees : List Tree}
    {reply : Reply β} :
    (r >>= f).run meaning closing trees = .ok reply ↔
      ∃ a b, r.run meaning closing trees = .ok a ∧
        (f a.value).run meaning closing a.rest = .ok b ∧ reply = a.after b := by
  rw [run_bind]
  constructor
  · intro h
    split at h
    · cases h
    · rename_i a ha
      split at h
      · cases h
      · rename_i b hb
        exact ⟨a, b, ha, hb, (Except.ok.inj h).symm⟩
  · rintro ⟨a, b, ha, hb, rfl⟩
    simp [ha, hb]

/-! ### Single steps -/

@[simp] theorem run_pure (a : α) :
    (pure a : Rule α).run meaning closing trees = .ok ⟨a, [], trees, none⟩ := rfl

/-- Looking at the next tokens takes none of them. -/
@[simp] theorem run_next_bind (sight : Sight) (f : Bool → Rule β) :
    (next sight >>= f).run meaning closing trees =
      (f (sight.sees trees)).run meaning closing trees := rfl

@[simp] theorem run_second_bind (sight : Sight) (f : Bool → Rule β) :
    (second sight >>= f).run meaning closing trees =
      (f (sight.seesAfter 1 trees)).run meaning closing trees := rfl

@[simp] theorem run_third_bind (sight : Sight) (f : Bool → Rule β) :
    (third sight >>= f).run meaning closing trees =
      (f (sight.seesAfter 2 trees)).run meaning closing trees := rfl

/-- Looking for one of several sights takes nothing either. -/
theorem run_nextAny (sights : List Sight) :
    (nextAny sights).run meaning closing trees =
      .ok ⟨sights.any (·.sees trees), [], trees, none⟩ := by
  induction sights with
  | nil => rfl
  | cons s rest ih =>
    rw [nextAny, run_next_bind]
    cases hs : s.sees trees <;> simp [hs, ih]

@[simp] theorem run_nextAny_bind (sights : List Sight) (f : Bool → Rule β) :
    (nextAny sights >>= f).run meaning closing trees =
      (f (sights.any (·.sees trees))).run meaning closing trees := by
  rw [run_bind, run_nextAny]
  rcases hb : (f (sights.any (·.sees trees))).run meaning closing trees with e | b <;>
    simp [hb, Reply.after]

/-- Holding back what a rule prints changes nothing else. -/
theorem run_held_eq_ok {body : Rule α} {reply : Reply (α × List Tree)} :
    (held body).run meaning closing trees = .ok reply ↔
      ∃ a, body.run meaning closing trees = .ok a ∧
        reply = ⟨(a.value, a.printed), [], a.rest, a.stray⟩ := by
  simp only [held, Rule.run]
  rcases body.run meaning closing trees with e | a
  · simp
  · simp [eq_comm]

/-- A group that is entered prints what was read in it, between its delimiters. -/
theorem run_within_eq_ok {d : Delimiter} {body : Rule α} {reply : Reply α} :
    (within d body).run meaning closing trees = .ok reply ↔
      ∃ opening inner closed rest a, trees = .group d opening inner closed :: rest ∧
        body.run meaning closed inner = .ok a ∧
        reply = ⟨a.value, [.group d opening a.printed closed], rest,
          a.stray.or (leftover (some d) a.rest)⟩ := by
  rcases trees with _ | ⟨_ | _ | _ | ⟨e, opening, inner, closed⟩, rest⟩
  iterate 4 simp [within]
  by_cases hd : d = e
  · subst hd
    rcases hbody : body.run meaning closed inner with error | a
    · simp only [within, Rule.run, beq_self_eq_true, if_true, hbody, reduceCtorEq, false_iff]
      rintro ⟨_, _, _, _, _, heq, hrun, -⟩
      cases heq
      cases hbody.symm.trans hrun
    · simp only [within, Rule.run, beq_self_eq_true, if_true, hbody, Option.or_none]
      constructor
      · intro h
        cases h
        exact ⟨opening, inner, closed, rest, a, rfl, hbody, rfl⟩
      · rintro ⟨_, _, _, _, b, heq, hrun, rfl⟩
        cases heq
        cases hbody.symm.trans hrun
        rfl
  · simp [within, hd, Ne.symm hd]

/-- A taken terminal is printed in front of what follows. -/
theorem run_take_eq_ok {t : Terminal} {next : List Tree → Rule α} {reply : Reply α} :
    (take t next).run meaning closing trees = .ok reply ↔
      ∃ taken rest b, t.match? trees = some (taken, rest) ∧
        (next taken).run meaning closing rest = .ok b ∧
        reply = ⟨b.value, taken ++ b.printed, b.rest, b.stray⟩ := by
  simp only [Rule.run]
  rcases t.match? trees with _ | ⟨taken, rest⟩
  · simp
  · rcases hb : (next taken).run meaning closing rest with e | b
    · simp [hb]
    · simp only [hb, Except.ok.injEq, Option.some.injEq, Prod.mk.injEq]
      constructor
      · rintro rfl
        exact ⟨taken, rest, b, ⟨rfl, rfl⟩, hb, rfl⟩
      · rintro ⟨taken', rest', b', ⟨rfl, rfl⟩, hb', rfl⟩
        rw [hb, Except.ok.injEq] at hb'
        rw [hb']

/-- A word that is taken for itself. -/
theorem run_anyWord_eq_ok {reply : Reply Unit} :
    anyWord.run meaning closing trees = .ok reply ↔
      ∃ taken rest, Terminal.anyWord.match? trees = some (taken, rest) ∧
        reply = ⟨(), taken, rest, none⟩ := by
  rw [anyWord, run_take_eq_ok]
  constructor
  · rintro ⟨taken, rest, b, hmatch, hb, rfl⟩
    cases hb
    exact ⟨taken, rest, hmatch, by simp⟩
  · rintro ⟨taken, rest, hmatch, rfl⟩
    exact ⟨taken, rest, _, hmatch, rfl, by simp⟩

/-! ### Repetition -/

/-- What every round of a repetition keeps, and the last one turns into a result, holds of the
result of the whole repetition. -/
theorem iterateUpTo_induct {σ : Type} {body : σ → Rule (σ ⊕ α)}
    (keeps : σ → List Tree → Prop) (gives : α → List Tree → Prop)
    (hround : ∀ state trees a, keeps state trees →
      (body state).run meaning closing trees = .ok a →
      match a.value with
      | .inl state => keeps state a.rest
      | .inr result => gives result a.rest)
    {limit : Nat} {state : σ} {reply : Reply α} (hstart : keeps state trees)
    (h : (iterateUpTo limit body state).run meaning closing trees = .ok reply) :
    gives reply.value reply.rest := by
  induction limit generalizing state trees reply with
  | zero => cases h
  | succ limit ih =>
    obtain ⟨a, b, ha, hb, rfl⟩ := run_bind_eq_ok.mp h
    have hkeep := hround state trees a hstart ha
    cases hvalue : a.value with
    | inl next =>
      rw [hvalue] at hkeep hb
      have hresult := ih hkeep hb
      exact hresult
    | inr result =>
      rw [hvalue] at hkeep hb
      cases hb
      exact hkeep

/-- The same for a repetition that is bounded by the number of tokens. -/
theorem iterate_induct {σ : Type} {body : σ → Rule (σ ⊕ α)}
    (keeps : σ → List Tree → Prop) (gives : α → List Tree → Prop)
    (hround : ∀ state trees a, keeps state trees →
      (body state).run meaning closing trees = .ok a →
      match a.value with
      | .inl state => keeps state a.rest
      | .inr result => gives result a.rest)
    {state : σ} {reply : Reply α} (hstart : keeps state trees)
    (h : (iterate body state).run meaning closing trees = .ok reply) :
    gives reply.value reply.rest :=
  iterateUpTo_induct keeps gives hround hstart h

end Rule

/-! ### Rules only go forward -/

/-- What follows an operator is a tail of the tokens. -/
theorem matchOp_suffix {chars : List Char} {trees taken rest : List Tree}
    (h : matchOp chars trees = some (taken, rest)) : rest <:+ trees := by
  fun_induction matchOp chars trees generalizing taken rest with
  | case1 c d spacing place tail heq =>
    obtain ⟨-, rfl⟩ : _ ∧ tail = rest := by simpa using h
    exact List.suffix_cons _ _
  | case2 => cases h
  | case3 c more d place tail _ heq ih =>
    obtain ⟨r, hr, heq⟩ := Option.map_eq_some_iff.mp h
    obtain ⟨-, rfl⟩ := Prod.mk.inj heq
    exact (ih hr).trans (List.suffix_cons _ _)
  | case4 => cases h
  | case5 => cases h

/-- What follows a literal is a tail of the tokens. -/
theorem matchLiteral_suffix {admits : Token.LiteralKind → Bool} {trees taken rest : List Tree}
    (h : matchLiteral admits trees = some (taken, rest)) : rest <:+ trees := by
  unfold matchLiteral at h
  split at h
  · split at h
    · obtain ⟨-, rfl⟩ := Prod.mk.inj (Option.some.inj h)
      exact List.suffix_cons _ _
    · cases h
  · split at h
    · obtain ⟨-, rfl⟩ := Prod.mk.inj (Option.some.inj h)
      exact List.suffix_cons _ _
    · cases h
  · dsimp only at h
    split at h
    · obtain ⟨-, rfl⟩ := Prod.mk.inj (Option.some.inj h)
      exact (List.suffix_cons _ _).trans (List.suffix_cons _ _)
    · cases h
  · cases h

namespace Terminal

attribute [local simp] match?

/-- A particular word matches itself. -/
theorem match?_word {w : String} {trees taken rest : List Tree} :
    (word w).match? trees = some (taken, rest) ↔
      ∃ place, trees = .ident w place :: rest ∧ taken = [.ident w place] := by
  match trees with
  | .ident spelling place :: tail =>
    by_cases h : spelling = w
    · subst h
      simp only [match?, beq_self_eq_true, if_true, Option.some.injEq, Prod.mk.injEq,
        List.cons.injEq, Tree.ident.injEq, true_and]
      constructor
      · rintro ⟨rfl, rfl⟩
        exact ⟨place, ⟨rfl, rfl⟩, rfl⟩
      · rintro ⟨p, ⟨rfl, rfl⟩, rfl⟩
        exact ⟨rfl, rfl⟩
    · simp [h]
  | [] | .punct .. :: _ | .literal .. :: _ | .group .. :: _ => simp

/-- Any word matches where a word is asked for. -/
theorem match?_anyWord {trees taken rest : List Tree} :
    anyWord.match? trees = some (taken, rest) ↔
      ∃ w place, trees = .ident w place :: rest ∧ taken = [.ident w place] := by
  match trees with
  | .ident spelling place :: tail =>
    simp only [match?, Option.some.injEq, Prod.mk.injEq, List.cons.injEq, Tree.ident.injEq]
    constructor
    · rintro ⟨rfl, rfl⟩
      exact ⟨spelling, place, ⟨⟨rfl, rfl⟩, rfl⟩, rfl⟩
    · rintro ⟨w, p, ⟨⟨rfl, rfl⟩, rfl⟩, rfl⟩
      exact ⟨rfl, rfl⟩
  | [] | .punct .. :: _ | .literal .. :: _ | .group .. :: _ => simp

/-- A word that is no keyword matches where a name is asked for. -/
theorem match?_name {trees taken rest : List Tree} :
    name.match? trees = some (taken, rest) ↔
      ∃ w place, trees = .ident w place :: rest ∧ taken = [.ident w place] ∧
        isKeyword w = false := by
  match trees with
  | .ident spelling place :: tail =>
    by_cases hk : isKeyword spelling = true
    · simp only [match?, hk, if_true, reduceCtorEq, false_iff]
      rintro ⟨w, p, ht, -, hw⟩
      obtain ⟨rfl, -⟩ : spelling = w ∧ _ := by simpa using (List.cons.inj ht).1
      simp [hk] at hw
    · simp only [match?, hk, Option.some.injEq, Prod.mk.injEq, List.cons.injEq, Tree.ident.injEq,
        Bool.false_eq_true, if_false]
      constructor
      · rintro ⟨rfl, rfl⟩
        exact ⟨spelling, place, ⟨⟨rfl, rfl⟩, rfl⟩, rfl, by simpa using hk⟩
      · rintro ⟨w, p, ⟨⟨rfl, rfl⟩, rfl⟩, rfl, -⟩
        exact ⟨rfl, rfl⟩
  | [] | .punct .. :: _ | .literal .. :: _ | .group .. :: _ => simp

/-- A lifetime is its mark and a word. -/
theorem match?_lifetime {trees taken rest : List Tree} :
    lifetime.match? trees = some (taken, rest) ↔
      ∃ mark w place, trees = .punct '\'' .joint mark :: .ident w place :: rest ∧
        taken = [.punct '\'' .joint mark, .ident w place] := by
  constructor
  · intro h
    simp only [match?] at h
    split at h
    · obtain ⟨rfl, rfl⟩ := Prod.mk.inj (Option.some.inj h)
      exact ⟨_, _, _, rfl, rfl⟩
    · cases h
  · rintro ⟨mark, w, place, rfl, rfl⟩
    rfl

/-- What follows a terminal is a tail of the tokens. -/
theorem match?_suffix {t : Terminal} {trees taken rest : List Tree}
    (h : t.match? trees = some (taken, rest)) : rest <:+ trees := by
  cases t with
  | op chars => exact matchOp_suffix h
  | literal => exact matchLiteral_suffix (show matchLiteral (fun _ => true) trees = _ from h)
  | textLiteral => exact matchLiteral_suffix (show matchLiteral (· == .text) trees = _ from h)
  | intLiteral => exact matchLiteral_suffix (show matchLiteral (· == .int) trees = _ from h)
  | floatLiteral => exact matchLiteral_suffix (show matchLiteral (· == .float) trees = _ from h)
  | word w =>
    obtain ⟨place, rfl, -⟩ := match?_word.mp h
    exact List.suffix_cons _ _
  | anyWord =>
    obtain ⟨w, place, rfl, -⟩ := match?_anyWord.mp h
    exact List.suffix_cons _ _
  | name =>
    obtain ⟨w, place, rfl, -⟩ := match?_name.mp h
    exact List.suffix_cons _ _
  | lifetime =>
    obtain ⟨mark, w, place, rfl, -⟩ := match?_lifetime.mp h
    exact (List.suffix_cons _ _).trans (List.suffix_cons _ _)

end Terminal

/-- Every phrase leaves a tail of the tokens. -/
def Meaning.GoesForward (meaning : Meaning) : Prop :=
  ∀ n closing trees reply, meaning n closing trees = .ok reply → reply.rest <:+ trees

/-- A rule leaves a tail of the tokens if the phrases that it calls do. -/
theorem Rule.run_suffix (hmeaning : meaning.GoesForward) {r : Rule α} {reply : Reply α}
    (h : r.run meaning closing trees = .ok reply) : reply.rest <:+ trees := by
  induction r generalizing closing trees with
  | done value =>
    cases h
    exact List.suffix_rfl
  | fail cause => cases h
  | failAt spot cause => cases h
  | sees sight after next ih => exact ih _ h
  | take t next ih =>
    simp only [Rule.run] at h
    split at h
    · cases h
    · rename_i taken rest hmatch
      split at h
      · cases h
      · rename_i a ha
        cases h
        exact (ih _ ha).trans (Terminal.match?_suffix hmatch)
  | takeGroup next ih =>
    unfold Rule.run at h
    split at h
    · split at h
      · cases h
      · rename_i a ha
        cases h
        exact (ih _ ha).trans (List.suffix_cons _ _)
    · cases h
  | takeRest next ih =>
    simp only [Rule.run] at h
    split at h
    · cases h
    · rename_i a ha
      cases h
      exact (ih ha).trans (List.nil_suffix)
  | inside d body next _ ih =>
    unfold Rule.run at h
    split at h
    · split at h
      · split at h
        · cases h
        · split at h
          · cases h
          · rename_i a ha
            cases h
            exact (ih _ ha).trans (List.suffix_cons _ _)
      · cases h
    · cases h
  | call n next ih =>
    simp only [Rule.run] at h
    split at h
    · cases h
    · rename_i a ha
      split at h
      · cases h
      · rename_i b hb
        cases h
        exact (ih _ hb).trans (hmeaning _ _ _ _ ha)
  | attempt body next ihbody ih =>
    simp only [Rule.run] at h
    split at h
    · exact ih _ h
    · rename_i a ha
      split at h
      · cases h
      · rename_i b hb
        cases h
        exact (ih _ hb).trans (ihbody ha)
  | foresee body next _ ih =>
    simp only [Rule.run] at h
    split at h
    · exact ih _ h
    · exact ih _ h
  | hold body next ihbody ih =>
    simp only [Rule.run] at h
    split at h
    · cases h
    · rename_i a ha
      split at h
      · cases h
      · rename_i b hb
        cases h
        exact (ih _ _ hb).trans (ihbody ha)
  | asWritten body keep next ihbody ih =>
    simp only [Rule.run] at h
    split at h
    · cases h
    · rename_i a ha
      split at h
      · cases h
      · rename_i b hb
        cases h
        exact (ih _ hb).trans (ihbody ha)
  | print ts next ih =>
    simp only [Rule.run] at h
    split at h
    · cases h
    · rename_i a ha
      cases h
      have hrest := ih ha
      exact hrest
  | place next ih => exact ih _ h
  | remaining next ih => exact ih _ h

/-- The phrases of a table of rules leave tails of the tokens. -/
theorem meaningOf_goesForward (rules : Nonterminal → Rule Shape) (depth : Nat) :
    (meaningOf rules depth).GoesForward := by
  induction depth with
  | zero =>
    intro n closing trees reply h
    cases h
  | succ depth ih =>
    intro n closing trees reply h
    exact Rule.run_suffix ih h

end KeyedModel.Grammar
