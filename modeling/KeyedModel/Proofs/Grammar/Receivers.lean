import KeyedModel.Proofs.Grammar.LoneFields
import KeyedModel.Proofs.Grammar.SteadyExpressions

/-!
# Receivers

The first parameter of a function is tried as a receiver before it is read as a pattern with a type.
So a receiver whose type is nested too deeply might be read as something else. It is not: the pattern
ends in front of the same colon, and then the same type must follow.
-/

namespace KeyedModel.Grammar

open Token (Tree Place Spacing)

set_option synthInstance.maxSize 10000000

variable {α β : Type} {meaning meaning' : Meaning} {closing : Place} {trees rest : List Tree}

namespace Rule

/-! ### Rules that need deeper calls -/

/-- The rule reads the tokens only if it may call phrases more deeply. -/
def Deepens (meaning meaning' : Meaning) (closing : Place) (r : Rule α) (trees : List Tree) : Prop :=
  (∃ e, r.run meaning closing trees = .error e) ∧ ∃ a, r.run meaning' closing trees = .ok a

/-- A rule that calls none does not. -/
theorem Callless.not_deepens {r : Rule α} (hr : r.Callless) :
    ¬ Deepens meaning meaning' closing r trees := by
  rintro ⟨⟨e, he⟩, a, ha⟩
  rw [hr.run_eq meaning meaning', ha] at he
  cases he

/-- The deeper calls are made by what follows. -/
theorem Deepens.of_bind {r : Rule α} {f : α → Rule β} (hr : r.Callless)
    (h : Deepens meaning meaning' closing (r >>= f) trees) :
    ∃ a, r.run meaning' closing trees = .ok a ∧ Deepens meaning meaning' closing (f a.value) a.rest := by
  obtain ⟨⟨e, he⟩, c, hc⟩ := h
  obtain ⟨a, b, ha, hb, -⟩ := run_bind_eq_ok.mp hc
  refine ⟨a, ha, ?_, b, hb⟩
  rw [run_bind, hr.run_eq meaning meaning', ha] at he
  cases hf : (f a.value).run meaning closing a.rest with
  | error e => exact ⟨e, rfl⟩
  | ok b => simp [hf] at he

theorem Deepens.of_bind_pure {r : Rule α} {b : β}
    (h : Deepens meaning meaning' closing (r >>= fun _ => pure b) trees) :
    Deepens meaning meaning' closing r trees := by
  obtain ⟨⟨e, he⟩, c, hc⟩ := h
  obtain ⟨a, -, ha, -⟩ := run_bind_eq_ok.mp hc
  refine ⟨?_, a, ha⟩
  rw [run_bind] at he
  cases hr : r.run meaning closing trees with
  | error e => exact ⟨e, rfl⟩
  | ok a => simp [hr] at he

/-- A receiver makes them for its type. -/
theorem deepens_receiver (h : Deepens meaning meaning' closing receiver trees) :
    ∃ front spot spacing colon more,
      (front = [] ∨ ∃ mark, front = [.ident "mut" mark]) ∧
      trees = front ++ .ident "self" spot :: .punct ':' spacing colon :: more ∧
      Deepens meaning meaning' closing (phrase_ (.type true)) more := by
  obtain ⟨borrowed, hborrowed, h⟩ := h.of_bind inferInstance
  rw [acceptOp, run_accept] at hborrowed
  split at hborrowed <;> cases hborrowed
  · have hcallless : (do
        let _ ← accept .lifetime
        let _ ← acceptWord "mut"
        let spot ← here
        word "self"
        return spot : Rule Place).Callless := inferInstance
    exact absurd h hcallless.not_deepens
  replace h : Deepens meaning meaning' closing (do
      let _ ← acceptWord "mut"
      let spot ← here
      word "self"
      if ← acceptOp ":" then phrase_ (.type true)
      return spot) trees := h
  obtain ⟨marked, hmarked, h⟩ := h.of_bind inferInstance
  have hfront : ∃ front, (front = [] ∨ ∃ mark, front = [.ident "mut" mark]) ∧
      trees = front ++ marked.rest := by
    rw [acceptWord, run_accept] at hmarked
    split at hmarked <;> cases hmarked
    · rename_i hmatch
      obtain ⟨mark, rfl, rfl⟩ := Terminal.match?_word.mp hmatch
      exact ⟨_, .inr ⟨mark, rfl⟩, rfl⟩
    · exact ⟨[], .inl rfl, rfl⟩
  obtain ⟨front, hmark, htrees⟩ := hfront
  obtain ⟨spot, hspot, h⟩ := h.of_bind inferInstance
  cases hspot
  obtain ⟨self, hself, h⟩ := h.of_bind inferInstance
  obtain ⟨taken, more, b, hmatch, hb, rfl⟩ := run_take_eq_ok.mp hself
  cases hb
  obtain ⟨place, hword, -⟩ := Terminal.match?_word.mp hmatch
  dsimp only at hword
  obtain ⟨typed, htyped, h⟩ := h.of_bind inferInstance
  rw [acceptOp, run_accept] at htyped
  split at htyped <;> cases htyped
  · rename_i behind hcolon
    obtain ⟨spacing, colon, hmore, -⟩ : ∃ spacing colon, more = .punct ':' spacing colon :: behind ∧ _ :=
      matchOp_singleton.mp hcolon
    rw [hword, hmore] at htrees
    exact ⟨front, place, spacing, colon, behind, hmark, htrees, h.of_bind_pure⟩
  · have hcallless : (pure (frontPlace closing marked.rest) : Rule Place).Callless := inferInstance
    exact absurd h hcallless.not_deepens

/-! ### Patterns that begin like receivers -/

/-- No type begins with another character than these. -/
theorem run_type_punct {plus : Bool} {c : Char} {spacing : Spacing} {place : Place}
    {reply : Reply Shape} (hc : c ∉ ['<', '*', '&', '!', '\''])
    (hseparator : (Sight.op "::").sees (.punct c spacing place :: rest) = false) :
    (Rule.type plus).run meaning closing (.punct c spacing place :: rest) ≠ .ok reply := by
  simp only [List.mem_cons, List.not_mem_nil, or_false, not_or] at hc
  obtain ⟨hless, hstar, hand, hbang, hquote⟩ := hc
  have hexpecting :
      (expecting typeHeads).run meaning closing (.punct c spacing place :: rest) ≠ .ok reply :=
    fun h => (returns_expecting (p := fun _ => False) _).out h
  have hop (d : Char) (hd : d ≠ c) (more : List Char) :
      matchOp (d :: more) (.punct c spacing place :: rest) = none := by
    cases more <;> cases spacing <;> simp [matchOp, hd]
  have hseparator : matchOp [':', ':'] (.punct c spacing place :: rest) = none :=
    Option.isSome_eq_false_iff.mp hseparator |> Option.isNone_iff_eq_none.mp
  have hlifetime : Terminal.lifetime.match? (.punct c spacing place :: rest) = none := by
    cases hmatch : Terminal.lifetime.match? (.punct c spacing place :: rest) with
    | none => rfl
    | some r =>
      obtain ⟨_, _, _, heq, -⟩ := Terminal.match?_lifetime.mp hmatch
      cases heq
      exact absurd rfl hquote
  have hword (f : Bool → Rule Shape) : (accept (Terminal.word "_") >>= f).run meaning closing (.punct c spacing place :: rest) = (f false).run meaning closing (.punct c spacing place :: rest) := run_accept_bind rfl f
  simp only [Terminal.match?] at hlifetime
  unfold Rule.type
  simpa [Sight.sees, Terminal.match?, pathWords, acceptOp, acceptWord, run_accept_bind, hop, hword,
    hseparator, Ne.symm hless, Ne.symm hstar, Ne.symm hand, Ne.symm hbang, hlifetime] using hexpecting

/-- A pattern that may be a receiver ends in front of a colon, unless a path goes on there. -/
theorem run_pattern_self {spot colon : Place} {spacing : Spacing}
    (hseparator : (Sight.op "::").sees (.punct ':' spacing colon :: rest) = false) :
    pattern.run meaning closing (.ident "self" spot :: .punct ':' spacing colon :: rest) =
      .ok ⟨.plain, [.ident "self" spot], .punct ':' spacing colon :: rest, none⟩ := by
  have hpath : startsPathPattern.run meaning closing
      (.ident "self" spot :: .punct ':' spacing colon :: rest) =
        .ok ⟨false, [], .ident "self" spot :: .punct ':' spacing colon :: rest, none⟩ := by
    have hsecond : (Sight.op "::").seesAfter 1
        (.ident "self" spot :: .punct ':' spacing colon :: rest) = false := hseparator
    have hname : Sight.name.sees (.ident "self" spot :: .punct ':' spacing colon :: rest) = false :=
      rfl
    rw [startsPathPattern, run_next_bind, hname]
    simp only [Bool.false_eq_true, if_false]
    rw [run_next_bind, run_second_bind, hsecond]
    rfl
  rw [pattern, run_bind_of_silent hpath]
  cases spacing <;> rfl

theorem run_pattern_mut {mark spot colon : Place} {spacing : Spacing} :
    pattern.run meaning closing
        (.ident "mut" mark :: .ident "self" spot :: .punct ':' spacing colon :: rest) =
      .ok ⟨.plain, [.ident "mut" mark, .ident "self" spot], .punct ':' spacing colon :: rest,
        none⟩ := by
  cases spacing <;> rfl

/-- A third colon is no path. -/
theorem run_pattern_colons {spot colon : Place} {spacing : Spacing} {reply : Reply Shape}
    (hfirst : (Sight.op "::").sees (.punct ':' spacing colon :: rest) = true)
    (hsecond : (Sight.op "::").sees rest = true) :
    pattern.run meaning closing (.ident "self" spot :: .punct ':' spacing colon :: rest) ≠ .ok reply := by
  obtain ⟨⟨_, more⟩, hmore⟩ := Option.isSome_iff_exists.mp hsecond
  obtain ⟨second, spacing', third, rfl, -⟩ := matchOp_separator.mp hmore
  obtain ⟨⟨_, _⟩, hmatch⟩ := Option.isSome_iff_exists.mp hfirst
  obtain ⟨first, _, _, hfront, -⟩ := matchOp_separator.mp hmatch
  cases hfront
  intro h
  cases h

/-! ### Parameters -/

/-- A rule that is tried first, and whose deeper calls would not help what is read instead. -/
theorem steady_attempt {body : Rule α} {f : Option α → Rule β} (hbody : body.Steady false)
    (hsome : ∀ a, (f (some a)).Steady false) (hnone : (f none).Steady false)
    (hdeep : ∀ {meaning meaning' closing trees reply}, meaning.Deeper meaning' →
      Deepens meaning meaning' closing body trees → (f none).run meaning closing trees ≠ .ok reply) :
    (.attempt body .done >>= f).Steady false where
  leads meaning meaning' closing front tail tail' back reply hmeaning htail hreach h hrest := by
    have hbind : (.attempt body .done >>= f) = .attempt body f := rfl
    have hfailed {meaning : Meaning} {trees : List Tree} {e : SyntaxError}
        (hbody : body.run meaning closing trees = .error e) :
        (.attempt body .done >>= f).run meaning closing trees =
          (f none).run meaning closing trees := by
      simp only [hbind, Rule.run, hbody]
    have hread {meaning : Meaning} {trees : List Tree} {a : Reply α}
        (hbody : body.run meaning closing trees = .ok a) :
        (.attempt body .done >>= f).run meaning closing trees =
          (body >>= fun a => f (some a)).run meaning closing trees := by
      cases hnext : (f (some a.value)).run meaning closing a.rest <;>
        simp only [hbind, Rule.run, run_bind, hbody, hnext, Reply.after]
    cases htail with
    | comma hlisted => cases hlisted
    | nothing =>
    cases hbody' : body.run meaning closing (front ++ []) with
    | ok a =>
      have hfirst := hbody.leads hmeaning .nothing trivial hbody' (List.append_nil _).symm
      rw [hread hbody'] at h
      rw [hread hfirst]
      exact (steady_bind hbody hsome).leads hmeaning .nothing hreach h hrest
    | error e =>
      rw [hfailed hbody'] at h
      have hsecond := hnone.leads hmeaning .nothing hreach h hrest
      cases hdeeper : body.run meaning' closing (front ++ []) with
      | error e =>
        rw [hfailed hdeeper]
        exact hsecond
      | ok a => exact absurd h (hdeep hmeaning ⟨⟨e, hbody'⟩, a, hdeeper⟩)

/-- Calling another rule and forgetting its value. -/
theorem run_phrase_unit_eq_ok {n : Nonterminal} {reply : Reply Unit} :
    (phrase_ n).run meaning closing trees = .ok reply ↔
      ∃ r, meaning n closing trees = .ok r ∧ reply = ⟨(), r.printed, r.rest, r.stray⟩ := by
  rw [phrase_, Rule.run]
  cases meaning n closing trees with
  | error e => simp
  | ok r => simp [Rule.run, Reply.after, eq_comm]

/-- A type is read that begins with neither a lone colon nor a dot. -/
theorem Deepens.type_front (hmeaning : meaning.Deeper meaning')
    (h : Deepens meaning meaning' closing (phrase_ (.type true)) trees) {c : Char}
    (hc : c = ':' ∨ c = '.') (hseparator : (Sight.op "::").sees trees = false) :
    ∀ spacing place rest, trees ≠ .punct c spacing place :: rest := by
  rintro spacing place rest rfl
  obtain ⟨-, a, ha⟩ := h
  obtain ⟨depth, rfl⟩ := hmeaning.exists_depth'
  obtain ⟨r, hr, -⟩ := run_phrase_unit_eq_ok.mp ha
  cases depth with
  | zero => cases hr
  | succ depth =>
    refine absurd hr (run_type_punct ?_ hseparator)
    rcases hc with rfl | rfl <;> decide

instance : receiver.Steady false := by unfold receiver; infer_instance

instance : parameter.Steady false := by
  unfold parameter
  refine steady_attempt inferInstance (fun _ => inferInstance) (by dsimp only; infer_instance) ?_
  intro meaning meaning' closing trees reply hmeaning hdeepens h
  obtain ⟨front, spot, spacing, colon, more, hfront, rfl, htype⟩ := deepens_receiver hdeepens
  have hname : Sight.name.sees (front ++ .ident "self" spot :: .punct ':' spacing colon :: more) =
      false := by
    rcases hfront with rfl | ⟨mark, rfl⟩ <;> rfl
  dsimp only at h
  rw [run_next_bind, run_second_bind, hname] at h
  simp only [Bool.false_and, Bool.false_eq_true, if_false] at h
  obtain ⟨p, b, hp, hb, -⟩ := run_bind_eq_ok.mp h
  have hpattern : p.rest = .punct ':' spacing colon :: more := by
    obtain ⟨depth, rfl⟩ := hmeaning.exists_depth
    obtain ⟨r, hr, rfl⟩ := run_phrase_unit_eq_ok.mp hp
    cases depth with
    | zero => cases hr
    | succ depth =>
      change pattern.run _ _ _ = _ at hr
      rcases hfront with rfl | ⟨mark, rfl⟩
      · cases hfirst : (Sight.op "::").sees (.punct ':' spacing colon :: more) with
        | false =>
          cases (run_pattern_self hfirst).symm.trans hr
          rfl
        | true =>
          obtain ⟨⟨_, _⟩, hmatch⟩ := Option.isSome_iff_exists.mp hfirst
          obtain ⟨_, spacing', second, hmore, -⟩ := matchOp_separator.mp hmatch
          cases hmore
          cases hsecond : (Sight.op "::").sees (.punct ':' spacing' second :: _) with
          | false => exact absurd rfl (htype.type_front hmeaning (.inl rfl) hsecond _ _ _)
          | true => exact absurd hr (run_pattern_colons hfirst hsecond)
      · cases run_pattern_mut.symm.trans hr
        rfl
  rw [hpattern] at hb
  obtain ⟨c, d, hc, hd, -⟩ := run_bind_eq_ok.mp hb
  obtain ⟨taken, rest, e, hmatch, he, rfl⟩ := run_take_eq_ok.mp hc
  cases he
  obtain ⟨_, _, hrest, -⟩ := matchOp_singleton.mp hmatch
  cases hrest
  obtain ⟨g, k, hg, hk, -⟩ := run_bind_eq_ok.mp hd
  rw [acceptOp, run_accept] at hg
  split at hg <;> cases hg
  · rename_i hdots
    have hop : matchOp ['.', '.', '.'] more = some _ := hdots
    obtain ⟨used, rfl, -, hchars⟩ := matchOp_append hop
    cases used with
    | nil => exact absurd (matchOp_lt hop) (Nat.lt_irrefl _)
    | cons t used =>
      obtain ⟨c, hdot, spacing', dot, rfl⟩ := hchars t List.mem_cons_self
      obtain rfl : c = '.' := by simpa using hdot
      refine absurd rfl (htype.type_front hmeaning (.inr rfl) ?_ _ _ _)
      cases spacing' <;> rfl
  · obtain ⟨r, -, hr, -⟩ := run_bind_eq_ok.mp hk
    obtain ⟨⟨error, herror⟩, -⟩ := htype
    cases herror.symm.trans hr

end Rule

end KeyedModel.Grammar
