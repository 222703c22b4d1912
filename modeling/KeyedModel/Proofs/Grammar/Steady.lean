import KeyedModel.Proofs.Grammar.Commas

/-!
# Reading in front of a comma

What is read from an element of a list does not change with what stands behind the comma that
follows the element: rules look at that comma, but never beyond it. Nor does it change when phrases
may be nested more deeply.

Both are said of two runs at once, and of single steps that rules are put together from. Whether a
rule is steady is a class, and instances find it for a rule from its parts. A rule that looks beyond
the next token does so only behind a token that cannot be the comma, so such steps are steady only
past a number of tokens.
-/

namespace KeyedModel.Grammar

open Token (Tree Place Delimiter)

variable {α β σ : Type} {listed : Bool} {front back tail tail' trees taken rest : List Tree}

/-! ### Rules -/

/-- Whether phrases of this kind are read where a list goes on behind them. -/
def Nonterminal.isListed : Nonterminal → Bool
  | .type _ | .genericArguments | .pattern | .patterns | .expr _ | .operand _ | .exprFrom _ _ _
  | .rightOperand _ _ => true
  | _ => false

/-- The second meaning may call phrases more deeply. What the first one reads in front of a comma it
reads there too, whatever stands behind the comma. -/
structure Meaning.Deeper (meaning meaning' : Meaning) : Prop where
  exists_depth : ∃ depth, meaning = meaningOf rules depth
  exists_depth' : ∃ depth, meaning' = meaningOf rules depth
  run_eq : ∀ {listed : Bool} {n : Nonterminal} {closing : Place} {front tail tail' back : List Tree}
    {reply : Reply Shape}, (listed = true → n.isListed = true) → Behind listed tail tail' →
      meaning n closing (front ++ tail) = .ok reply → reply.rest = back ++ tail →
        meaning' n closing (front ++ tail') = .ok { reply with rest := back ++ tail' }

theorem Meaning.Deeper.goesForward {meaning meaning' : Meaning} (h : meaning.Deeper meaning') :
    meaning.GoesForward := by
  obtain ⟨depth, rfl⟩ := h.exists_depth
  exact meaningOf_goesForward rules depth

namespace Rule

variable {ahead : Nat}

/-- Where so many tokens stand in front of a comma, what the first rule reads up to there the second
one reads with anything behind the comma, if it may call phrases more deeply. -/
def Leads (listed : Bool) (ahead : Nat) (r r' : Rule α) : Prop :=
  ∀ ⦃meaning meaning' : Meaning⦄ ⦃closing : Place⦄ ⦃front tail tail' back : List Tree⦄
    ⦃reply : Reply α⦄, meaning.Deeper meaning' → Behind listed tail tail' → Reaches ahead front →
      r.run meaning closing (front ++ tail) = .ok reply → reply.rest = back ++ tail →
        r'.run meaning' closing (front ++ tail') = .ok { reply with rest := back ++ tail' }

/-- Where so many tokens stand in front of a comma, what the rule reads up to there does not change
with what stands behind the comma. -/
class SteadyPast (listed : Bool) (ahead : Nat) (r : Rule α) : Prop where
  leads : r.Leads listed ahead r

/-- What the rule reads in front of a comma does not change with what stands behind the comma. -/
abbrev Steady (listed : Bool) (r : Rule α) : Prop := r.SteadyPast listed 0

/-! ### Failing -/

/-- The rule always fails. -/
class Fruitless (r : Rule α) : Prop where
  run_error : ∀ (meaning : Meaning) (closing : Place) (trees : List Tree),
    ∃ e, r.run meaning closing trees = .error e

instance (cause : Cause) : (.fail cause : Rule α).Fruitless := ⟨fun _ _ _ => ⟨_, rfl⟩⟩

instance (spot : Place) (cause : Cause) : (.failAt spot cause : Rule α).Fruitless :=
  ⟨fun _ _ _ => ⟨_, rfl⟩⟩

instance {r : Rule α} {f : α → Rule β} [hr : r.Fruitless] : (r >>= f).Fruitless where
  run_error meaning closing trees := by
    obtain ⟨e, he⟩ := hr.run_error meaning closing trees
    exact ⟨e, by rw [run_bind, he]⟩

instance {r : Rule α} {f : α → Rule β} [hf : ∀ a, (f a).Fruitless] : (r >>= f).Fruitless where
  run_error meaning closing trees := by
    rw [run_bind]
    rcases r.run meaning closing trees with e | a
    · exact ⟨e, rfl⟩
    · obtain ⟨e, he⟩ := (hf a.value).run_error meaning closing a.rest
      exact ⟨e, by simp only [he]⟩

instance (priority := high) {r : Rule (α × β)} {f : α × β → Rule σ}
    [hf : ∀ a b, (f (a, b)).Fruitless] : (r >>= f).Fruitless :=
  have (v : α × β) : (f v).Fruitless := hf v.1 v.2
  inferInstance

instance {c : Prop} [Decidable c] {r s : Rule α} [r.Fruitless] [s.Fruitless] :
    (if c then r else s).Fruitless := by
  split <;> infer_instance

instance (known : List Expected) (sights : List Sight) :
    (expectingFrom known sights : Rule α).Fruitless := by
  induction sights generalizing known <;> unfold expectingFrom <;> infer_instance

/-- What is never read does not change. -/
theorem SteadyPast.of_fruitless {r : Rule α} (hr : r.Fruitless) : r.SteadyPast listed ahead where
  leads meaning _ closing front tail _ _ _ _ _ _ h := by
    obtain ⟨e, he⟩ := hr.run_error meaning closing (front ++ tail)
    rw [he] at h
    cases h

instance (cause : Cause) : (.fail cause : Rule α).SteadyPast listed ahead :=
  .of_fruitless inferInstance

instance (spot : Place) (cause : Cause) : (.failAt spot cause : Rule α).SteadyPast listed ahead :=
  .of_fruitless inferInstance

instance (sights : List Sight) : (expecting sights : Rule α).SteadyPast listed ahead :=
  .of_fruitless (inferInstanceAs (expectingFrom [] sights).Fruitless)

instance (text : String) : (expectingPhrase text : Rule α).SteadyPast listed ahead :=
  .of_fruitless (inferInstanceAs (Fruitless (.fail _)))

instance : (unfit : Rule α).SteadyPast listed ahead := by
  refine .of_fruitless ?_
  unfold unfit
  have hgroup (found : Option (Delimiter × List Tree)) : Fruitless (match found with
      | some (_, trees) => .failAt (extent trees) (.leftover none)
      | none => do .failAt (← here) (.leftover none) : Rule α) := by
    cases found <;> infer_instance
  infer_instance

/-! ### Rules in a row -/

theorem SteadyPast.of_steady {r : Rule α} (hr : r.Steady listed) : r.SteadyPast listed ahead where
  leads _ _ _ _ _ _ _ _ hmeaning htail _ := hr.leads hmeaning htail trivial

theorem leads_bind {r r' : Rule α} {f f' : α → Rule β} (hr : r.Leads listed ahead r')
    (hf : ∀ a, (f a).Leads listed 0 (f' a)) : (r >>= f).Leads listed ahead (r' >>= f') := by
  intro meaning meaning' closing front tail tail' back reply hmeaning htail hreach h hrest
  obtain ⟨a, b, ha, hb, rfl⟩ := run_bind_eq_ok.mp h
  obtain ⟨middle, hmiddle⟩ := run_suffix hmeaning.goesForward hb
  change b.rest = _ at hrest
  rw [hrest, ← List.append_assoc] at hmiddle
  have hfirst := hr hmeaning htail hreach ha hmiddle.symm
  rw [← hmiddle] at hb
  exact run_bind_eq_ok.mpr ⟨_, _, hfirst, hf a.value hmeaning htail trivial hb hrest, rfl⟩

/-- One rule after another. -/
theorem steady_bind {r : Rule α} {f : α → Rule β} (hr : r.SteadyPast listed ahead)
    (hf : ∀ a, (f a).Steady listed) : (r >>= f).SteadyPast listed ahead where
  leads := leads_bind hr.leads fun a => (hf a).leads

instance {r : Rule α} {f : α → Rule β} [hr : r.Steady listed] [hf : ∀ a, (f a).Steady listed] :
    (r >>= f).Steady listed :=
  steady_bind hr hf

/-- A rule whose value is taken apart into two. -/
instance (priority := high) {r : Rule (α × β)} {f : α × β → Rule σ} [hr : r.Steady listed]
    [hf : ∀ a b, (f (a, b)).Steady listed] : (r >>= f).Steady listed :=
  steady_bind hr fun (a, b) => hf a b

/-- A rule whose value is taken apart into three. -/
instance (priority := 10001) {γ : Type} {r : Rule (α × β × γ)} {f : α × β × γ → Rule σ}
    [hr : r.Steady listed] [hf : ∀ a b c, (f (a, b, c)).Steady listed] : (r >>= f).Steady listed :=
  steady_bind hr fun (a, b, c) => hf a b c

/-- A rule whose value may be missing. -/
instance (priority := high) {r : Rule (Option α)} {f : Option α → Rule β} [hr : r.Steady listed]
    [hsome : ∀ a, (f (some a)).Steady listed] [hnone : (f none).Steady listed] :
    (r >>= f).Steady listed :=
  steady_bind hr fun
    | some a => hsome a
    | none => hnone

instance {c : Prop} [Decidable c] {r s : Rule α} [r.SteadyPast listed ahead]
    [s.SteadyPast listed ahead] : (if c then r else s).SteadyPast listed ahead := by
  split <;> infer_instance

/-! ### Single steps -/

instance (a : α) : (.done a : Rule α).SteadyPast listed ahead where
  leads _ _ _ _ _ _ _ _ _ htail _ h hrest := by
    cases h
    obtain rfl := List.append_cancel_right hrest
    rfl

instance (a : α) : (pure a : Rule α).SteadyPast listed ahead :=
  inferInstanceAs (SteadyPast listed ahead (.done a))

/-- A sight that is looked for at tokens in front of the comma, or at the comma itself, is seen in
both runs. -/
theorem steady_sees (s : Sight) [hs : s.Near] {far : Nat} (hfar : far ≤ ahead) {f : Bool → Rule α}
    (hf : ∀ b, (f b).SteadyPast listed ahead) :
    (.sees s far .done >>= f).SteadyPast listed ahead where
  leads meaning meaning' closing front tail tail' _ _ hmeaning htail hreach h hrest := by
    have hrun (meaning : Meaning) (trees : List Tree) :
        (.sees s far .done >>= f : Rule α).run meaning closing trees =
          (f (s.seesAfter far trees)).run meaning closing trees := rfl
    rw [hrun] at h ⊢
    rw [← hs.seesAfter_eq htail (hreach.mono hfar)]
    exact (hf _).leads hmeaning htail hreach h hrest

/-- A sight that is seen is one more token in front of the comma. -/
theorem steady_seen (s : Sight) [hs : s.Inner] {f : Bool → Rule α}
    (htrue : (f true).SteadyPast listed (ahead + 1)) (hfalse : (f false).SteadyPast listed ahead) :
    (.sees s ahead .done >>= f).SteadyPast listed ahead where
  leads meaning meaning' closing front tail tail' _ _ hmeaning htail hreach h hrest := by
    have hrun (meaning : Meaning) (trees : List Tree) :
        (.sees s ahead .done >>= f : Rule α).run meaning closing trees =
          (f (s.seesAfter ahead trees)).run meaning closing trees := rfl
    rw [hrun] at h ⊢
    rw [← hs.toNear.seesAfter_eq htail hreach]
    cases hsees : s.seesAfter ahead (front ++ tail) with
    | true =>
      rw [hsees] at h
      exact htrue.leads hmeaning htail (hs.reaches htail hreach hsees) h hrest
    | false =>
      rw [hsees] at h
      exact hfalse.leads hmeaning htail hreach h hrest

/-- The rule looks at tokens, and neither takes one nor fails. -/
class Looks (r : Rule α) : Prop where
  run_ok : ∀ (meaning : Meaning) (closing : Place) (trees : List Tree),
    ∃ a, r.run meaning closing trees = .ok ⟨a, [], trees, none⟩

instance (a : α) : (pure a : Rule α).Looks := ⟨fun _ _ _ => ⟨a, rfl⟩⟩
instance (s : Sight) (far : Nat) : (.sees s far .done : Rule Bool).Looks := ⟨fun _ _ _ => ⟨_, rfl⟩⟩
instance (s : Sight) : (second s).Looks := ⟨fun _ _ _ => ⟨_, rfl⟩⟩
instance (s : Sight) : (third s).Looks := ⟨fun _ _ _ => ⟨_, rfl⟩⟩
instance (s : Sight) : (next s).Looks := ⟨fun _ _ _ => ⟨_, rfl⟩⟩

instance {r : Rule α} {f : α → Rule β} [hr : r.Looks] [hf : ∀ a, (f a).Looks] :
    (r >>= f).Looks where
  run_ok meaning closing trees := by
    obtain ⟨a, ha⟩ := hr.run_ok meaning closing trees
    rw [run_bind_of_silent ha]
    exact (hf a).run_ok meaning closing trees

instance {c : Prop} [Decidable c] {r s : Rule α} [r.Looks] [s.Looks] :
    (if c then r else s).Looks := by
  split <;> infer_instance

/-- Where it does not matter what is seen, a rule may look beyond the comma. -/
theorem steady_unseen {r : Rule α} [hr : r.Looks] {s : Rule β} (hs : s.SteadyPast listed ahead) :
    (r >>= fun _ => s).SteadyPast listed ahead where
  leads meaning meaning' closing front tail tail' _ _ hmeaning htail hreach h hrest := by
    obtain ⟨a, ha⟩ := hr.run_ok meaning closing (front ++ tail)
    obtain ⟨a', ha'⟩ := hr.run_ok meaning' closing (front ++ tail')
    rw [run_bind_of_silent ha] at h
    rw [run_bind_of_silent ha']
    exact hs.leads hmeaning htail hreach h hrest

instance (s : Sight) [s.Near] : (next s).Steady listed :=
  steady_sees s (Nat.le_refl 0) fun b => inferInstanceAs ((.done b : Rule Bool).Steady listed)

/-- At the end of a group nothing stands behind what is read. -/
instance (s : Sight) (far : Nat) : (.sees s far .done : Rule Bool).Steady false where
  leads _ _ _ _ _ _ _ _ _ htail _ h hrest := by
    cases htail with
    | nothing =>
      cases h
      rw [← hrest]
      rfl
    | comma hlisted => cases hlisted

instance (s : Sight) : (second s).Steady false := inferInstanceAs ((sees s 1 .done).Steady false)
instance (s : Sight) : (third s).Steady false := inferInstanceAs ((sees s 2 .done).Steady false)

/-- The token behind the next one matters only behind one that is not the comma. -/
theorem steady_second (s s' : Sight) [s.Inner] [s'.Near] {f : Bool → Bool → Rule α}
    (hunseen : ∀ b c, f false b = f false c) (hf : ∀ a b, (f a b).Steady listed) :
    (next s >>= fun a => second s' >>= f a).Steady listed := by
  refine steady_seen s (steady_sees s' (Nat.le_refl 1) fun b => .of_steady (hf true b)) ?_
  rw [show f false = fun _ => f false false from funext fun b => hunseen b false]
  exact steady_unseen (hf false false)

theorem steady_second_either (s u v : Sight) [s.Inner] [u.Near] [v.Near]
    {f : Bool → Bool → Bool → Rule α} (hunseen : ∀ b c b' c', f false b c = f false b' c')
    (hf : ∀ a b c, (f a b c).Steady listed) :
    (next s >>= fun a => second u >>= fun b => second v >>= f a b).Steady listed := by
  refine steady_seen s (steady_sees u (Nat.le_refl 1) fun b =>
    steady_sees v (Nat.le_refl 1) fun c => .of_steady (hf true b c)) ?_
  rw [show f false = fun _ _ => f false false false from
    funext fun b => funext fun c => hunseen b c false false]
  exact steady_unseen (steady_unseen (hf false false false))

/-- Behind a separator there are two tokens more in front of the comma. -/
theorem steady_separator {f : Bool → Rule α}
    (htrue : (f true).SteadyPast listed 2) (hfalse : (f false).SteadyPast listed ahead) :
    (next (.op "::") >>= f).SteadyPast listed ahead where
  leads meaning meaning' closing front tail tail' _ _ hmeaning htail hreach h hrest := by
    rw [run_next_bind] at h ⊢
    rw [← Sight.Near.sees_eq htail]
    cases hsees : (Sight.op "::").sees (front ++ tail) with
    | true =>
      rw [hsees] at h
      exact htrue.leads hmeaning htail (Sight.reaches_separator htail hsees) h hrest
    | false =>
      rw [hsees] at h
      exact hfalse.leads hmeaning htail hreach h hrest

/-- The token behind the next two matters only behind a separator. -/
theorem steady_third (s : Sight) [s.Near] {f : Bool → Bool → Rule α}
    (hunseen : ∀ b c, f false b = f false c) (hf : ∀ a b, (f a b).Steady listed) :
    (next (.op "::") >>= fun a => third s >>= f a).Steady listed := by
  refine steady_separator
    (steady_sees s (Nat.le_refl 2) fun b => .of_steady (hf true b)) ?_
  rw [show f false = fun _ => f false false from funext fun b => hunseen b false]
  exact steady_unseen (hf false false)

/-- A sight that is not the beginning of another one is a token in front of the comma. -/
theorem steady_nextBut (s other : Sight) [s.Inner] [other.Near] {f : Bool → Rule α}
    (htrue : (f true).SteadyPast listed 1) (hfalse : (f false).Steady listed) :
    (nextBut s other >>= f).Steady listed := by
  change (next s >>= fun seen => next other >>= fun longer => f (seen && !longer)).Steady listed
  refine steady_seen s (steady_sees other (Nat.zero_le 1) fun longer => ?_) (steady_unseen hfalse)
  cases longer with
  | true => exact .of_steady hfalse
  | false => exact htrue

instance : here.Steady listed where
  leads _ _ _ _ _ _ _ _ _ htail _ h hrest := by
    cases h
    obtain rfl := List.append_cancel_right hrest
    simp [here, Rule.run, htail.frontPlace_eq]

/-- Calling another rule. -/
theorem steady_phrase {n : Nonterminal} (hn : listed = true → n.isListed = true) :
    (phrase n).Steady listed where
  leads _ _ _ _ _ _ _ _ hmeaning htail _ h hrest := by
    rw [run_phrase] at h ⊢
    exact hmeaning.run_eq hn htail h hrest

instance (n : Nonterminal) : (phrase n).Steady false := steady_phrase fun h => by cases h
instance (plus : Bool) : (phrase (.type plus)).Steady listed := steady_phrase fun _ => rfl
instance : (phrase .genericArguments).Steady listed := steady_phrase fun _ => rfl
instance : (phrase .pattern).Steady listed := steady_phrase fun _ => rfl
instance : (phrase .patterns).Steady listed := steady_phrase fun _ => rfl
instance (braces : Bool) : (phrase (.expr braces)).Steady listed := steady_phrase fun _ => rfl
instance (braces : Bool) : (phrase (.operand braces)).Steady listed := steady_phrase fun _ => rfl

instance (left : Shape) (base : Precedence) (braces : Bool) :
    (phrase (.exprFrom left base braces)).Steady listed := steady_phrase fun _ => rfl

instance (precedence : Precedence) (braces : Bool) :
    (phrase (.rightOperand precedence braces)).Steady listed := steady_phrase fun _ => rfl

instance (n : Nonterminal) [(phrase n).Steady listed] : (phrase_ n).Steady listed :=
  inferInstanceAs ((phrase n >>= fun _ => pure ()).Steady listed)

/-- The inside of a group ends with the group, whatever stands behind that. -/
instance (d : Delimiter) (body : Rule α) [hbody : body.Steady false] :
    (within d body).Steady listed where
  leads _ _ _ _ _ _ _ _ hmeaning htail _ h hrest := by
    obtain ⟨opening, inner, closed, rest, a, htrees, ha, rfl⟩ := run_within_eq_ok.mp h
    obtain ⟨more, rfl, rfl⟩ := htail.group_eq htrees
    obtain rfl := List.append_cancel_right hrest
    rw [← List.append_nil inner] at ha
    have hinner := hbody.leads hmeaning .nothing trivial ha (List.append_nil _).symm
    rw [List.append_nil, List.append_nil] at hinner
    exact run_within_eq_ok.mpr ⟨opening, inner, closed, _, a, rfl, hinner, rfl⟩

instance (body : Rule α) [hbody : body.Steady listed] : (held body).Steady listed where
  leads _ _ _ _ _ _ _ _ hmeaning htail _ h hrest := by
    obtain ⟨a, ha, rfl⟩ := run_held_eq_ok.mp h
    exact run_held_eq_ok.mpr ⟨_, hbody.leads hmeaning htail trivial ha hrest, rfl⟩

instance (body : Rule α) [body.Steady listed] : (silently body).Steady listed :=
  inferInstanceAs ((held body >>= fun (a, _) => pure a).Steady listed)

/-- What is kept as it was written stands in front of the comma. -/
instance (keep : α → Bool) (body : Rule α) [hbody : body.Steady listed] :
    (writtenIf keep body).Steady listed where
  leads _ _ _ front tail tail' back _ hmeaning htail _ h hrest := by
    obtain ⟨a, ha, rfl⟩ := run_writtenIf_eq_ok.mp h
    obtain ⟨used, hused⟩ := run_suffix hmeaning.goesForward ha
    rw [hrest, ← List.append_assoc] at hused
    obtain rfl := List.append_cancel_right hused
    have hwritten (other : List Tree) : writtenBefore (used ++ back ++ other) (back ++ other) = used := by
      simp [writtenBefore]
    refine run_writtenIf_eq_ok.mpr ⟨_, hbody.leads hmeaning htail trivial ha hrest, ?_⟩
    change a.rest = _ at hrest
    simp only [hrest, hwritten]

instance (body : Rule α) [body.Steady listed] : (written body).Steady listed :=
  inferInstanceAs ((writtenIf _ body).Steady listed)

instance (trees : List Tree) : (emit trees).Steady listed where
  leads _ _ _ _ _ _ _ _ _ _ _ h hrest := by
    cases h
    obtain rfl := List.append_cancel_right hrest
    rfl

instance : anyGroup.Steady listed where
  leads _ _ _ _ _ _ _ _ _ htail _ h hrest := by
    unfold anyGroup Rule.run at h
    split at h
    · rename_i htrees
      cases h
      obtain ⟨more, rfl, rfl⟩ := htail.group_eq htrees
      obtain rfl := List.append_cancel_right hrest
      rfl
    · cases h

/-- Everything is taken only where no list goes on. -/
instance : everything.Steady listed where
  leads _ _ _ _ _ _ _ _ _ htail _ h hrest := by
    cases h
    obtain ⟨rfl, rfl⟩ := List.append_eq_nil_iff.mp hrest.symm
    cases htail
    rfl

/-! ### Taking terminals -/

instance (t : Terminal) : (token t).Steady listed where
  leads _ _ _ _ _ _ _ _ _ htail _ h hrest := by
    obtain ⟨taken, rest, b, hmatch, hb, rfl⟩ := run_take_eq_ok.mp h
    cases hb
    subst hrest
    obtain ⟨used, -, heq, hused, -⟩ := Terminal.match?_append hmatch
    rw [← List.append_assoc] at heq
    obtain rfl := List.append_cancel_right heq
    rw [List.append_assoc]
    exact run_take_eq_ok.mpr ⟨taken, _, _, hused _, rfl, rfl⟩

instance (t : Terminal) (f : List Tree → Rule α) [∀ taken, (f taken).Steady listed] :
    (.take t f : Rule α).Steady listed :=
  inferInstanceAs ((token t >>= f).Steady listed)

instance (chars : String) : (op chars).Steady listed := by unfold op; infer_instance
instance (w : String) : (word w).Steady listed := by unfold word; infer_instance
instance : name.Steady listed := by unfold name; infer_instance
instance : anyWord.Steady listed := by unfold anyWord; infer_instance
instance : lifetime.Steady listed := by unfold lifetime; infer_instance
instance : literal.Steady listed := by unfold literal; infer_instance

instance (t : Terminal) [(Sight.terminal t).Near] : (accept t).Steady listed := by
  unfold accept; infer_instance

instance (w : String) : (acceptWord w).Steady listed := by unfold acceptWord; infer_instance

instance (chars : String) [(Sight.op chars).Near] : (acceptOp chars).Steady listed := by
  unfold acceptOp; infer_instance

instance : (acceptAny []).Steady listed := by unfold acceptAny; infer_instance

instance (chars : String) (rest : List String) [(Sight.op chars).Near]
    [(acceptAny rest).Steady listed] : (acceptAny (chars :: rest)).Steady listed := by
  unfold acceptAny; infer_instance

/-! ### Looking ahead and failing -/

instance (sight other : Sight) [sight.Near] [other.Near] : (nextBut sight other).Steady listed := by
  unfold nextBut; infer_instance

instance : (nextAny []).Steady listed := by unfold nextAny; infer_instance

instance (s : Sight) (rest : List Sight) [s.Near] [(nextAny rest).Steady listed] :
    (nextAny (s :: rest)).Steady listed := by
  unfold nextAny; infer_instance

/-! ### Reading ahead -/

/-- What the rule reads does not depend on the phrases. -/
class Callless (r : Rule α) : Prop where
  run_eq : ∀ (meaning meaning' : Meaning) (closing : Place) (trees : List Tree),
    r.run meaning closing trees = r.run meaning' closing trees

instance {r : Rule α} {f : α → Rule β} [hr : r.Callless] [hf : ∀ a, (f a).Callless] :
    (r >>= f).Callless where
  run_eq meaning meaning' closing trees := by
    simp only [run_bind, hr.run_eq meaning meaning', fun a => (hf a).run_eq meaning meaning']

instance {c : Prop} [Decidable c] {r s : Rule α} [r.Callless] [s.Callless] :
    (if c then r else s).Callless := by
  split <;> infer_instance

instance (a : α) : (pure a : Rule α).Callless := ⟨fun _ _ _ _ => rfl⟩
instance (cause : Cause) : (.fail cause : Rule α).Callless := ⟨fun _ _ _ _ => rfl⟩
instance (s : Sight) : (next s).Callless := ⟨fun _ _ _ _ => rfl⟩
instance (s : Sight) : (second s).Callless := ⟨fun _ _ _ _ => rfl⟩
instance (s : Sight) : (third s).Callless := ⟨fun _ _ _ _ => rfl⟩
instance : here.Callless := ⟨fun _ _ _ _ => rfl⟩

instance (t : Terminal) (f : List Tree → Rule α) [hf : ∀ taken, (f taken).Callless] :
    (.take t f : Rule α).Callless where
  run_eq meaning meaning' closing trees := by
    simp only [Rule.run, fun taken => (hf taken).run_eq meaning meaning']

instance (d : Delimiter) (body : Rule α) [hbody : body.Callless] : (within d body).Callless where
  run_eq meaning meaning' closing trees := by
    rcases trees with _ | ⟨_ | _ | _ | ⟨e, opening, inner, closed⟩, rest⟩
    iterate 4 rfl
    simp only [within, Rule.run, hbody.run_eq meaning meaning']

instance (a : α) : (.done a : Rule α).Callless := ⟨fun _ _ _ _ => rfl⟩
instance (chars : String) : (op chars).Callless := by unfold op; infer_instance
instance (w : String) : (word w).Callless := by unfold word; infer_instance
instance : name.Callless := by unfold name; infer_instance
instance : anyWord.Callless := by unfold anyWord; infer_instance
instance : literal.Callless := by unfold literal; infer_instance
instance (t : Terminal) : (accept t).Callless := by unfold accept; infer_instance
instance (chars : String) : (acceptOp chars).Callless := by unfold acceptOp; infer_instance
instance (w : String) : (acceptWord w).Callless := by unfold acceptWord; infer_instance

instance (sights : List Sight) : (nextAny sights).Callless := by
  induction sights <;> unfold nextAny <;> infer_instance

instance (text : String) : (expectingPhrase text : Rule α).Callless :=
  inferInstanceAs (Callless (.fail _))

instance (limit : Nat) (body : Rule Bool) [body.Callless] : (repeatUpTo limit body).Callless := by
  induction limit <;> unfold repeatUpTo <;> infer_instance

instance (body : Rule Bool) [body.Callless] : (repeatWhile body).Callless where
  run_eq meaning meaning' closing trees := by
    have hrounds : (repeatUpTo (trees.length + 1) body).Callless := inferInstance
    exact hrounds.run_eq meaning meaning' closing trees

/-- Reading ahead gives the same with anything behind the comma. -/
class Foreseen (listed : Bool) (body : Rule α) : Prop where
  value_eq : ∀ {meaning meaning' : Meaning} {closing : Place} {front tail tail' : List Tree},
    Behind listed tail tail' →
      (body.run meaning closing (front ++ tail)).toOption.map Reply.value =
        (body.run meaning' closing (front ++ tail')).toOption.map Reply.value

instance (body : Rule α) [hbody : body.Callless] : body.Foreseen false where
  value_eq {meaning meaning' _ _ _ _} htail := by
    cases htail with
    | nothing => rw [hbody.run_eq meaning meaning']
    | comma hlisted => cases hlisted

instance (body : Rule α) [hbody : body.Foreseen listed] :
    (.foresee body .done : Rule (Option α)).Steady listed where
  leads meaning meaning' closing front tail tail' _ _ _ htail _ h hrest := by
    have hrun (meaning : Meaning) (trees : List Tree) :
        (.foresee body .done : Rule (Option α)).run meaning closing trees =
          .ok ⟨(body.run meaning closing trees).toOption.map Reply.value, [], trees, none⟩ := by
      rw [Rule.run]
      cases body.run meaning closing trees <;> rfl
    rw [hrun] at h ⊢
    cases h
    obtain rfl := List.append_cancel_right hrest
    rw [hbody.value_eq htail]

/-! ### Repetition -/

/-- More rounds may be allowed. -/
theorem leads_repeatUpTo {body : Rule Bool} (hbody : body.Steady listed) {limit limit' : Nat}
    (hlimit : limit ≤ limit') : (repeatUpTo limit body).Leads listed 0 (repeatUpTo limit' body) := by
  induction limit generalizing limit' with
  | zero =>
    intro meaning meaning' closing front tail tail' back reply hmeaning htail hreach h
    cases h
  | succ limit ih =>
    obtain ⟨limit', rfl⟩ : ∃ n, limit' = n + 1 := ⟨limit' - 1, by omega⟩
    refine leads_bind hbody.leads fun again => ?_
    cases again with
    | true => exact ih (Nat.le_of_succ_le_succ hlimit)
    | false =>
      have hdone : (pure () : Rule Unit).Steady listed := inferInstance
      exact hdone.leads

/-- More tokens may remain. -/
theorem steady_remaining {f : Nat → Rule α}
    (hf : ∀ n n', n ≤ n' → (f n).Leads listed 0 (f n')) : (.remaining f : Rule α).Steady listed where
  leads meaning meaning' closing front tail tail' _ _ hmeaning htail hreach h hrest := by
    have hlength : (front ++ tail).length ≤ (front ++ tail').length := by
      simpa using htail.length_le
    exact hf _ _ hlength hmeaning htail hreach h hrest

instance (body : Rule Bool) [hbody : body.Steady listed] : (repeatWhile body).Steady listed :=
  steady_remaining fun _ _ hle => leads_repeatUpTo hbody (Nat.succ_le_succ hle)

/-- Whether a rule takes a token does not change. -/
theorem steady_taking {p : Rule α} {f : Bool → α → Rule β} (hp : p.Steady listed)
    (hf : ∀ idle a, (f idle a).Steady listed) : (do
      let before ← .remaining .done
      let a ← p
      let after ← .remaining .done
      f (after == before) a : Rule β).Steady listed where
  leads meaning meaning' closing front tail tail' back reply hmeaning htail hreach h hrest := by
    have hrun (meaning : Meaning) (trees : List Tree) : (do
        let before ← .remaining .done
        let a ← p
        let after ← .remaining .done
        f (after == before) a : Rule β).run meaning closing trees =
          (p >>= fun a => (.remaining fun after => f (after == trees.length) a)).run meaning closing
            trees := rfl
    rw [hrun] at h ⊢
    obtain ⟨a, b, ha, hb, rfl⟩ := run_bind_eq_ok.mp h
    obtain ⟨middle, hmiddle⟩ := run_suffix hmeaning.goesForward hb
    change b.rest = _ at hrest
    rw [hrest, ← List.append_assoc] at hmiddle
    refine run_bind_eq_ok.mpr ⟨_, { b with rest := back ++ tail' },
      hp.leads hmeaning htail trivial ha hmiddle.symm, ?_, rfl⟩
    have hidle (tail : List Tree) : ((middle ++ back ++ tail).length == (front ++ tail).length) =
        ((middle ++ back).length == front.length) := by
      rw [List.length_append, @List.length_append _ front, Bool.eq_iff_iff, beq_iff_eq,
        beq_iff_eq, Nat.add_right_cancel_iff]
    rw [← hmiddle, Rule.run, hidle] at hb
    rw [Rule.run, hidle]
    exact (hf _ _).leads hmeaning htail trivial hb hrest

theorem leads_iterateUpTo {body : σ → Rule (σ ⊕ α)} (hbody : ∀ state, (body state).Steady listed)
    {limit limit' : Nat} (hlimit : limit ≤ limit') (state : σ) :
    (iterateUpTo limit body state).Leads listed 0 (iterateUpTo limit' body state) := by
  induction limit generalizing limit' state with
  | zero =>
    intro meaning meaning' closing front tail tail' back reply hmeaning htail hreach h
    cases h
  | succ limit ih =>
    obtain ⟨limit', rfl⟩ : ∃ n, limit' = n + 1 := ⟨limit' - 1, by omega⟩
    refine leads_bind (hbody state).leads fun next => ?_
    cases next with
    | inl state => exact ih (Nat.le_of_succ_le_succ hlimit) state
    | inr result => exact SteadyPast.leads

instance (body : σ → Rule (σ ⊕ α)) (state : σ) [hbody : ∀ state, (body state).Steady listed] :
    (iterate body state).Steady listed :=
  steady_remaining fun _ _ hle => leads_iterateUpTo hbody (Nat.succ_le_succ hle) state

instance (stop : Sight) (element : Rule α) [stop.Near] [element.Steady listed] :
    (listUntil stop element).Steady listed := by
  unfold listUntil; infer_instance

instance (element : Rule Unit) [element.Steady listed] : (commaList element).Steady listed := by
  unfold commaList; infer_instance

end Rule

end KeyedModel.Grammar
