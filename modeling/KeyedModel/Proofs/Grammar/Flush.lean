import KeyedModel.Proofs.Grammar.Advancing
import KeyedModel.Proofs.Grammar.Literals

/-!
# Where phrases are printed

A phrase is not always printed as it was taken: lifetimes are moved to the front, attributes may be
dropped, numbers are spelled anew. But an expression is printed from the place of its first token to
the place of its last one, so its extent is that of the tokens that were taken for it.

Whether what a rule prints is flush with what it takes, at the front or at the back, is a class, and
instances find it for a rule from its parts. A token that is taken first settles the front, whatever
follows it, and one that is taken last the back.
-/

namespace KeyedModel.Grammar

open Token (Tree Place Delimiter)

set_option synthInstance.maxSize 1000000

variable {α β σ : Type} {trees : List Tree}

/-- The two sides of some trees. -/
inductive Side where
  | front
  | back

variable {side : Side}

namespace Side

/-- The outermost tree at the side. -/
def tree? : Side → List Tree → Option Tree
  | front, trees => trees.head?
  | back, trees => trees.getLast?

/-- The outermost trees at the side have the same place, or there are none. -/
def Flush (side : Side) (printed taken : List Tree) : Prop :=
  (side.tree? printed).map Tree.place = (side.tree? taken).map Tree.place

variable {printed taken further more : List Tree}

theorem Flush.refl (trees : List Tree) : side.Flush trees trees := rfl

theorem Flush.append (h : side.Flush printed taken) (hmore : side.Flush further more) :
    side.Flush (printed ++ further) (taken ++ more) := by
  cases side <;>
    simp_all [Flush, tree?, List.head?_append, List.getLast?_append, Option.map_or]

/-- Behind a first token it does not matter what follows. -/
theorem Flush.append_right (h : front.Flush printed taken) (hne : taken ≠ [])
    (further more : List Tree) : front.Flush (printed ++ further) (taken ++ more) := by
  obtain ⟨t, rest, rfl⟩ := List.exists_cons_of_ne_nil hne
  simp_all [Flush, tree?, List.head?_append, Option.map_or]

/-- In front of a last token it does not matter what came before. -/
theorem Flush.append_left (h : back.Flush further more) (hne : more ≠ [])
    (printed taken : List Tree) : back.Flush (printed ++ further) (taken ++ more) := by
  have hlast := List.getLast?_eq_some_getLast hne
  simp_all [Flush, tree?, List.getLast?_append, Option.map_or]

/-- Trees that are flush on both sides have the same extent. -/
theorem extent_eq (hfront : front.Flush printed taken) (hback : back.Flush printed taken) :
    Rule.extent printed = Rule.extent taken := by
  have hbind (t? : Option Tree) : t?.bind Tree.place = (t?.map Tree.place).join := by
    cases t? <;> rfl
  simp only [Flush, tree?] at hfront hback
  rw [Rule.extent, Rule.extent, hbind, hbind, hbind, hbind, hfront, hback]

end Side

/-! ### Replies -/

/-- What is printed is flush with what was taken. -/
def Reply.Flush (side : Side) (reply : Reply α) (trees : List Tree) : Prop :=
  ∃ taken, trees = taken ++ reply.rest ∧ side.Flush reply.printed taken

namespace Reply.Flush

variable {first : Reply α} {second : Reply β}

/-- Where nothing is taken and nothing printed there is nothing to ask. -/
theorem of_silent (value : α) (stray : Option SyntaxError) :
    (⟨value, [], trees, stray⟩ : Reply α).Flush side trees := ⟨[], rfl, .refl []⟩

theorem after (hfirst : first.Flush side trees) (hsecond : second.Flush side first.rest) :
    (first.after second).Flush side trees := by
  obtain ⟨taken, rfl, hfirst⟩ := hfirst
  obtain ⟨more, hmore, hsecond⟩ := hsecond
  exact ⟨taken ++ more, by rw [hmore, List.append_assoc]; rfl, hfirst.append hsecond⟩

/-- At the front the first part counts if it took a token. -/
theorem after_of_lt (hfirst : first.Flush .front trees)
    (hlt : first.rest.length < trees.length) (hsuffix : second.rest <:+ first.rest) :
    (first.after second).Flush .front trees := by
  obtain ⟨taken, rfl, hfirst⟩ := hfirst
  obtain ⟨more, hmore⟩ := hsuffix
  have hne : taken ≠ [] := by
    rintro rfl
    exact absurd hlt (Nat.lt_irrefl _)
  exact ⟨taken ++ more, by rw [← hmore, List.append_assoc]; rfl, hfirst.append_right hne _ _⟩

/-- At the back the second part counts if it took a token. -/
theorem of_after_lt (hsecond : second.Flush .back first.rest)
    (hlt : second.rest.length < first.rest.length) (hsuffix : first.rest <:+ trees) :
    (first.after second).Flush .back trees := by
  obtain ⟨taken, rfl⟩ := hsuffix
  obtain ⟨more, hmore, hsecond⟩ := hsecond
  have hne : more ≠ [] := by
    rintro rfl
    rw [hmore] at hlt
    exact absurd hlt (Nat.lt_irrefl _)
  exact ⟨taken ++ more, by rw [hmore, List.append_assoc]; rfl, hsecond.append_left hne _ _⟩

end Reply.Flush

/-- The phrases that are printed flush at the side: expressions at both, types at the back, where a
type in parentheses may lose those at its front. -/
def Nonterminal.isFlush : Side → Nonterminal → Bool
  | _, .expr _ | _, .operand _ | _, .exprFrom .. | _, .rightOperand .. => true
  | .back, .type _ | .back, .genericArguments => true
  | _, _ => false

/-- Phrases are printed flush. -/
structure Meaning.Flush (meaning : Meaning) : Prop where
  reply : ∀ side n closing trees reply, n.isFlush side = true →
    meaning n closing trees = .ok reply → reply.Flush side trees
  goesForward : meaning.GoesForward
  advances : meaning.Advances

namespace Rule

/-- What the rule prints is flush with what it takes, if the phrases that it calls are. -/
class Flush (side : Side) (r : Rule α) : Prop where
  run_ok : ∀ {meaning : Meaning} {closing : Place} {trees : List Tree} {reply : Reply α},
    meaning.Flush → r.run meaning closing trees = .ok reply → reply.Flush side trees

/-! ### Rules in a row -/

theorem flush_bind {r : Rule α} {f : α → Rule β} (hr : r.Flush side)
    (hf : ∀ a, (f a).Flush side) : (r >>= f).Flush side where
  run_ok hmeaning h := by
    obtain ⟨a, b, ha, hb, rfl⟩ := run_bind_eq_ok.mp h
    exact (hr.run_ok hmeaning ha).after ((hf a.value).run_ok hmeaning hb)

instance {r : Rule α} {f : α → Rule β} [hr : r.Flush side] [hf : ∀ a, (f a).Flush side] :
    (r >>= f).Flush side :=
  flush_bind hr hf

instance {r : Rule α} {f : α → Rule β} [hadvances : r.Advances] [hr : r.Flush .front] :
    (r >>= f).Flush .front where
  run_ok hmeaning h := by
    obtain ⟨a, b, ha, hb, rfl⟩ := run_bind_eq_ok.mp h
    have hlt := hadvances.run_lt hmeaning.goesForward hmeaning.advances ha trivial
    exact (hr.run_ok hmeaning ha).after_of_lt hlt (run_suffix hmeaning.goesForward hb)

/-- In a choice the test has taken a token, or the other side is flush. -/
instance {test : Rule Bool} {r s : Rule α} [hadvances : test.AdvancesIf]
    [htest : test.Flush .front] [hs : s.Flush .front] :
    (test >>= fun b => if b then r else s).Flush .front where
  run_ok hmeaning h := by
    obtain ⟨a, b, ha, hb, rfl⟩ := run_bind_eq_ok.mp h
    have hbegins := htest.run_ok hmeaning ha
    cases hvalue : a.value with
    | true =>
      have hlt := hadvances.run_lt hmeaning.goesForward hmeaning.advances ha hvalue
      exact hbegins.after_of_lt hlt (run_suffix hmeaning.goesForward hb)
    | false =>
      rw [hvalue, if_neg Bool.false_ne_true] at hb
      exact hbegins.after (hs.run_ok hmeaning hb)

instance {r : Rule α} {f : α → Rule β} [hadvances : ∀ a, (f a).Advances]
    [hf : ∀ a, (f a).Flush .back] : (r >>= f).Flush .back where
  run_ok hmeaning h := by
    obtain ⟨a, b, ha, hb, rfl⟩ := run_bind_eq_ok.mp h
    have hlt := (hadvances a.value).run_lt hmeaning.goesForward hmeaning.advances hb trivial
    exact ((hf a.value).run_ok hmeaning hb).of_after_lt hlt (run_suffix hmeaning.goesForward ha)

instance {c : Prop} [Decidable c] {r s : Rule α} [r.Flush side] [s.Flush side] :
    (if c then r else s).Flush side := by
  split <;> infer_instance

/-! ### Looking ahead and failing -/

/-- The rule takes and prints nothing. -/
class Silent (r : Rule α) : Prop where
  run_ok : ∀ {meaning : Meaning} {closing : Place} {trees : List Tree} {reply : Reply α},
    r.run meaning closing trees = .ok reply → reply.printed = [] ∧ reply.rest = trees

instance {r : Rule α} [hr : r.Silent] : r.Flush side where
  run_ok _ h := by
    obtain ⟨hprinted, hrest⟩ := hr.run_ok h
    exact ⟨[], hrest.symm, by rw [hprinted]; exact .refl []⟩

instance {r : Rule α} {f : α → Rule β} [hr : r.Silent] [hf : ∀ a, (f a).Silent] :
    (r >>= f).Silent where
  run_ok h := by
    obtain ⟨a, b, ha, hb, rfl⟩ := run_bind_eq_ok.mp h
    obtain ⟨hprinted, hrest⟩ := hr.run_ok ha
    obtain ⟨hmore, hafter⟩ := (hf a.value).run_ok hb
    exact ⟨by simp [Reply.after, hprinted, hmore], hafter.trans hrest⟩

instance {c : Prop} [Decidable c] {r s : Rule α} [r.Silent] [s.Silent] :
    (if c then r else s).Silent := by
  split <;> infer_instance

instance (a : α) : (.done a : Rule α).Silent where
  run_ok h := by
    cases h
    exact ⟨rfl, rfl⟩

instance (a : α) : (pure a : Rule α).Silent := inferInstanceAs (Silent (.done a))
instance (cause : Cause) : (.fail cause : Rule α).Silent := ⟨fun h => nomatch h⟩

instance (spot : Place) (cause : Cause) : (.failAt spot cause : Rule α).Silent :=
  ⟨fun h => nomatch h⟩

instance (sight : Sight) (after : Nat) : (.sees sight after .done : Rule Bool).Silent where
  run_ok h := by
    cases h
    exact ⟨rfl, rfl⟩

instance : here.Silent where
  run_ok h := by
    cases h
    exact ⟨rfl, rfl⟩

instance : (.remaining .done : Rule Nat).Silent where
  run_ok h := by
    cases h
    exact ⟨rfl, rfl⟩

instance (sight : Sight) : (next sight).Silent := inferInstanceAs (Silent (.sees sight 0 .done))
instance (sight : Sight) : (second sight).Silent := inferInstanceAs (Silent (.sees sight 1 .done))
instance (sight : Sight) : (third sight).Silent := inferInstanceAs (Silent (.sees sight 2 .done))

instance (sight other : Sight) : (nextBut sight other).Silent := by unfold nextBut; infer_instance

instance (sights : List Sight) : (nextAny sights).Silent := by
  induction sights <;> unfold nextAny <;> infer_instance

instance (entries : List (String × Precedence)) : (nextOf entries).Silent := by
  induction entries <;> unfold nextOf <;> infer_instance

instance (known : List Expected) (sights : List Sight) :
    (expectingFrom known sights : Rule α).Silent := by
  induction sights generalizing known <;> unfold expectingFrom <;> infer_instance

instance (sights : List Sight) : (expecting sights : Rule α).Silent := by
  unfold expecting; infer_instance

instance (text : String) : (expectingPhrase text : Rule α).Silent := by
  unfold expectingPhrase; infer_instance

instance : callsMacro.Silent := by unfold callsMacro; infer_instance
instance : parensFollow.Silent := by unfold parensFollow; infer_instance
instance (constants : Bool) : (boundsGoOn constants).Silent := by unfold boundsGoOn; infer_instance
instance (after : Nat) : (opensGenerics after).Silent := by unfold opensGenerics; infer_instance
instance : bindsClosure.Silent := by unfold bindsClosure; infer_instance
instance : startsClosure.Silent := by unfold startsClosure; infer_instance
instance : startsAsync.Silent := by unfold startsAsync; infer_instance
instance : startsPath.Silent := by unfold startsPath; infer_instance
instance : beginsExpr.Silent := by unfold beginsExpr; infer_instance
instance : castEnd.Silent := by unfold castEnd; infer_instance
instance : nextBinary.Silent := by unfold nextBinary; infer_instance
instance (braces : Bool) : (rangeStops braces).Silent := by unfold rangeStops; infer_instance

/-! ### Taking -/

end Rule

/-- An operator is printed where it was taken. -/
theorem matchOp_places {chars : List Char} {taken rest : List Tree}
    (h : matchOp chars trees = some (taken, rest)) :
    ∃ front, trees = front ++ rest ∧ taken.map Tree.place = front.map Tree.place := by
  fun_induction matchOp chars trees generalizing taken rest with
  | case1 c d spacing place tail heq =>
    obtain ⟨rfl, rfl⟩ := Prod.mk.inj (Option.some.inj h)
    exact ⟨[_], rfl, rfl⟩
  | case2 => cases h
  | case3 c more d place tail hmore heq ih =>
    obtain ⟨r, hr, heq⟩ := Option.map_eq_some_iff.mp h
    obtain ⟨rfl, rfl⟩ := Prod.mk.inj heq
    obtain ⟨front, rfl, hplaces⟩ := ih hr
    exact ⟨.punct d .joint place :: front, rfl, congrArg (place :: ·) hplaces⟩
  | case4 => cases h
  | case5 => cases h

theorem matchLiteral_places {admits : Token.LiteralKind → Bool} {taken rest : List Tree}
    (h : matchLiteral admits trees = some (taken, rest)) :
    ∃ front, trees = front ++ rest ∧ taken.map Tree.place = front.map Tree.place := by
  unfold matchLiteral at h
  split at h
  · split at h
    · obtain ⟨rfl, rfl⟩ := Prod.mk.inj (Option.some.inj h)
      exact ⟨[_], rfl, rfl⟩
    · cases h
  · split at h
    · obtain ⟨rfl, rfl⟩ := Prod.mk.inj (Option.some.inj h)
      exact ⟨[_], rfl, rfl⟩
    · cases h
  · dsimp only at h
    split at h
    · obtain ⟨rfl, rfl⟩ := Prod.mk.inj (Option.some.inj h)
      exact ⟨[_, _], rfl, rfl⟩
    · cases h
  · cases h

/-- A terminal is printed where it was taken. -/
theorem Terminal.match?_places {t : Terminal} {taken rest : List Tree}
    (h : t.match? trees = some (taken, rest)) :
    ∃ front, trees = front ++ rest ∧ taken.map Tree.place = front.map Tree.place := by
  cases t with
  | op chars => exact matchOp_places h
  | literal => exact matchLiteral_places (show matchLiteral (fun _ => true) trees = _ from h)
  | textLiteral => exact matchLiteral_places (show matchLiteral (· == .text) trees = _ from h)
  | intLiteral => exact matchLiteral_places (show matchLiteral (· == .int) trees = _ from h)
  | floatLiteral => exact matchLiteral_places (show matchLiteral (· == .float) trees = _ from h)
  | word w =>
    obtain ⟨place, rfl, rfl⟩ := match?_word.mp h
    exact ⟨[_], rfl, rfl⟩
  | anyWord =>
    obtain ⟨w, place, rfl, rfl⟩ := match?_anyWord.mp h
    exact ⟨[_], rfl, rfl⟩
  | name =>
    obtain ⟨w, place, rfl, rfl, -⟩ := match?_name.mp h
    exact ⟨[_], rfl, rfl⟩
  | lifetime =>
    obtain ⟨mark, w, place, rfl, rfl⟩ := match?_lifetime.mp h
    exact ⟨[_, _], rfl, rfl⟩

theorem Side.flush_of_places {printed taken : List Tree}
    (h : printed.map Tree.place = taken.map Tree.place) : side.Flush printed taken := by
  cases side with
  | front => rw [Flush, tree?, tree?, ← List.head?_map, ← List.head?_map, h]
  | back => rw [Flush, tree?, tree?, ← List.getLast?_map, ← List.getLast?_map, h]

namespace Rule

instance (t : Terminal) : (token t).Flush side where
  run_ok _ h := by
    obtain ⟨taken, rest, b, hmatch, hb, rfl⟩ := run_take_eq_ok.mp h
    cases hb
    obtain ⟨front, rfl, hplaces⟩ := Terminal.match?_places hmatch
    refine ⟨front, rfl, ?_⟩
    rw [List.append_nil]
    exact Side.flush_of_places hplaces

instance (t : Terminal) (f : List Tree → Rule α) [∀ taken, (f taken).Flush side] :
    (.take t f : Rule α).Flush side :=
  inferInstanceAs (Flush side (token t >>= f))

instance (chars : String) : (op chars).Flush side := by unfold op; infer_instance
instance (w : String) : (word w).Flush side := by unfold word; infer_instance
instance : name.Flush side := by unfold name; infer_instance
instance : anyWord.Flush side := by unfold anyWord; infer_instance
instance : lifetime.Flush side := by unfold lifetime; infer_instance
instance : literal.Flush side := by unfold literal; infer_instance
instance (t : Terminal) : (accept t).Flush side := by unfold accept; infer_instance
instance (w : String) : (acceptWord w).Flush side := by unfold acceptWord; infer_instance
instance (chars : String) : (acceptOp chars).Flush side := by unfold acceptOp; infer_instance

instance (operators : List String) : (acceptAny operators).Flush side := by
  induction operators <;> unfold acceptAny <;> infer_instance

/-- A group is printed where it was taken, whatever is in it. -/
instance (d : Delimiter) (body : Rule α) : (within d body).Flush side where
  run_ok _ h := by
    unfold within Rule.run at h
    split at h
    · split at h
      · split at h
        · cases h
        · cases h
          exact ⟨[_], rfl, Side.flush_of_places rfl⟩
      · cases h
    · cases h

instance : anyGroup.Flush side where
  run_ok _ h := by
    unfold anyGroup Rule.run at h
    split at h
    · cases h
      exact ⟨[_], rfl, Side.flush_of_places rfl⟩
    · cases h

/-- What is kept as it was written is printed where it was taken. -/
instance (keep : α → Bool) (body : Rule α) [hbody : body.Flush side] :
    (writtenIf keep body).Flush side where
  run_ok hmeaning h := by
    obtain ⟨r, hr, rfl⟩ := run_writtenIf_eq_ok.mp h
    obtain ⟨taken, rfl, hflush⟩ := hbody.run_ok hmeaning hr
    refine ⟨taken, rfl, ?_⟩
    split
    · simp [writtenBefore, Side.Flush]
    · exact hflush

instance (body : Rule α) : (written body).Flush side where
  run_ok hmeaning h := by
    obtain ⟨r, hr, rfl⟩ := run_writtenIf_eq_ok.mp h
    obtain ⟨taken, rfl⟩ := run_suffix hmeaning.goesForward hr
    exact ⟨taken, rfl, by simp [writtenBefore, Side.Flush]⟩

theorem flush_phrase {n : Nonterminal} (hn : n.isFlush side = true) : (phrase n).Flush side where
  run_ok hmeaning h := by
    rw [run_phrase] at h
    exact hmeaning.reply _ _ _ _ _ hn h

variable (braces plus : Bool) (left : Shape) (precedence : Precedence)

instance : (phrase (.expr braces)).Flush side := flush_phrase (by cases side <;> rfl)
instance : (phrase (.operand braces)).Flush side := flush_phrase (by cases side <;> rfl)

instance : (phrase (.exprFrom left precedence braces)).Flush side :=
  flush_phrase (by cases side <;> rfl)

instance : (phrase (.rightOperand precedence braces)).Flush side :=
  flush_phrase (by cases side <;> rfl)

instance : (phrase (.type plus)).Flush .back := flush_phrase rfl
instance : (phrase .genericArguments).Flush .back := flush_phrase rfl

instance (n : Nonterminal) [(phrase n).Flush side] : (phrase_ n).Flush side :=
  inferInstanceAs (Flush side (phrase n >>= fun _ => pure ()))

instance : macroArguments.Flush side := by unfold macroArguments; infer_instance

/-! ### Repetition -/

instance (limit : Nat) (body : Rule Bool) [body.Flush side] :
    (repeatUpTo limit body).Flush side := by
  induction limit with
  | zero => unfold repeatUpTo; infer_instance
  | succ limit ih =>
    unfold repeatUpTo
    have hnext (b : Bool) : (if b then repeatUpTo limit body else pure ()).Flush side := by
      split <;> infer_instance
    infer_instance

instance (body : Rule Bool) [body.Flush side] : (repeatWhile body).Flush side :=
  inferInstanceAs (Flush side (.remaining .done >>= fun n => repeatUpTo (n + 1) body))

/-- What a round of a repetition makes of what follows it, the whole repetition does. -/
theorem iterateUpTo_step {meaning : Meaning} {closing : Place} {body : σ → Rule (σ ⊕ α)}
    (gives : σ → List Tree → Reply α → Prop)
    (hround : ∀ state trees a, (body state).run meaning closing trees = .ok a →
      match a.value with
      | .inl next => ∀ reply, gives next a.rest reply → gives state trees (a.after reply)
      | .inr result => gives state trees ⟨result, a.printed, a.rest, a.stray⟩)
    {limit : Nat} {state : σ} {reply : Reply α}
    (h : (iterateUpTo limit body state).run meaning closing trees = .ok reply) :
    gives state trees reply := by
  induction limit generalizing state trees reply with
  | zero => cases h
  | succ limit ih =>
    obtain ⟨a, b, ha, hb, rfl⟩ := run_bind_eq_ok.mp h
    have hstep := hround state trees a ha
    cases hvalue : a.value with
    | inl next =>
      rw [hvalue] at hstep hb
      exact hstep b (ih hb)
    | inr result =>
      rw [hvalue] at hstep hb
      cases hb
      simpa [Reply.after] using hstep

instance {body : σ → Rule (σ ⊕ α)} {state : σ} [hbody : ∀ state, (body state).Flush side] :
    (iterate body state).Flush side where
  run_ok hmeaning h := by
    refine iterateUpTo_step (fun _ trees reply => reply.Flush side trees) ?_ h
    intro state trees a ha
    have hflush := (hbody state).run_ok hmeaning ha
    cases a.value with
    | inl next => exact fun reply hreply => hflush.after hreply
    | inr result => exact hflush

/-- A rule whose value may be missing. -/
instance (priority := 10000) {r : Rule (Option α)} {f : Option α → Rule β} [hr : r.Flush side]
    [hsome : ∀ a, (f (some a)).Flush side] [hnone : (f none).Flush side] :
    (r >>= f).Flush side where
  run_ok hmeaning h := by
    obtain ⟨a, b, ha, hb, rfl⟩ := run_bind_eq_ok.mp h
    refine (hr.run_ok hmeaning ha).after ?_
    cases hvalue : a.value with
    | none => exact hnone.run_ok hmeaning (hvalue ▸ hb)
    | some value => exact (hsome value).run_ok hmeaning (hvalue ▸ hb)

/-- A rule whose value is taken apart into two, and may be missing. -/
instance (priority := 10001) {γ : Type} {r : Rule (Option (α × γ))} {f : Option (α × γ) → Rule β}
    [hr : r.Flush side] [hsome : ∀ a c, (f (some (a, c))).Flush side]
    [hnone : (f none).Flush side] :
    (r >>= f).Flush side :=
  have (a : α × γ) : (f (some a)).Flush side := hsome a.1 a.2
  inferInstance

/-! ### Trees that are held back -/

end Rule

/-- Where trees are held back in front of the rule, and others behind it, what is printed with them
is flush with what is taken. -/
def Reply.Carries (side : Side) (waiting : List Tree) (waits : α → List Tree) (reply : Reply α)
    (trees : List Tree) : Prop :=
  ∃ taken, trees = taken ++ reply.rest ∧ ∀ printed front, side.Flush (printed ++ waiting) front →
    side.Flush (printed ++ reply.printed ++ waits reply.value) (front ++ taken)

variable {waiting : List Tree} {waits : α → List Tree} {waitsLast : β → List Tree}

theorem Reply.Carries.after {first : Reply α} {second : Reply β}
    (hfirst : first.Carries side waiting waits trees)
    (hsecond : second.Carries side (waits first.value) waitsLast first.rest) :
    (first.after second).Carries side waiting waitsLast trees := by
  obtain ⟨taken, rfl, hfirst⟩ := hfirst
  obtain ⟨more, hmore, hsecond⟩ := hsecond
  refine ⟨taken ++ more, by rw [hmore, List.append_assoc]; rfl, fun printed front hfront => ?_⟩
  have hflush := hsecond _ _ (hfirst printed front hfront)
  simpa [Reply.after] using hflush

/-- At the back a reply that took a token makes up for what was held back in front of it. -/
theorem Reply.Flush.carries {reply : Reply α}
    (hflush : reply.Flush .back trees) (hlt : reply.rest.length < trees.length) :
    reply.Carries .back waiting (fun _ => []) trees := by
  obtain ⟨taken, rfl, hflush⟩ := hflush
  have hne : taken ≠ [] := by
    rintro rfl
    exact absurd hlt (Nat.lt_irrefl _)
  exact ⟨taken, rfl, fun printed front _ => by simpa using hflush.append_left hne _ _⟩

namespace Rule

/-- The rule takes over the trees that are held back in front of it, and holds others back. -/
structure Carries (side : Side) (waiting : List Tree) (waits : α → List Tree) (r : Rule α) :
    Prop where
  run_ok : ∀ {meaning : Meaning} {closing : Place} {trees : List Tree} {reply : Reply α},
    meaning.Flush → r.run meaning closing trees = .ok reply →
      reply.Carries side waiting waits trees

theorem Carries.bind {r : Rule α} {f : α → Rule β} (hr : r.Carries side waiting waits)
    (hf : ∀ a, (f a).Carries side (waits a) waitsLast) :
    (r >>= f).Carries side waiting waitsLast where
  run_ok hmeaning h := by
    obtain ⟨a, b, ha, hb, rfl⟩ := run_bind_eq_ok.mp h
    exact (hr.run_ok hmeaning ha).after ((hf a.value).run_ok hmeaning hb)

/-- Rounds that take over what the round before held back make up a repetition that does. -/
theorem carries_iterate {body : σ → Rule (σ ⊕ α)} {pending : σ → List Tree}
    (hbody : ∀ state, (body state).Carries side (pending state) (Sum.elim pending waits))
    (state : σ) : (iterate body state).Carries side (pending state) waits where
  run_ok hmeaning h := by
    refine iterateUpTo_step
      (fun state trees reply => reply.Carries side (pending state) waits trees) ?_ h
    intro state trees a ha
    have hround := (hbody state).run_ok hmeaning ha
    cases hvalue : a.value with
    | inl next =>
      intro reply hreply
      refine hround.after ?_
      rw [hvalue]
      exact hreply
    | inr result =>
      obtain ⟨taken, htaken, hflush⟩ := hround
      rw [hvalue] at hflush
      exact ⟨taken, htaken, hflush⟩

/-- A rule with nothing held back is flush by itself. -/
theorem carries_of_flush {r : Rule α} (hr : r.Flush side) : r.Carries side [] fun _ => [] where
  run_ok hmeaning h := by
    obtain ⟨taken, rfl, hflush⟩ := hr.run_ok hmeaning h
    refine ⟨taken, rfl, fun printed front hfront => ?_⟩
    rw [List.append_nil] at hfront ⊢
    exact hfront.append hflush

theorem Carries.flush {r : Rule α} (hr : r.Carries side [] fun _ => []) : r.Flush side where
  run_ok hmeaning h := by
    obtain ⟨taken, rfl, hflush⟩ := hr.run_ok hmeaning h
    exact ⟨taken, rfl, by simpa using hflush [] [] (.refl [])⟩

/-- A rule that takes nothing leaves what is held back. -/
theorem carries_silent {r : Rule α} [hr : r.Silent] : r.Carries side waiting fun _ => waiting where
  run_ok _ h := by
    obtain ⟨hprinted, hrest⟩ := hr.run_ok h
    refine ⟨[], hrest.symm, fun printed front hfront => ?_⟩
    simpa [hprinted] using hfront

theorem carries_pure {a : α} (h : waiting = waits a) :
    (pure a : Rule α).Carries side waiting waits where
  run_ok _ hrun := by
    subst h
    cases hrun
    exact ⟨[], rfl, fun printed front hfront => by simpa using hfront⟩

theorem carries_emit_of_flush {printed : List Tree} (h : side.Flush printed waiting) :
    (emit printed).Carries side waiting fun _ => [] where
  run_ok _ hrun := by
    cases hrun
    refine ⟨[], rfl, fun before front hfront => ?_⟩
    simpa [Side.Flush] using ((Side.Flush.refl before).append h).trans hfront

theorem carries_emit (trees : List Tree) : (emit trees).Carries side trees fun _ => [] :=
  carries_emit_of_flush (.refl trees)

theorem carries_held {body : Rule α} (hbody : body.Flush side) :
    (held body).Carries side [] Prod.snd where
  run_ok hmeaning h := by
    obtain ⟨a, ha, rfl⟩ := run_held_eq_ok.mp h
    obtain ⟨taken, rfl, hflush⟩ := hbody.run_ok hmeaning ha
    refine ⟨taken, rfl, fun printed front hfront => ?_⟩
    rw [List.append_nil] at hfront ⊢
    exact hfront.append hflush

/-- At the back a token that is taken makes up for what was held back in front of it. -/
theorem carries_of_advances {r : Rule α} (hr : r.Flush .back) (hadvances : r.Advances) :
    r.Carries .back waiting fun _ => [] where
  run_ok hmeaning h :=
    (hr.run_ok hmeaning h).carries
      (hadvances.run_lt hmeaning.goesForward hmeaning.advances h trivial)

theorem carries_ite {c : Prop} [Decidable c] {r s : Rule α} (hr : r.Carries side waiting waits)
    (hs : s.Carries side waiting waits) : (if c then r else s).Carries side waiting waits := by
  split
  · exact hr
  · exact hs

/-- The rule is flush behind some trees that it prints first. -/
class FlushBehind (side : Side) (trees : List Tree) (r : Rule α) : Prop where
  carries : r.Carries side trees fun _ => []

instance {r : Rule α} {trees : List Tree} [hr : r.Flush side] :
    (emit trees >>= fun _ => r).FlushBehind side trees :=
  ⟨(carries_emit trees).bind fun _ => carries_of_flush hr⟩

instance {c : Prop} [Decidable c] {r s : Rule α} {trees : List Tree} [hr : r.FlushBehind side trees]
    [hs : s.FlushBehind side trees] : (if c then r else s).FlushBehind side trees :=
  ⟨carries_ite hr.carries hs.carries⟩

instance {r : Rule α} {f : α → Rule β} {trees : List Tree} [r.Silent]
    [hf : ∀ a, (f a).FlushBehind side trees] : (r >>= f).FlushBehind side trees :=
  ⟨carries_silent.bind fun a => (hf a).carries⟩

instance (spot : Place) (cause : Cause) (trees : List Tree) :
    (.failAt spot cause : Rule α).FlushBehind side trees :=
  ⟨⟨fun _ h => nomatch h⟩⟩

instance {r : Rule α} {waiting : List Tree} [hr : r.Flush .back] [hadvances : r.Advances] :
    r.FlushBehind .back waiting :=
  ⟨carries_of_advances hr hadvances⟩

/-- What is held back is printed first. -/
instance (priority := 10001) {body : Rule α} {f : α × List Tree → Rule β} [hbody : body.Flush side]
    [hf : ∀ a trees, (f (a, trees)).FlushBehind side trees] : (held body >>= f).Flush side :=
  ((carries_held hbody).bind fun (a, trees) => (hf a trees).carries).flush

/-- At the back it does not matter what is printed in front of what is held back. -/
theorem carries_emit_other {waiting : List Tree} (hne : waiting ≠ []) (other : List Tree) :
    (emit other).Carries .back waiting fun _ => waiting where
  run_ok _ h := by
    cases h
    refine ⟨[], rfl, fun printed front hfront => ?_⟩
    have hlast := List.getLast?_eq_some_getLast hne
    simpa [Side.Flush, Side.tree?, List.getLast?_append, hlast] using hfront

/-- What was held back ends with the last token that was taken for it. -/
theorem flush_held_of_advances {body : Rule α} {f : α × List Tree → Rule β}
    (hbody : body.Flush .back) (hadvances : body.Advances)
    (hf : ∀ a trees, trees ≠ [] → (f (a, trees)).Carries .back trees fun _ => []) :
    (held body >>= f).Flush .back where
  run_ok hmeaning h := by
    obtain ⟨a, b, ha, hb, rfl⟩ := run_bind_eq_ok.mp h
    obtain ⟨c, hc, rfl⟩ := run_held_eq_ok.mp ha
    have hlt := hadvances.run_lt hmeaning.goesForward hmeaning.advances hc trivial
    have hne : c.printed ≠ [] := by
      intro hnil
      obtain ⟨taken, rfl, hflush⟩ := hbody.run_ok hmeaning hc
      have htaken : taken = [] := by simpa [Side.Flush, Side.tree?, hnil] using hflush.symm
      rw [htaken] at hlt
      exact absurd hlt (Nat.lt_irrefl _)
    have hheld := (carries_held hbody).run_ok hmeaning ha
    obtain ⟨taken, htaken, hflush⟩ := hheld.after ((hf _ _ hne).run_ok hmeaning hb)
    exact ⟨taken, htaken, by simpa using hflush [] [] (.refl [])⟩

end Rule

end KeyedModel.Grammar
