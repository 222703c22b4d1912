import KeyedModel.Proofs.Grammar.Values
import KeyedModel.Proofs.Grammar.WholeText

/-!
# Expressions that are one literal

An expression counts as a literal only if it consists of the literal alone: no attribute and no
operator stands in front of it, nothing follows it directly, and no operator binds it. So the one
thing that such an expression has taken is the literal.
-/

namespace KeyedModel.Grammar

open Token (Tree Place)

variable {α σ : Type} {meaning : Meaning} {closing : Place} {trees : List Tree}

/-- An operator of one character matches that character, however it is spaced. -/
theorem matchOp_singleton {c : Char} {taken rest : List Tree} :
    matchOp [c] trees = some (taken, rest) ↔
      ∃ spacing place, trees = .punct c spacing place :: rest ∧
        taken = [.punct c .alone place] := by
  match trees with
  | .punct d spacing place :: tail =>
    by_cases h : c = d
    · subst h
      simp only [matchOp, beq_self_eq_true, if_true, Option.some.injEq, Prod.mk.injEq,
        List.cons.injEq, Tree.punct.injEq, true_and]
      constructor
      · rintro ⟨rfl, rfl⟩
        exact ⟨spacing, place, ⟨⟨rfl, rfl⟩, rfl⟩, rfl⟩
      · rintro ⟨s, p, ⟨⟨rfl, rfl⟩, rfl⟩, rfl⟩
        exact ⟨rfl, rfl⟩
    · simp [matchOp, h, Ne.symm h]
  | [] | .ident .. :: _ | .literal .. :: _ | .group .. :: _ => simp [matchOp]

/-- An operator that is taken is some tokens. -/
theorem matchOp_ne_nil {chars : List Char} {taken rest : List Tree}
    (h : matchOp chars trees = some (taken, rest)) : taken ≠ [] := by
  unfold matchOp at h
  split at h
  · split at h <;> cases h
    simp
  · split at h
    · obtain ⟨r, -, hr⟩ := Option.map_eq_some_iff.mp h
      cases hr
      simp
    · cases h
  · cases h

/-- A reply that took nothing in front of another changes nothing. -/
theorem Reply.after_nil {β : Type} (value : α) (rest : List Tree) (r : Reply β) :
    Reply.after ⟨value, [], rest, none⟩ r = r := by
  simp [Reply.after]

namespace Rule

/-- A rule that prints nothing hands its value on to the next one. -/
theorem run_bind_of_silent {β : Type} {r : Rule α} {value : α} {rest : List Tree}
    (h : r.run meaning closing trees = .ok ⟨value, [], rest, none⟩) (f : α → Rule β) :
    (r >>= f).run meaning closing trees = (f value).run meaning closing rest := by
  rw [run_bind, h]
  rcases hf : (f value).run meaning closing rest with e | b <;> simp [hf, Reply.after_nil]

/-- The inside of a group is read where such a group comes next. -/
theorem sees_of_run_within {d : Token.Delimiter} {body : Rule α} {reply : Reply α}
    (h : (within d body).run meaning closing trees = .ok reply) :
    (Sight.group d).sees trees = true := by
  unfold within Rule.run at h
  split at h
  · split at h
    · assumption
    · cases h
  · cases h

/-- A repetition whose further rounds avoid a state gives that state only if it stops at once. -/
theorem iterate_eq_start {body : σ → Rule (σ ⊕ σ)} {avoided : σ}
    (hround : ∀ state trees a, (body state).run meaning closing trees = .ok a →
      a = ⟨.inr state, [], trees, none⟩ ∨ ∃ next, a.value = .inl next ∧ next ≠ avoided)
    {start : σ} {reply : Reply σ} (h : (iterate body start).run meaning closing trees = .ok reply)
    (hvalue : reply.value = avoided) : reply = ⟨start, [], trees, none⟩ := by
  obtain ⟨a, b, ha, hb, rfl⟩ := run_bind_eq_ok.mp h
  rcases hround start trees a ha with rfl | ⟨next, hnext, hne⟩
  · cases hb
    rfl
  · rw [hnext] at hb
    have hother : b.value ≠ avoided := by
      refine iterateUpTo_induct (fun state _ => state ≠ avoided) (fun result _ => result ≠ avoided)
        ?_ hne hb
      intro state trees a hstate ha
      rcases hround state trees a ha with rfl | ⟨next, hnext, hne⟩
      · exact hstate
      · rw [hnext]
        exact hne
    exact absurd hvalue hother

/-- A terminal is accepted where it matches. -/
theorem run_accept (t : Terminal) :
    (accept t).run meaning closing trees =
      match t.match? trees with
      | some (taken, rest) => .ok ⟨true, taken, rest, none⟩
      | none => .ok ⟨false, [], trees, none⟩ := by
  rw [accept, run_next_bind, Sight.sees]
  cases hmatch : t.match? trees with
  | none => rfl
  | some r => simp [Rule.run, hmatch]

/-- Where no attribute begins, none is read. -/
theorem attributes_eq_ok {reply : Reply Unit}
    (hnone : ((Sight.op "#").sees trees && Sight.bracket.seesAfter 1 trees) = false)
    (h : attributes.run meaning closing trees = .ok reply) : reply = ⟨(), [], trees, none⟩ := by
  obtain ⟨a, b, ha, hb, rfl⟩ := run_bind_eq_ok.mp h
  obtain ⟨c, d, hc, hd, rfl⟩ := run_bind_eq_ok.mp ha
  rw [acceptOp, run_accept] at hc
  split at hc
  · rename_i taken rest hmatch
    obtain ⟨spacing, place, rfl, -⟩ : ∃ spacing place, trees = .punct '#' spacing place :: rest ∧
      taken = [.punct '#' .alone place] := matchOp_singleton.mp hmatch
    cases hc
    obtain ⟨f, g, hf, -, rfl⟩ := run_bind_eq_ok.mp hd
    have hbracket : Sight.bracket.sees rest = true := sees_of_run_within hf
    simp [Sight.sees, hmatch, Sight.seesAfter, skipOne] at hnone
    simp [Sight.sees] at hbracket
    simp [hnone] at hbracket
  · cases hc
    cases hd
    cases hb
    rfl

/-- A round of `trailers` or `exprFrom` that goes on, and with no literal. -/
def GoesOn (round : Shape ⊕ Shape) : Prop := ∃ next, round = .inl next ∧ next ≠ .literal

theorem gives_goesOn {r : Rule α} {shape : Shape} (h : shape ≠ .literal) :
    Gives GoesOn (r >>= fun _ => pure (.inl shape)) :=
  gives_bind fun _ => ⟨shape, rfl, h⟩

/-- Looking for a sight that is not the beginning of another one takes nothing. -/
@[simp] theorem run_nextBut_bind {β : Type} (sight other : Sight) (f : Bool → Rule β) :
    (nextBut sight other >>= f).run meaning closing trees =
      (f (sight.sees trees && !other.sees trees)).run meaning closing trees := rfl

/-- Calls, members, indices and question marks are no literal. -/
theorem trailers_literal {atom : Shape} {reply : Reply Shape}
    (h : (trailers atom).run meaning closing trees = .ok reply) (hvalue : reply.value = .literal) :
    reply = ⟨atom, [], trees, none⟩ := by
  refine iterate_eq_start ?_ h hvalue
  intro shape trees a ha
  rw [run_next_bind] at ha
  split at ha
  · exact .inr (Gives.run_value (gives_goesOn (by decide)) ha)
  rw [run_nextBut_bind] at ha
  split at ha
  · exact .inr (Gives.run_value (gives_bind fun _ => gives_goesOn (by decide)) ha)
  rw [run_next_bind] at ha
  split at ha
  · exact .inr (Gives.run_value (gives_goesOn (by decide)) ha)
  rw [run_next_bind] at ha
  split at ha
  · exact .inr (Gives.run_value (gives_goesOn (by decide)) ha)
  · cases ha
    exact .inl rfl

/-- Keeping what was written changes only what is printed. -/
theorem run_writtenIf_eq_ok {keep : α → Bool} {body : Rule α} {reply : Reply α} :
    (writtenIf keep body).run meaning closing trees = .ok reply ↔
      ∃ r, body.run meaning closing trees = .ok r ∧
        reply = ⟨r.value, if keep r.value then writtenBefore trees r.rest else r.printed, r.rest,
          r.stray⟩ := by
  simp only [writtenIf, Rule.run]
  rcases body.run meaning closing trees with e | r
  · simp
  · constructor
    · rintro h
      exact ⟨r, rfl, by simpa using h.symm⟩
    · rintro ⟨_, ⟨rfl⟩, rfl⟩
      simp

/-- Looking for the first of several operators takes nothing. -/
theorem run_nextOf (entries : List (String × Precedence)) :
    (nextOf entries).run meaning closing trees =
      .ok ⟨entries.find? fun e => (Sight.op e.1).sees trees, [], trees, none⟩ := by
  induction entries with
  | nil => rfl
  | cons entry rest ih =>
    rw [nextOf, run_next_bind]
    cases hs : (Sight.op entry.1).sees trees <;> simp [hs, ih]

/-- What an operator binds is no literal. -/
theorem exprFrom_literal {left : Shape} {base : Precedence} {braces : Bool} {reply : Reply Shape}
    (h : (exprFrom left base braces).run meaning closing trees = .ok reply)
    (hvalue : reply.value = .literal) : reply = ⟨left, [], trees, none⟩ := by
  refine iterate_eq_start ?_ h hvalue
  intro shape trees a ha
  split at ha
  · cases ha
    exact .inl rfl
  obtain ⟨b, c, hb, hc, rfl⟩ := run_bind_eq_ok.mp ha
  rw [nextBinary, run_nextOf] at hb
  cases hb
  rw [Reply.after_nil]
  dsimp only at hc
  split at hc
  · split at hc
    · cases hc
      exact .inl rfl
    refine .inr (Gives.run_value (p := GoesOn) ?_ hc)
    split
    · exact gives_bind fun _ => gives_bind fun _ => gives_goesOn (by split <;> decide)
    · exact gives_bind fun _ => gives_goesOn (by split <;> decide)
  · rw [run_nextBut_bind] at hc
    split at hc
    · exact .inr (Gives.run_value (gives_bind fun _ => gives_goesOn (by decide)) hc)
    rw [run_next_bind] at hc
    split at hc
    · exact .inr (Gives.run_value (gives_bind fun _ => gives_goesOn (by decide)) hc)
    obtain ⟨d, e, hd, he, rfl⟩ := run_bind_eq_ok.mp hc
    rw [acceptWord, run_accept] at hd
    split at hd
    · cases hd
      rw [if_pos rfl] at he
      have hgoes : GoesOn e.value :=
        Gives.run_value (gives_bind fun _ => gives_goesOn (by decide)) he
      exact .inr hgoes
    · cases hd
      cases he
      exact .inl rfl

/-- A choice gives what both of its sides give. -/
theorem gives_choice {p : α → Prop} {test : Rule Bool} {r s : Rule α} (hr : r.Gives p)
    (hs : s.Gives p) : (test >>= fun b => if b then r else s).Gives p := by
  refine gives_bind fun b => ?_
  split
  · exact hr
  · exact hs

/-- A path expression is no literal. -/
theorem gives_pathExpr (braces : Bool) : (pathExpr braces).Gives (· ≠ .literal) := by
  refine gives_bind fun form => ?_
  have hpath : Gives (· ≠ Shape.literal) (do
      if braces && (← next .brace) then within .brace fieldValues
      return .plain) := by
    refine gives_bind fun _ => ?_
    split
    · exact gives_bind fun _ => Shape.noConfusion
    · exact Shape.noConfusion
  refine gives_bind fun _ => ?_
  split
  · exact gives_bind fun _ => Shape.noConfusion
  · exact hpath

/-- An atom that is a literal has taken it and nothing else. -/
theorem atom_literal {braces : Bool} {reply : Reply Shape}
    (h : (atom braces).run meaning closing trees = .ok reply) (hvalue : reply.value = .literal) :
    Terminal.literal.match? trees = some (reply.printed, reply.rest) := by
  rw [atom, run_next_bind] at h
  by_cases hsees : Sight.literal.sees trees = true
  · rw [if_pos hsees] at h
    obtain ⟨a, b, ha, hb, rfl⟩ := run_bind_eq_ok.mp h
    obtain ⟨taken, rest, c, hmatch, hc, rfl⟩ := run_take_eq_ok.mp ha
    cases hc
    cases hb
    simpa [Reply.after] using hmatch
  · rw [if_neg hsees] at h
    refine absurd hvalue (Gives.run_value (p := (· ≠ .literal)) ?_ h)
    have hplain {β : Type} {r : Rule β} : Gives (· ≠ Shape.literal) (r >>= fun _ => pure .plain) :=
      gives_bind fun _ => Shape.noConfusion
    -- One line for each kind of atom, in the order in which they are tried.
    refine gives_choice (gives_bind fun _ => gives_bind fun _ => hplain) ?_
    refine gives_choice hplain ?_
    refine gives_choice Shape.noConfusion ?_
    refine gives_choice (gives_pathExpr braces) ?_
    refine gives_choice hplain ?_
    refine gives_choice hplain ?_
    refine gives_choice hplain ?_
    refine gives_choice (gives_choice hplain Shape.noConfusion) ?_
    refine gives_choice hplain ?_
    refine gives_choice (gives_bind fun _ => gives_bind fun _ => gives_bind fun _ => hplain) ?_
    refine gives_choice (gives_choice hplain Shape.noConfusion) ?_
    refine gives_choice Shape.noConfusion ?_
    refine gives_choice (gives_bind fun _ => gives_bind fun _ => gives_bind fun _ =>
      Shape.noConfusion) ?_
    exact gives_choice Shape.noConfusion trivial

/-- A test that fails has taken nothing. -/
def TakesOnSuccess (meaning : Meaning) (test : Rule Bool) : Prop :=
  ∀ closing trees a, test.run meaning closing trees = .ok a → a.value = false →
    a = ⟨false, [], trees, none⟩

theorem takesOnSuccess_accept (t : Terminal) : TakesOnSuccess meaning (accept t) := by
  intro closing trees a ha hvalue
  rw [run_accept] at ha
  split at ha <;> cases ha
  · cases hvalue
  · rfl

theorem takesOnSuccess_acceptAny (operators : List String) :
    TakesOnSuccess meaning (acceptAny operators) := by
  induction operators with
  | nil =>
    intro closing trees a ha _
    cases ha
    rfl
  | cons chars rest ih =>
    intro closing trees a ha hvalue
    obtain ⟨b, c, hb, hc, rfl⟩ := run_bind_eq_ok.mp ha
    cases hfound : b.value with
    | true =>
      rw [hfound] at hc
      cases hc
      cases hvalue
    | false =>
      obtain rfl := takesOnSuccess_accept _ closing trees b hb hfound
      obtain rfl := ih closing trees c hc hvalue
      rfl

/-- If one side of a choice cannot give the value, the other side was taken. -/
theorem run_choice_eq_ok {p : α → Prop} {test : Rule Bool} {r s : Rule α} {reply : Reply α}
    (htest : TakesOnSuccess meaning test) (hr : r.Gives fun a => ¬p a) (hvalue : p reply.value)
    (h : (test >>= fun b => if b then r else s).run meaning closing trees = .ok reply) :
    s.run meaning closing trees = .ok reply := by
  obtain ⟨a, b, ha, hb, rfl⟩ := run_bind_eq_ok.mp h
  cases hfound : a.value with
  | true =>
    rw [hfound, if_pos rfl] at hb
    have hother : ¬p b.value := hr.run_value hb
    exact absurd hvalue hother
  | false =>
    obtain rfl := htest closing trees a ha hfound
    rw [Reply.after_nil]
    exact hb

/-- An operand that is a literal, without an attribute, has taken it and nothing else. -/
theorem operand_literal {braces : Bool} {reply : Reply Shape}
    (hnone : ((Sight.op "#").sees trees && Sight.bracket.seesAfter 1 trees) = false)
    (h : (operand braces).run meaning closing trees = .ok reply) (hvalue : reply.value = .literal) :
    Terminal.literal.match? trees = some (reply.printed, reply.rest) := by
  obtain ⟨r, hr, rfl⟩ := run_writtenIf_eq_ok.mp h
  rw [run_next_bind] at hr
  obtain ⟨a, b, ha, hb, rfl⟩ := run_bind_eq_ok.mp hr
  obtain rfl := attributes_eq_ok hnone ha
  rw [Reply.after_nil] at hvalue ⊢
  replace hb := run_choice_eq_ok (p := (· = .literal)) (takesOnSuccess_accept _) ?_ hvalue hb
  replace hb := run_choice_eq_ok (p := (· = .literal)) (takesOnSuccess_acceptAny _) ?_ hvalue hb
  · obtain ⟨c, d, hc, hd, rfl⟩ := run_bind_eq_ok.mp hb
    obtain ⟨e, f, he, hf, rfl⟩ := run_bind_eq_ok.mp hd
    obtain rfl : f = ⟨e.value, [], e.rest, none⟩ := by
      split at hf
      · dsimp only at hf
        split at hf
        · cases hf
        · cases hf
          rfl
      · cases hf
        rfl
    obtain rfl := trailers_literal he hvalue
    have hmatch := atom_literal hc hvalue
    have hkept : (c.value == Shape.asWritten) = false := by
      rw [show c.value = .literal from hvalue]
      decide
    simpa [Reply.after, hkept] using hmatch
  · exact gives_bind fun _ => Shape.noConfusion
  · refine gives_bind fun _ => gives_bind fun _ => gives_bind fun _ => ?_
    split
    · exact gives_bind fun _ => gives_bind fun _ => gives_bind fun _ => Shape.noConfusion
    · exact gives_bind fun _ => gives_bind fun _ => Shape.noConfusion

/-- A literal that is taken is all that is taken. -/
theorem run_literal_match {reply : Reply Unit}
    (h : literal.run meaning closing trees = .ok reply) :
    Terminal.literal.match? trees = some (reply.printed, reply.rest) := by
  obtain ⟨taken, rest, b, hmatch, hb, rfl⟩ := run_take_eq_ok.mp h
  cases hb
  simpa using hmatch

/-- Calling another rule runs it. -/
@[simp] theorem run_phrase (n : Nonterminal) :
    (phrase n).run meaning closing trees = meaning n closing trees := by
  rw [phrase, Rule.run]
  rcases meaning n closing trees with e | r
  · rfl
  · simp [Rule.run, Reply.after]

/-- An expression that is a literal, without an attribute, has taken it and nothing else. -/
theorem expr_literal {depth : Nat} {braces : Bool} {reply : Reply Shape}
    (hnone : ((Sight.op "#").sees trees && Sight.bracket.seesAfter 1 trees) = false)
    (h : meaningOf rules depth (.expr braces) closing trees = .ok reply)
    (hvalue : reply.value = .literal) :
    Terminal.literal.match? trees = some (reply.printed, reply.rest) := by
  cases depth with
  | zero => cases h
  | succ depth =>
    obtain ⟨a, b, ha, hb, rfl⟩ := run_bind_eq_ok.mp h
    rw [run_phrase] at ha hb
    cases depth with
    | zero => cases ha
    | succ depth =>
      obtain rfl := exprFrom_literal hb hvalue
      have hmatch := operand_literal hnone ha hvalue
      simpa [Reply.after] using hmatch

/-- The value behind an equality sign is a literal only if it is that literal alone. -/
theorem attributeValue_literal {depth : Nat} {reply : Reply Shape}
    (h : attributeValue.run (meaningOf rules depth) closing trees = .ok reply)
    (hvalue : reply.value = .literal) :
    Terminal.literal.match? trees = some (reply.printed, reply.rest) := by
  obtain ⟨a, b, ha, hb, rfl⟩ := run_bind_eq_ok.mp h
  obtain ⟨alone, rfl⟩ : ∃ alone, a = ⟨alone, [], trees, none⟩ := by
    simp only [Rule.run] at ha
    split at ha <;> cases ha <;> exact ⟨_, rfl⟩
  rw [Reply.after_nil] at hvalue ⊢
  split at hb
  · obtain ⟨c, d, hc, hd, rfl⟩ := run_bind_eq_ok.mp hb
    cases hd
    simpa [Reply.after] using run_literal_match hc
  · rw [run_next_bind, run_second_bind] at hb
    split at hb
    · cases hb
    · rename_i hnone
      exact expr_literal (by simpa using hnone) (by simpa using hb) hvalue

/-! ### A literal in front of a comma -/

/-- A literal in front of a comma is an operand. -/
theorem operand_of_literal {braces : Bool} {text : String} {place : Place}
    {spacing : Token.Spacing} {sign : Place} :
    (operand braces).run meaning closing (.literal text place :: .punct ',' spacing sign :: trees) =
      .ok ⟨.literal, [.literal text place], .punct ',' spacing sign :: trees, none⟩ := by
  cases spacing <;> rfl

/-- Nothing binds an operand in front of a comma. -/
theorem exprFrom_of_comma {braces : Bool} {spacing : Token.Spacing} {sign : Place} :
    (exprFrom .literal .jump braces).run meaning closing (.punct ',' spacing sign :: trees) =
      .ok ⟨.literal, [], .punct ',' spacing sign :: trees, none⟩ := by
  cases spacing <;> rfl

/-- The end of an argument: nothing follows, or a comma. -/
def EndsArgument (rest : List Tree) : Prop :=
  rest = [] ∨ ∃ spacing sign tail, rest = .punct ',' spacing sign :: tail

/-- A literal behind an equality sign is read as a literal in every position of a list: as the last
thing by looking ahead, in front of a comma as an expression. -/
theorem attributeValue_of_literal {depth : Nat} {text : String} {place : Place} {rest : List Tree}
    (hdepth : 3 ≤ depth) (hend : EndsArgument rest) :
    attributeValue.run (meaningOf rules depth) closing (.literal text place :: rest) =
      .ok ⟨.literal, [.literal text place], rest, none⟩ := by
  rcases hend with rfl | ⟨spacing, sign, tail, rfl⟩
  · rfl
  · obtain ⟨depth, rfl⟩ : ∃ d, depth = d + 3 := ⟨depth - 3, by omega⟩
    refine (run_phrase _).trans (run_bind_eq_ok.mpr
      ⟨⟨.literal, [.literal text place], .punct ',' spacing sign :: tail, none⟩,
        ⟨.literal, [], .punct ',' spacing sign :: tail, none⟩, ?_, ?_, rfl⟩)
    · exact (run_phrase _).trans operand_of_literal
    · exact (run_phrase _).trans exprFrom_of_comma

/-! ### A number behind a dot -/

/-- The positions that a number stands for end where it does, unless a dot remains. -/
theorem dottedPositions_last {spot : Place} {pieces : List (List Char)} {printed : List Tree}
    (hne : pieces ≠ []) (h : dottedPositions spot pieces = .ok (printed, false)) :
    printed.getLast?.map Tree.place = some spot := by
  fun_induction dottedPositions spot pieces generalizing printed with
  | case1 => exact absurd rfl hne
  | case2 => cases h
  | case3 => cases h; rfl
  | case4 => cases h
  | case5 piece rest _ hrest n hindex ih =>
    cases hfurther : dottedPositions spot rest with
    | error cause => simp [hfurther, Except.map] at h
    | ok further =>
    obtain ⟨further, dangling⟩ := further
    rw [hfurther] at h ih
    cases h
    obtain ⟨last, hlast, hplace⟩ := Option.map_eq_some_iff.mp (ih hrest rfl)
    simp [List.getLast?_cons, hlast, hplace]
  | case6 => cases h

theorem splitDots_ne_nil (piece text : List Char) : splitDots piece text ≠ [] := by
  fun_induction splitDots piece text <;> simp_all

end Rule

end KeyedModel.Grammar
