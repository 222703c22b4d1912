import KeyedModel.Grammar.Language
import KeyedModel.Proofs.Grammar.Running

/-!
# Operands take a token

A rule may succeed without taking a token, but an operand may not: whatever kind of expression is
found, it begins with a token of its own. So nothing that is kept as it was written ends directly
behind a binary operator.

Whether a rule takes a token is a class, and instances find it for a rule from its parts. A test
takes one only if it succeeds, so the class speaks of the values for which a token was taken.
-/

namespace KeyedModel.Grammar

open Token (Tree Place Delimiter)

set_option synthInstance.maxSize 10000

variable {α β : Type} {trees : List Tree}

/-- Whether phrases of this kind take a token. -/
def Nonterminal.advances : Nonterminal → Bool
  | .expr _ | .operand _ | .rightOperand _ _ => true
  | _ => false

/-- Operands take a token, and so do expressions, which begin with one. -/
def Meaning.Advances (meaning : Meaning) : Prop :=
  ∀ n closing trees reply, n.advances = true → meaning n closing trees = .ok reply →
    reply.rest.length < trees.length

namespace Rule

/-- Where the rule gives such a value it has taken a token, if operands do. -/
class AdvancesWhen (p : α → Prop) (r : Rule α) : Prop where
  run_lt : ∀ {meaning : Meaning} {closing : Place} {trees : List Tree} {reply : Reply α},
    meaning.GoesForward → meaning.Advances → r.run meaning closing trees = .ok reply →
      p reply.value → reply.rest.length < trees.length

/-- The rule takes a token if operands do. -/
abbrev Advances (r : Rule α) : Prop := r.AdvancesWhen fun _ => True

/-- A test that succeeds has taken a token if operands do. -/
abbrev AdvancesIf (test : Rule Bool) : Prop := test.AdvancesWhen (· = true)

variable {p : α → Prop} {q : β → Prop}

/-! ### Rules in a row -/

instance {r : Rule α} {f : α → Rule β} [hr : r.Advances] : (r >>= f).AdvancesWhen q where
  run_lt hforward hadvances h _ := by
    obtain ⟨a, b, ha, hb, rfl⟩ := run_bind_eq_ok.mp h
    have hrest := (run_suffix hforward hb).length_le
    exact Nat.lt_of_le_of_lt hrest (hr.run_lt hforward hadvances ha trivial)

instance {r : Rule α} {f : α → Rule β} [hf : ∀ a, (f a).AdvancesWhen q] :
    (r >>= f).AdvancesWhen q where
  run_lt hforward hadvances h hvalue := by
    obtain ⟨a, b, ha, hb, rfl⟩ := run_bind_eq_ok.mp h
    have hrest := (run_suffix hforward ha).length_le
    have htaken := (hf a.value).run_lt hforward hadvances hb hvalue
    exact Nat.lt_of_lt_of_le htaken hrest

/-- In a choice the test has taken a token, or the other side does. -/
instance {test : Rule Bool} {r s : Rule α} [htest : test.AdvancesIf] [hs : s.AdvancesWhen p] :
    (test >>= fun b => if b then r else s).AdvancesWhen p where
  run_lt hforward hadvances h hvalue := by
    obtain ⟨a, b, ha, hb, rfl⟩ := run_bind_eq_ok.mp h
    cases htested : a.value with
    | true =>
      have hrest := (run_suffix hforward hb).length_le
      exact Nat.lt_of_le_of_lt hrest (htest.run_lt hforward hadvances ha htested)
    | false =>
      rw [htested, if_neg Bool.false_ne_true] at hb
      have hrest := (run_suffix hforward ha).length_le
      have htaken := hs.run_lt hforward hadvances hb hvalue
      exact Nat.lt_of_lt_of_le htaken hrest

instance {c : Prop} [Decidable c] {r s : Rule α} [r.AdvancesWhen p] [s.AdvancesWhen p] :
    (if c then r else s).AdvancesWhen p := by
  split <;> infer_instance

instance : (pure false : Rule Bool).AdvancesIf where
  run_lt _ _ h hvalue := by
    cases h
    cases hvalue

instance (cause : Cause) : (.fail cause : Rule α).AdvancesWhen p where
  run_lt _ _ h _ := by cases h

instance (text : String) : (expectingPhrase text : Rule α).AdvancesWhen p :=
  inferInstanceAs (AdvancesWhen p (.fail _))

end Rule

/-! ### Terminals -/

theorem matchOp_lt {chars : List Char} {taken rest : List Tree}
    (h : matchOp chars trees = some (taken, rest)) : rest.length < trees.length := by
  fun_induction matchOp chars trees generalizing taken rest with
  | case1 c d spacing place tail heq =>
    obtain ⟨-, rfl⟩ := Prod.mk.inj (Option.some.inj h)
    exact Nat.lt_succ_self _
  | case2 => cases h
  | case3 c more d place tail hmore heq ih =>
    obtain ⟨r, hr, heq⟩ := Option.map_eq_some_iff.mp h
    obtain ⟨-, rfl⟩ := Prod.mk.inj heq
    exact Nat.lt_succ_of_lt (ih hr)
  | case4 => cases h
  | case5 => cases h

theorem matchLiteral_lt {admits : Token.LiteralKind → Bool} {taken rest : List Tree}
    (h : matchLiteral admits trees = some (taken, rest)) : rest.length < trees.length := by
  unfold matchLiteral at h
  split at h
  · split at h
    · obtain ⟨-, rfl⟩ := Prod.mk.inj (Option.some.inj h)
      simp
    · cases h
  · split at h
    · obtain ⟨-, rfl⟩ := Prod.mk.inj (Option.some.inj h)
      simp
    · cases h
  · dsimp only at h
    split at h
    · obtain ⟨-, rfl⟩ := Prod.mk.inj (Option.some.inj h)
      simp only [List.length_cons]
      omega
    · cases h
  · cases h

/-- Taking a terminal takes a token. -/
theorem Terminal.match?_lt {t : Terminal} {taken rest : List Tree}
    (h : t.match? trees = some (taken, rest)) : rest.length < trees.length := by
  cases t with
  | op chars => exact matchOp_lt h
  | literal => exact matchLiteral_lt (show matchLiteral (fun _ => true) trees = _ from h)
  | textLiteral => exact matchLiteral_lt (show matchLiteral (· == .text) trees = _ from h)
  | intLiteral => exact matchLiteral_lt (show matchLiteral (· == .int) trees = _ from h)
  | floatLiteral => exact matchLiteral_lt (show matchLiteral (· == .float) trees = _ from h)
  | word w =>
    obtain ⟨place, rfl, -⟩ := match?_word.mp h
    simp
  | anyWord =>
    obtain ⟨w, place, rfl, -⟩ := match?_anyWord.mp h
    simp
  | name =>
    obtain ⟨w, place, rfl, -⟩ := match?_name.mp h
    simp
  | lifetime =>
    obtain ⟨mark, w, place, rfl, -⟩ := match?_lifetime.mp h
    simp only [List.length_cons]
    omega

namespace Rule

variable {p : α → Prop}

instance {t : Terminal} {next : List Tree → Rule α} : (take t next).AdvancesWhen p where
  run_lt hforward _ h _ := by
    obtain ⟨taken, rest, b, hmatch, hb, rfl⟩ := run_take_eq_ok.mp h
    exact Nat.lt_of_le_of_lt (run_suffix hforward hb).length_le (Terminal.match?_lt hmatch)

instance {d : Delimiter} {body : Rule α} : (within d body).AdvancesWhen p where
  run_lt _ _ h _ := by
    unfold within Rule.run at h
    split at h
    · split at h
      · split at h
        · cases h
        · cases h
          simp
      · cases h
    · cases h

/-- Calling an operand takes a token. -/
theorem advances_call {n : Nonterminal} (hn : n.advances = true) (next : Shape → Rule α) :
    (call n next).AdvancesWhen p where
  run_lt hforward hadvances h _ := by
    simp only [Rule.run] at h
    split at h
    · cases h
    · rename_i hr
      split at h
      · cases h
      · rename_i hb
        cases h
        have htaken := hadvances _ _ _ _ hn hr
        exact Nat.lt_of_le_of_lt (run_suffix hforward hb).length_le htaken

instance (braces : Bool) : (phrase (.expr braces)).Advances := advances_call rfl _
instance (braces : Bool) : (phrase (.operand braces)).Advances := advances_call rfl _
instance (braces : Bool) : (phrase_ (.operand braces)).Advances := advances_call rfl _

instance (precedence : Precedence) (braces : Bool) :
    (phrase_ (.rightOperand precedence braces)).Advances := advances_call rfl _

instance (t : Terminal) : (token t).Advances := inferInstanceAs (Advances (.take t .done))
instance (chars : String) : (op chars).Advances := by unfold op; infer_instance
instance (w : String) : (word w).Advances := by unfold word; infer_instance
instance : name.Advances := by unfold name; infer_instance
instance : anyWord.Advances := by unfold anyWord; infer_instance
instance : lifetime.Advances := by unfold lifetime; infer_instance
instance : literal.Advances := by unfold literal; infer_instance
instance (t : Terminal) : (accept t).AdvancesIf := by unfold accept; infer_instance
instance (chars : String) : (acceptOp chars).AdvancesIf := by unfold acceptOp; infer_instance
instance (w : String) : (acceptWord w).AdvancesIf := by unfold acceptWord; infer_instance

instance (limit : Nat) (body : Rule Bool) [body.Advances] :
    (repeatUpTo (limit + 1) body).Advances := by
  unfold repeatUpTo; infer_instance

/-- A repetition takes a token in its first round. -/
instance (body : Rule Bool) [body.Advances] : (repeatWhile body).Advances :=
  inferInstanceAs (Advances (.remaining .done >>= fun n => repeatUpTo (n + 1) body))

instance (known : List Expected) (sights : List Sight) :
    (expectingFrom known sights : Rule α).AdvancesWhen p := by
  induction sights generalizing known <;> unfold expectingFrom <;> infer_instance

instance (sights : List Sight) : (expecting sights : Rule α).AdvancesWhen p := by
  unfold expecting; infer_instance

/-! ### Operands -/

instance (operators : List String) : (acceptAny operators).AdvancesIf := by
  induction operators <;> unfold acceptAny <;> infer_instance

instance (inExpr : Bool) : (segment inExpr).Advances := by unfold segment; infer_instance
instance (inExpr : Bool) : (path inExpr).Advances := by unfold path; infer_instance
instance (inExpr : Bool) : (qualifiedPath inExpr).Advances := by
  unfold qualifiedPath; infer_instance
instance : valuePath.Advances := by unfold valuePath; infer_instance
instance (braces : Bool) : (pathExpr braces).Advances := by unfold pathExpr; infer_instance
instance (braces : Bool) : (closure braces).Advances := by unfold closure; infer_instance
instance : parenExpr.Advances := by unfold parenExpr; infer_instance
instance : arrayExpr.Advances := by unfold arrayExpr; infer_instance
instance : conditional.Advances := by unfold conditional; infer_instance
instance : block.Advances := by unfold block; infer_instance
instance : attributedBlock.Advances := by unfold attributedBlock; infer_instance
instance : acceptLoop.AdvancesIf := by unfold acceptLoop; infer_instance
instance : labeled.Advances := by unfold labeled; infer_instance
instance : acceptBlockLike.AdvancesIf := by unfold acceptBlockLike; infer_instance
instance (braces : Bool) : (breakExpr braces).Advances := by unfold breakExpr; infer_instance

instance (body : Rule α) [hbody : body.Advances] : (held body).Advances where
  run_lt hforward hadvances h _ := by
    obtain ⟨a, ha, rfl⟩ := run_held_eq_ok.mp h
    exact hbody.run_lt hforward hadvances ha trivial

instance (keep : α → Bool) (body : Rule α) [hbody : body.Advances] :
    (writtenIf keep body).Advances where
  run_lt hforward hadvances h _ := by
    simp only [writtenIf, Rule.run] at h
    split at h
    · cases h
    · rename_i hr
      cases h
      have htaken := hbody.run_lt hforward hadvances hr trivial
      exact htaken

instance (body : Rule α) [body.Advances] : (written body).Advances :=
  inferInstanceAs (Advances (writtenIf _ body))

instance : acceptWritten.AdvancesIf := by unfold acceptWritten; infer_instance
instance : rangeLimits.Advances := by unfold rangeLimits; infer_instance
instance (braces : Bool) : (atom braces).Advances := by unfold atom; infer_instance
instance (braces : Bool) : (operand braces).Advances := by unfold operand; infer_instance

instance (precedence : Precedence) (braces : Bool) : (rightOperand precedence braces).Advances := by
  unfold rightOperand; infer_instance

instance (braces : Bool) : (expr braces).Advances := by unfold expr; infer_instance
instance : attributeValue.Advances := by unfold attributeValue; infer_instance

end Rule

/-- Operands take a token, however deeply phrases are nested. -/
theorem meaningOf_advances (depth : Nat) : (meaningOf rules depth).Advances := by
  induction depth with
  | zero =>
    intro n closing trees reply _ h
    cases h
  | succ depth ih =>
    intro n closing trees reply hn h
    have hforward := meaningOf_goesForward rules depth
    have hrule : (rules n).Advances := by
      cases n with
      | expr braces => exact inferInstanceAs (Rule.expr braces).Advances
      | operand braces => exact inferInstanceAs (Rule.operand braces).Advances
      | rightOperand precedence braces =>
        exact inferInstanceAs (Rule.rightOperand precedence braces).Advances
      | _ => cases hn
    exact hrule.run_lt hforward ih h trivial

end KeyedModel.Grammar
