import KeyedModel.Proofs.Grammar.Advancing
import KeyedModel.Proofs.Grammar.Literals

/-!
# Looking as far as a comma

The elements of a list are read with the rest of the list behind them. What can be seen in front of
the comma behind an element, and at the comma itself, does not change with what stands behind it.
-/

namespace KeyedModel.Grammar

open Token (Tree Place Spacing Delimiter)
open Rule (EndsArgument)

variable {listed : Bool} {front back tail tail' trees taken rest : List Tree}

/-! ### What stands behind an element -/

/-- What stands behind the tokens that are read, and what may stand there in its place: nothing, or
in a list a comma with no fewer tokens behind it. -/
inductive Behind (listed : Bool) : List Tree → List Tree → Prop where
  | nothing : Behind listed [] []
  | comma {spacing : Spacing} {sign : Place} {more more' : List Tree} (hlisted : listed = true)
    (hlength : more.length ≤ more'.length) :
    Behind listed (.punct ',' spacing sign :: more) (.punct ',' spacing sign :: more')

namespace Behind

theorem ends (h : Behind listed tail tail') : EndsArgument tail := by
  cases h with
  | nothing => exact .inl rfl
  | comma => exact .inr ⟨_, _, _, rfl⟩

theorem ends' (h : Behind listed tail tail') : EndsArgument tail' := by
  cases h with
  | nothing => exact .inl rfl
  | comma => exact .inr ⟨_, _, _, rfl⟩

theorem length_le (h : Behind listed tail tail') : tail.length ≤ tail'.length := by
  cases h with
  | nothing => exact Nat.le_refl _
  | comma _ hlength => exact Nat.succ_le_succ hlength

/-- The place of the next token is the same. -/
theorem frontPlace_eq (h : Behind listed tail tail') (closing : Place) :
    frontPlace closing (front ++ tail) = frontPlace closing (front ++ tail') := by
  cases front with
  | cons t front => rfl
  | nil => cases h <;> rfl

theorem isEmpty_eq (h : Behind listed tail tail') :
    (front ++ tail).isEmpty = (front ++ tail').isEmpty := by
  cases front with
  | cons t front => rfl
  | nil => cases h <;> rfl

/-- A group in front of a comma is one of the tokens that stand there. -/
theorem group_eq {d : Delimiter} {opening closed : Place} {inner : List Tree}
    (htail : Behind listed tail tail') (h : front ++ tail = .group d opening inner closed :: rest) :
    ∃ more, front = .group d opening inner closed :: more ∧ rest = more ++ tail := by
  cases front with
  | nil => cases htail <;> cases h
  | cons t front =>
    obtain ⟨rfl, rfl⟩ := List.cons.inj h
    exact ⟨front, rfl, rfl⟩

/-- A token that is skipped stands in front of the same tokens. -/
theorem skipOne_append (h : Behind listed tail tail') (hskip : skipOne front = some rest) :
    skipOne (front ++ tail) = some (rest ++ tail) ∧
      skipOne (front ++ tail') = some (rest ++ tail') := by
  unfold skipOne at hskip
  split at hskip
  · cases hskip
  · cases hskip
    exact ⟨rfl, rfl⟩
  · rename_i t more hlifetime
    cases hskip
    cases rest with
    | nil => cases h <;> constructor <;> simp [skipOne]
    | cons u rest =>
      have hskip (other : List Tree) : skipOne (t :: u :: (rest ++ other)) = some (u :: (rest ++ other)) := by
        unfold skipOne
        split
        · contradiction
        · rename_i heq
          cases heq
          exact absurd rfl (hlifetime _ _ _ _ rfl)
        · simp_all
      exact ⟨hskip tail, hskip tail'⟩

end Behind

/-! ### Terminals -/

/-- No comma is taken for the terminal. -/
def Terminal.commaless : Terminal → Bool
  | op chars => !chars.toList.contains ','
  | _ => true

/-- An operator takes its characters from the front, whatever follows them. -/
theorem matchOp_append {chars : List Char} (h : matchOp chars trees = some (taken, rest)) :
    ∃ used, trees = used ++ rest ∧ (∀ other, matchOp chars (used ++ other) = some (taken, other)) ∧
      ∀ u ∈ used, ∃ c ∈ chars, ∃ spacing place, u = .punct c spacing place := by
  fun_induction matchOp chars trees generalizing taken rest with
  | case1 c d spacing place tail heq =>
    obtain ⟨rfl, rfl⟩ := Prod.mk.inj (Option.some.inj h)
    obtain rfl : c = d := by simpa using heq
    exact ⟨[.punct c spacing place], rfl, fun other => by simp [matchOp], by simp⟩
  | case2 => cases h
  | case3 c more d place tail hmore heq ih =>
    obtain ⟨r, hr, heq'⟩ := Option.map_eq_some_iff.mp h
    obtain ⟨rfl, rfl⟩ := Prod.mk.inj heq'
    obtain rfl : c = d := by simpa using heq
    obtain ⟨used, rfl, hused, hchars⟩ := ih hr
    refine ⟨.punct c .joint place :: used, rfl, fun other => ?_, ?_⟩
    · cases more with
      | nil => exact absurd rfl hmore
      | cons e more => simp [matchOp, hused other]
    · intro u hu
      rcases List.mem_cons.mp hu with rfl | hu
      · exact ⟨c, List.mem_cons_self, .joint, place, rfl⟩
      · obtain ⟨e, he, hpunct⟩ := hchars u hu
        exact ⟨e, List.mem_cons_of_mem _ he, hpunct⟩
  | case4 => cases h
  | case5 => cases h

/-- A literal is taken from the front, whatever follows it. -/
theorem matchLiteral_append {admits : Token.LiteralKind → Bool}
    (h : matchLiteral admits trees = some (taken, rest)) :
    ∃ used, trees = used ++ rest ∧
      (∀ other, matchLiteral admits (used ++ other) = some (taken, other)) ∧
      ∀ spacing place, Tree.punct ',' spacing place ∉ used := by
  unfold matchLiteral at h
  split at h
  · split at h
    · rename_i text place _ hadmits
      cases h
      exact ⟨[.literal text place], rfl, fun other => by simp [matchLiteral, hadmits], by simp⟩
    · cases h
  · split at h
    · rename_i word place _ hadmits
      cases h
      exact ⟨[.ident word place], rfl, fun other => by simp [matchLiteral, hadmits], by simp⟩
    · cases h
  · dsimp only at h
    split at h
    · rename_i spacing place text spot _ hadmits
      cases h
      exact ⟨[.punct '-' spacing place, .literal text spot], rfl,
        fun other => by simp [matchLiteral, hadmits], by simp⟩
    · cases h
  · cases h

/-- A terminal is taken from the front, whatever follows it. -/
theorem Terminal.match?_append {t : Terminal} (h : t.match? trees = some (taken, rest)) :
    ∃ used, used ≠ [] ∧ trees = used ++ rest ∧
      (∀ other, t.match? (used ++ other) = some (taken, other)) ∧
      (t.commaless = true → ∀ spacing place, Tree.punct ',' spacing place ∉ used) := by
  have hlt := Terminal.match?_lt h
  have hne (used : List Tree) (heq : trees = used ++ rest) : used ≠ [] := by
    rintro rfl
    exact absurd hlt (by simp [heq])
  have hliteral (admits : Token.LiteralKind → Bool)
      (hmatch : matchLiteral admits trees = some (taken, rest)) :
      ∃ used, used ≠ [] ∧ trees = used ++ rest ∧
        (∀ other, matchLiteral admits (used ++ other) = some (taken, other)) ∧
        (true = true → ∀ spacing place, Tree.punct ',' spacing place ∉ used) := by
    obtain ⟨used, heq, hused, hcomma⟩ := matchLiteral_append hmatch
    exact ⟨used, hne used heq, heq, hused, fun _ => hcomma⟩
  cases t with
  | op chars =>
    obtain ⟨used, heq, hused, hchars⟩ := matchOp_append h
    refine ⟨used, hne used heq, heq, hused, fun hcommaless spacing place hmem => ?_⟩
    obtain ⟨c, hc, _, _, hpunct⟩ := hchars _ hmem
    obtain ⟨rfl, -⟩ := Tree.punct.inj hpunct
    simp [commaless, hc] at hcommaless
  | literal => exact hliteral (fun _ => true) h
  | textLiteral => exact hliteral (· == .text) h
  | intLiteral => exact hliteral (· == .int) h
  | floatLiteral => exact hliteral (· == .float) h
  | word w =>
    obtain ⟨place, rfl, rfl⟩ := match?_word.mp h
    exact ⟨[_], by simp, rfl, fun other => match?_word.mpr ⟨place, rfl, rfl⟩, by simp⟩
  | anyWord =>
    obtain ⟨w, place, rfl, rfl⟩ := match?_anyWord.mp h
    exact ⟨[_], by simp, rfl, fun other => match?_anyWord.mpr ⟨w, place, rfl, rfl⟩, by simp⟩
  | name =>
    obtain ⟨w, place, rfl, rfl, hname⟩ := match?_name.mp h
    exact ⟨[_], by simp, rfl, fun other => match?_name.mpr ⟨w, place, rfl, rfl, hname⟩, by simp⟩
  | lifetime =>
    obtain ⟨mark, w, place, rfl, rfl⟩ := match?_lifetime.mp h
    exact ⟨[_, _], by simp, rfl, fun other => match?_lifetime.mpr ⟨mark, w, place, rfl, rfl⟩,
      by simp⟩

/-! ### Sights -/

namespace Sight

/-- Whether the sight comes can be told without looking behind a comma. -/
class Near (s : Sight) : Prop where
  sees_eq : ∀ {listed : Bool} {front tail tail' : List Tree}, Behind listed tail tail' →
    s.sees (front ++ tail) = s.sees (front ++ tail')

/-- The sight never comes at a comma or at the end. -/
class Inner (s : Sight) : Prop extends s.Near where
  sees_tail : ∀ {listed : Bool} {tail tail' : List Tree}, Behind listed tail tail' →
    s.sees tail = false

/-- What is taken stands in front of a comma. -/
theorem match?_of_append {t : Terminal} (ht : t.commaless = true) (htail : EndsArgument tail)
    (hmatch : t.match? (front ++ tail) = some (taken, rest)) :
    ∃ used more, used ≠ [] ∧ front = used ++ more ∧
      ∀ other, t.match? (used ++ other) = some (taken, other) := by
  obtain ⟨used, hne, heq, hused, hcomma⟩ := Terminal.match?_append hmatch
  rcases List.append_eq_append_iff.mp heq with ⟨more, rfl, htaken⟩ | ⟨more, rfl, -⟩
  · rcases htail with rfl | ⟨spacing, sign, behind, rfl⟩
    · obtain ⟨rfl, -⟩ := List.append_eq_nil_iff.mp htaken.symm
      exact ⟨front, [], by simpa using hne, by simp, by simpa using hused⟩
    · cases more with
      | nil => exact ⟨front, [], by simpa using hne, by simp, by simpa using hused⟩
      | cons t more =>
        obtain ⟨rfl, -⟩ := List.cons.inj htaken
        exact absurd (by simp) (hcomma ht spacing sign)
  · exact ⟨used, more, hne, rfl, hused⟩

theorem inner_of_commaless {t : Terminal} (ht : t.commaless = true) : (terminal t).Inner where
  sees_eq {_ front tail tail'} h := by
    cases hmatch : t.match? (front ++ tail) with
    | some r =>
      obtain ⟨used, more, -, rfl, hused⟩ := match?_of_append ht h.ends hmatch
      simp [sees, List.append_assoc, hused]
    | none =>
      cases hmatch' : t.match? (front ++ tail') with
      | none => simp [sees, hmatch, hmatch']
      | some r =>
        obtain ⟨used, more, -, rfl, hused⟩ := match?_of_append ht h.ends' hmatch'
        simp [hused] at hmatch
  sees_tail {_ tail _} h := by
    cases hmatch : t.match? ([] ++ tail) with
    | none => simpa [sees] using hmatch
    | some r =>
      obtain ⟨used, more, hne, heq, -⟩ := match?_of_append ht h.ends hmatch
      exact absurd (List.append_eq_nil_iff.mp heq.symm).1 hne

instance (w : String) : (word w).Inner := inner_of_commaless rfl
instance : anyWord.Inner := inner_of_commaless rfl
instance : name.Inner := inner_of_commaless rfl
instance : lifetime.Inner := inner_of_commaless rfl
instance : literal.Inner := inner_of_commaless rfl
instance : (terminal .textLiteral).Inner := inner_of_commaless rfl
instance : (terminal .intLiteral).Inner := inner_of_commaless rfl
instance : (terminal .floatLiteral).Inner := inner_of_commaless rfl

instance (d : Delimiter) : (group d).Inner where
  sees_eq {_ front _ _} h := by
    cases front with
    | cons t front => cases t <;> rfl
    | nil => cases h <;> rfl
  sees_tail h := by cases h <;> rfl

instance : nothing.Near := ⟨fun h => h.isEmpty_eq⟩

instance : (op ",").Near where
  sees_eq {_ front _ _} h := by
    cases front with
    | cons t front =>
      cases t with
      | punct d spacing place => cases spacing <;> simp [sees, Terminal.match?, matchOp] <;> split <;> rfl
      | _ => rfl
    | nil => cases h <;> rfl

/-- There is no comma among the characters of the operator. -/
class Commaless (chars : String) : Prop where
  out : (Terminal.op chars).commaless = true

instance (chars : String) [h : Commaless chars] : (op chars).Inner := inner_of_commaless h.out

instance : Commaless "::" := ⟨by decide⟩
instance : Commaless ":" := ⟨by decide⟩
instance : Commaless ";" := ⟨by decide⟩
instance : Commaless "<" := ⟨by decide⟩
instance : Commaless ">" := ⟨by decide⟩
instance : Commaless "=" := ⟨by decide⟩
instance : Commaless "=>" := ⟨by decide⟩
instance : Commaless "->" := ⟨by decide⟩
instance : Commaless "+" := ⟨by decide⟩
instance : Commaless "-" := ⟨by decide⟩
instance : Commaless "*" := ⟨by decide⟩
instance : Commaless "&" := ⟨by decide⟩
instance : Commaless "|" := ⟨by decide⟩
instance : Commaless "!" := ⟨by decide⟩
instance : Commaless "?" := ⟨by decide⟩
instance : Commaless "@" := ⟨by decide⟩
instance : Commaless "#" := ⟨by decide⟩
instance : Commaless "." := ⟨by decide⟩
instance : Commaless ".." := ⟨by decide⟩
instance : Commaless "..=" := ⟨by decide⟩
instance : Commaless "..." := ⟨by decide⟩
instance : Commaless "<=" := ⟨by decide⟩
instance : Commaless "!=" := ⟨by decide⟩
instance : Commaless "-=" := ⟨by decide⟩
instance : Commaless "*=" := ⟨by decide⟩
instance : Commaless "&=" := ⟨by decide⟩
instance : Commaless "|=" := ⟨by decide⟩
instance : Commaless "<<=" := ⟨by decide⟩
instance : Commaless "||" := ⟨by decide⟩
instance : Commaless "/" := ⟨by decide⟩
instance : Commaless "%" := ⟨by decide⟩
instance : Commaless "^" := ⟨by decide⟩

end Sight

/-- There are so many tokens in front. -/
def Reaches : Nat → List Tree → Prop
  | 0, _ => True
  | ahead + 1, front => ∃ rest, skipOne front = some rest ∧ Reaches ahead rest

theorem Reaches.mono {ahead far : Nat} (h : Reaches ahead front) (hfar : far ≤ ahead) :
    Reaches far front := by
  induction far generalizing ahead front with
  | zero => trivial
  | succ far ih =>
    obtain ⟨ahead, rfl⟩ : ∃ n, ahead = n + 1 := ⟨ahead - 1, by omega⟩
    obtain ⟨rest, hskip, hrest⟩ := h
    exact ⟨rest, hskip, ih hrest (Nat.le_of_succ_le_succ hfar)⟩

namespace Sight

variable {s : Sight} {ahead : Nat}

/-- A sight is looked for in front of a comma or at it. -/
theorem Near.seesAfter_eq (hs : s.Near) (h : Behind listed tail tail') (hreach : Reaches ahead front) :
    s.seesAfter ahead (front ++ tail) = s.seesAfter ahead (front ++ tail') := by
  induction ahead generalizing front with
  | zero => exact hs.sees_eq h
  | succ ahead ih =>
    obtain ⟨rest, hskip, hrest⟩ := hreach
    obtain ⟨hleft, hright⟩ := h.skipOne_append hskip
    simp only [seesAfter, hleft, hright, Option.any_some, ih hrest]

/-- What is seen there is one more token in front of the comma. -/
theorem Inner.reaches (hs : s.Inner) (h : Behind listed tail tail') (hreach : Reaches ahead front)
    (hsees : s.seesAfter ahead (front ++ tail) = true) : Reaches (ahead + 1) front := by
  induction ahead generalizing front with
  | zero =>
    cases front with
    | nil =>
      rw [List.nil_append, seesAfter, hs.sees_tail h] at hsees
      cases hsees
    | cons t front =>
      unfold Reaches skipOne
      split <;> simp_all [Reaches]
  | succ ahead ih =>
    obtain ⟨rest, hskip, hrest⟩ := hreach
    rw [seesAfter, (h.skipOne_append hskip).1, Option.any_some] at hsees
    exact ⟨rest, hskip, ih hrest hsees⟩

/-- A separator is two tokens. -/
theorem reaches_separator (h : Behind listed tail tail')
    (hsees : (op "::").sees (front ++ tail) = true) : Reaches 2 front := by
  obtain ⟨⟨taken, rest⟩, hmatch⟩ := Option.isSome_iff_exists.mp hsees
  obtain ⟨used, more, -, rfl, hused⟩ := match?_of_append (by decide) h.ends hmatch
  have hop : matchOp [':', ':'] (used ++ []) = some (taken, []) := hused []
  -- neither of the two colons is the mark of a lifetime, so each is a token of its own
  rcases used with _ | ⟨_ | ⟨c, spacing, _⟩ | _ | _, _ | ⟨_ | ⟨d, _, _⟩ | _ | _, used⟩⟩
  all_goals try cases hop
  all_goals cases spacing <;> simp [matchOp] at hop
  obtain ⟨rfl, ⟨rfl, -⟩, -⟩ := hop
  exact ⟨_, rfl, _, rfl, trivial⟩

end Sight

end KeyedModel.Grammar
