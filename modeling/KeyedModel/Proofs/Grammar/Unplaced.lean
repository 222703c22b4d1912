import KeyedModel.Proofs.Grammar.Literals
import KeyedModel.Proofs.Token.Relexing

/-!
# Tokens without places

What stands at the front of the tokens does not depend on where they are, so the same terminals are
taken from tokens without their places. What is read may hold places itself. What a value is without
its places is said by a class for its type, and that a value is another one without its places is a
class as well, so that instances compare what is computed from such values.
-/

namespace KeyedModel.Grammar

open Token (Tree Place Delimiter unplacedAll)

set_option synthInstance.maxSize 10000000

/-! ### Values -/

/-- Values that may have places in them, and what they are without these. -/
class Placed (α : Type) where
  unplaced : α → α

open Placed (unplaced)

/-- There are no places in the values. -/
class Plain (α : Type) [Placed α] : Prop where
  unplaced_eq : ∀ a : α, unplaced a = a

/-- The second value is the first one without its places. -/
class Unplaced {α : Type} [Placed α] (a a' : α) : Prop where
  eq : a' = unplaced a

section

variable {α β : Type}

instance (priority := high) : Placed Place := ⟨fun _ => none⟩
instance : Placed Tree := ⟨Tree.unplaced⟩
instance : Placed Bool := ⟨id⟩
instance : Placed Unit := ⟨id⟩
instance : Placed Nat := ⟨id⟩
instance : Placed String := ⟨id⟩
instance : Placed Delimiter := ⟨id⟩
instance : Placed Precedence := ⟨id⟩
instance [Placed α] : Placed (List α) := ⟨List.map unplaced⟩
instance [Placed α] : Placed (Option α) := ⟨Option.map unplaced⟩
instance [Placed α] [Placed β] : Placed (α × β) := ⟨Prod.map unplaced unplaced⟩
instance [Placed α] [Placed β] : Placed (α ⊕ β) := ⟨Sum.map unplaced unplaced⟩
instance [Placed α] : Placed (Rule.Listed α) := ⟨fun l => ⟨unplaced l.element, unplaced l.comma⟩⟩

instance : Placed Shape where
  unplaced
    | .openRange _ => .openRange none
    | shape => shape

instance : Plain Bool := ⟨fun _ => rfl⟩
instance : Plain Unit := ⟨fun _ => rfl⟩
instance : Plain Nat := ⟨fun _ => rfl⟩
instance : Plain String := ⟨fun _ => rfl⟩
instance : Plain Delimiter := ⟨fun _ => rfl⟩
instance : Plain Precedence := ⟨fun _ => rfl⟩

instance [Placed α] [Placed β] [hα : Plain α] [hβ : Plain β] : Plain (α × β) :=
  ⟨fun p => Prod.ext (hα.unplaced_eq p.1) (hβ.unplaced_eq p.2)⟩

instance [Placed α] [Placed β] [hα : Plain α] [hβ : Plain β] : Plain (α ⊕ β) :=
  ⟨fun s => by cases s <;> simp [unplaced, hα.unplaced_eq, hβ.unplaced_eq]⟩

instance [Placed α] [hα : Plain α] : Plain (Option α) :=
  ⟨fun a => by cases a <;> simp [unplaced, hα.unplaced_eq]⟩

end

/-- The trees without their places. -/
theorem unplacedAll_eq (trees : List Tree) : unplacedAll trees = unplaced trees := by
  induction trees with
  | nil => rfl
  | cons t rest ih =>
    simp only [unplacedAll, ih]
    rfl

section

variable {α : Type} [Placed α]

@[simp] theorem unplaced_nil : unplaced ([] : List α) = [] := rfl

@[simp] theorem unplaced_cons (a : α) (rest : List α) :
    unplaced (a :: rest) = unplaced a :: unplaced rest := rfl

@[simp] theorem unplaced_append (front back : List α) :
    unplaced (front ++ back) = unplaced front ++ unplaced back := List.map_append

@[simp] theorem length_unplaced (list : List α) : (unplaced list).length = list.length :=
  List.length_map _

@[simp] theorem isEmpty_unplaced (list : List α) : (unplaced list).isEmpty = list.isEmpty :=
  List.isEmpty_map

theorem getLast?_unplaced (list : List α) : (unplaced list).getLast? = unplaced list.getLast? :=
  List.getLast?_map

@[simp] theorem unplaced_plain [h : Plain α] (a : α) : unplaced a = a := h.unplaced_eq a

@[simp] theorem unplaced_none : unplaced (none : Option α) = none := rfl
@[simp] theorem unplaced_some (a : α) : unplaced (some a) = some (unplaced a) := rfl

end

@[simp] theorem unplaced_place (place : Place) : unplaced place = none := rfl

@[simp] theorem unplaced_ident (name : String) (place : Place) :
    unplaced (Tree.ident name place) = .ident name none := rfl

@[simp] theorem unplaced_punct (c : Char) (spacing : Token.Spacing) (place : Place) :
    unplaced (Tree.punct c spacing place) = .punct c spacing none := rfl

@[simp] theorem unplaced_literal (text : String) (place : Place) :
    unplaced (Tree.literal text place) = .literal text none := rfl

@[simp] theorem unplaced_group (d : Delimiter) (opening closed : Place) (inner : List Tree) :
    unplaced (Tree.group d opening inner closed) = .group d none (unplaced inner) none := by
  rw [← unplacedAll_eq]
  rfl

section

variable {α β : Type} [Placed α] [Placed β] {a a' : α} {b b' : β} {list list' more more' : List α}

instance : Unplaced a (unplaced a) := ⟨rfl⟩
instance [h : Plain α] : Unplaced a a := ⟨(h.unplaced_eq a).symm⟩
instance [hα : Plain α] [BEq α] (sought : α) [h : Unplaced a a'] :
    Unplaced (a == sought) (a' == sought) :=
  ⟨by rw [h.eq, hα.unplaced_eq]; rfl⟩

instance [ha : Unplaced a a'] [hb : Unplaced b b'] : Unplaced (a, b) (a', b') :=
  ⟨by rw [ha.eq, hb.eq]; rfl⟩

instance [h : Unplaced a a'] : Unplaced (some a) (some a') := ⟨congrArg some h.eq⟩
instance : Unplaced (none : Option α) none := ⟨rfl⟩
instance (place : Place) : Unplaced place none := ⟨rfl⟩
instance [h : Unplaced a a'] : Unplaced (.inl a : α ⊕ β) (.inl a') := ⟨congrArg Sum.inl h.eq⟩
instance [h : Unplaced b b'] : Unplaced (.inr b : α ⊕ β) (.inr b') := ⟨congrArg Sum.inr h.eq⟩
instance : Unplaced ([] : List α) [] := ⟨rfl⟩

instance [ha : Unplaced a a'] [h : Unplaced list list'] : Unplaced (a :: list) (a' :: list') :=
  ⟨by rw [ha.eq, h.eq]; rfl⟩

instance [h : Unplaced list list'] [hmore : Unplaced more more'] :
    Unplaced (list ++ more) (list' ++ more') :=
  ⟨by rw [h.eq, hmore.eq]; exact List.map_append.symm⟩

instance [ha : Unplaced a a'] {comma comma' : List Tree} [h : Unplaced comma comma'] :
    Unplaced (Rule.Listed.mk a comma) ⟨a', comma'⟩ :=
  ⟨by rw [ha.eq, h.eq]; rfl⟩

section

variable {p p' : α × β} {l l' : Rule.Listed α} {o o' : Option α} {f f' : α → β}
  {g g' : α → List β} {keep keep' : α → Bool}

instance [h : Unplaced p p'] : Unplaced p.1 p'.1 := ⟨congrArg Prod.fst h.eq⟩
instance [h : Unplaced p p'] : Unplaced p.2 p'.2 := ⟨congrArg Prod.snd h.eq⟩
instance [h : Unplaced l l'] : Unplaced l.element l'.element := ⟨congrArg Rule.Listed.element h.eq⟩
instance [h : Unplaced l l'] : Unplaced l.comma l'.comma := ⟨congrArg Rule.Listed.comma h.eq⟩

instance [h : Unplaced list list'] [hf : ∀ a, Unplaced (f a) (f' (unplaced a))] :
    Unplaced (list.map f) (list'.map f') where
  eq := by
    rw [h.eq]
    simp [unplaced, List.map_map, Function.comp_def, fun a => (hf a).eq]

instance [h : Unplaced list list'] [hg : ∀ a, Unplaced (g a) (g' (unplaced a))] :
    Unplaced (list.flatMap g) (list'.flatMap g') where
  eq := by
    rw [h.eq]
    induction list with
    | nil => rfl
    | cons a rest ih => simp only [unplaced_cons, List.flatMap_cons, unplaced_append, (hg a).eq, ih]

instance [h : Unplaced list list'] [hkeep : ∀ a, Unplaced (keep a) (keep' (unplaced a))] :
    Unplaced (list.filter keep) (list'.filter keep') where
  eq := by
    rw [h.eq]
    induction list with
    | nil => rfl
    | cons a rest ih =>
      have hsame : keep' (unplaced a) = keep a := (hkeep a).eq
      simp only [unplaced_cons, List.filter_cons, hsame, ih]
      split <;> rfl

instance [h : Unplaced list list'] : Unplaced list.getLast? list'.getLast? :=
  ⟨by rw [h.eq]; exact getLast?_unplaced list⟩

instance [h : Unplaced o o'] [ha : Unplaced a a'] :
    Unplaced (o.getD a) (o'.getD a') where
  eq := by
    rw [h.eq, ha.eq]
    cases o <;> rfl

instance [h : Unplaced o o'] : Unplaced o.isNone o'.isNone where
  eq := by
    rw [h.eq]
    cases o <;> rfl

instance [h : Unplaced o o'] [hkeep : ∀ a, Unplaced (keep a) (keep' (unplaced a))] :
    Unplaced (o.any keep) (o'.any keep') where
  eq := by
    rw [h.eq]
    cases o with
    | none => rfl
    | some a => exact (hkeep a).eq

end

instance {b b' c c' : Bool} [hb : Unplaced b b'] [hc : Unplaced c c'] :
    Unplaced (b && c) (b' && c') :=
  ⟨by rw [hb.eq, hc.eq]; rfl⟩

instance {b b' c c' : Bool} [hb : Unplaced b b'] [hc : Unplaced c c'] :
    Unplaced (b || c) (b' || c') :=
  ⟨by rw [hb.eq, hc.eq]; rfl⟩

instance {b b' : Bool} [h : Unplaced b b'] : Unplaced (!b) (!b') := ⟨congrArg not h.eq⟩

instance [h : Unplaced list list'] : Unplaced list.isEmpty list'.isEmpty :=
  ⟨by rw [h.eq]; exact List.isEmpty_map⟩

instance {c : Prop} [Decidable c] {d d' : α} [Unplaced a a'] [Unplaced d d'] :
    Unplaced (if c then a else d) (if c then a' else d') := by
  split <;> infer_instance

instance {c c' : Bool} [hc : Unplaced c c'] {d d' : α} [Unplaced a a'] [Unplaced d d'] :
    Unplaced (if c then a else d) (if c' then a' else d') := by
  rw [show c' = c from hc.eq]
  infer_instance

end

/-! ### Terminals and sights -/

theorem matchOp_unplaced (chars : List Char) (trees : List Tree) :
    matchOp chars (unplaced trees) = unplaced (matchOp chars trees) := by
  fun_induction matchOp chars trees with
  | case1 c d spacing place rest heq =>
    simp only [unplaced_cons, unplaced_punct, matchOp, heq, if_true]
    rfl
  | case2 c d spacing place rest heq => simp [matchOp, heq]
  | case3 c more d place rest hmore heq ih =>
    cases more with
    | nil => exact absurd rfl hmore
    | cons e more =>
      simp only [unplaced_cons, unplaced_punct, matchOp, heq, if_true, ih]
      cases matchOp (e :: more) rest <;> rfl
  | case4 c more d place rest hmore heq =>
    cases more with
    | nil => exact absurd rfl hmore
    | cons e more => simp [matchOp, heq]
  | case5 chars trees hlast hmore =>
    rcases chars with _ | ⟨c, _ | ⟨e, more⟩⟩
    · rfl
    · rcases trees with _ | ⟨_ | ⟨d, spacing, place⟩ | _ | _, rest⟩
      · rfl
      · rfl
      · exact absurd rfl (hlast c d spacing place rest rfl)
      · rfl
      · rfl
    · rcases trees with _ | ⟨_ | ⟨d, _ | _, place⟩ | _ | _, rest⟩
      · rfl
      · rfl
      · rfl
      · exact absurd rfl (hmore c (e :: more) d place rest rfl)
      · rfl
      · rfl

theorem matchLiteral_unplaced (admits : Token.LiteralKind → Bool) (trees : List Tree) :
    matchLiteral admits (unplaced trees) = unplaced (matchLiteral admits trees) := by
  fun_cases matchLiteral admits trees with
  | case1 text place rest h => exact if_pos h
  | case2 text place rest h => exact if_neg h
  | case3 word place rest h => exact if_pos h
  | case4 word place rest h => exact if_neg h
  | case5 spacing place text spot rest kind h => exact if_pos h
  | case6 spacing place text spot rest kind h => exact if_neg h
  | case7 trees hliteral hident hnegative =>
    rcases trees with _ | ⟨_ | ⟨c, spacing, place⟩ | _ | _, _ | ⟨_ | _ | ⟨text, spot⟩ | _, rest⟩⟩
    all_goals try rfl
    all_goals try exact absurd rfl (hliteral _ _ _)
    all_goals try exact absurd rfl (hident _ _ _)
    all_goals
      by_cases hc : c = '-'
      · subst hc
        first | rfl | exact absurd rfl (hnegative _ _ _ _ _)
      · simp [matchLiteral, hc]

/-- What a terminal takes does not depend on places. -/
theorem Terminal.match?_unplaced (t : Terminal) (trees : List Tree) :
    t.match? (unplaced trees) = unplaced (t.match? trees) := by
  cases t with
  | op chars => exact matchOp_unplaced _ _
  | literal => exact matchLiteral_unplaced (fun _ => true) trees
  | textLiteral => exact matchLiteral_unplaced (· == .text) trees
  | intLiteral => exact matchLiteral_unplaced (· == .int) trees
  | floatLiteral => exact matchLiteral_unplaced (· == .float) trees
  | word w =>
    rcases trees with _ | ⟨_ | _ | _ | _, _⟩
    case cons.ident =>
      simp only [unplaced_cons, unplaced_ident, match?]
      split <;> rfl
    all_goals rfl
  | anyWord => rcases trees with _ | ⟨_ | _ | _ | _, _⟩ <;> rfl
  | name =>
    rcases trees with _ | ⟨_ | _ | _ | _, _⟩
    case cons.ident =>
      simp only [unplaced_cons, unplaced_ident, match?]
      split <;> rfl
    all_goals rfl
  | lifetime =>
    rcases trees with _ | ⟨_ | ⟨c, _ | _, place⟩ | _ | _, _ | ⟨_ | _ | _ | _, rest⟩⟩
    all_goals try rfl
    all_goals
      by_cases hc : c = '\''
      · subst hc
        rfl
      · simp [match?, hc]

@[simp] theorem skipOne_unplaced (trees : List Tree) :
    skipOne (unplaced trees) = unplaced (skipOne trees) := by
  rcases trees with _ | ⟨_ | ⟨c, _ | _, place⟩ | _ | _, _ | ⟨_ | _ | _ | _, rest⟩⟩
  all_goals try rfl
  all_goals
    by_cases hc : c = '\''
    · subst hc
      rfl
    · simp [skipOne, hc]

@[simp] theorem Sight.sees_unplaced (s : Sight) (trees : List Tree) :
    s.sees (unplaced trees) = s.sees trees := by
  cases s with
  | terminal t =>
    simp only [sees, Terminal.match?_unplaced]
    cases t.match? trees <;> rfl
  | group d => rcases trees with _ | ⟨_ | _ | _ | _, _⟩ <;> rfl
  | nothing => exact isEmpty_unplaced trees

@[simp] theorem Sight.seesAfter_unplaced (s : Sight) (after : Nat) (trees : List Tree) :
    s.seesAfter after (unplaced trees) = s.seesAfter after trees := by
  induction after generalizing trees with
  | zero => exact s.sees_unplaced trees
  | succ after ih =>
    simp only [seesAfter, skipOne_unplaced]
    cases skipOne trees with
    | none => rfl
    | some rest => exact ih rest

/-! ### Errors and replies -/

instance : Placed SyntaxError := ⟨fun e => { e with place := none }⟩

instance {α : Type} [Placed α] : Placed (Reply α) :=
  ⟨fun r => ⟨unplaced r.value, unplaced r.printed, unplaced r.rest, unplaced r.stray⟩⟩

instance {ε α : Type} [Placed ε] [Placed α] : Placed (Except ε α) where
  unplaced
    | .error e => .error (unplaced e)
    | .ok a => .ok (unplaced a)

instance : Placed Cause := ⟨id⟩
instance : Plain Cause := ⟨fun _ => rfl⟩

theorem frontPlace_unplaced (trees : List Tree) : frontPlace none (unplaced trees) = none := by
  rcases trees with _ | ⟨_ | _ | _ | _, _⟩ <;> rfl

theorem errorAt_unplaced (closing : Place) (trees : List Tree) (cause : Cause) :
    errorAt none (unplaced trees) cause = unplaced (errorAt closing trees cause) := by
  rw [errorAt, frontPlace_unplaced, isEmpty_unplaced]
  rfl

theorem Terminal.failure_unplaced (t : Terminal) (closing : Place) (trees : List Tree) :
    t.failure none (unplaced trees) = unplaced (t.failure closing trees) := by
  rcases trees with _ | ⟨_ | _ | _ | _, _⟩ <;> cases t <;> rfl

theorem leftover_unplaced (d : Option Delimiter) (trees : List Tree) :
    leftover d (unplaced trees) = unplaced (leftover d trees) := by
  rcases trees with _ | ⟨_ | _ | _ | _, _⟩ <;> rfl

theorem writtenBefore_unplaced (trees rest : List Tree) :
    writtenBefore (unplaced trees) (unplaced rest) = unplaced (writtenBefore trees rest) := by
  rw [writtenBefore, length_unplaced, length_unplaced]
  exact List.map_take.symm

theorem place_unplaced (t : Tree) : (unplaced t).place = none := by
  cases t <;> rfl

theorem extent_unplaced (trees : List Tree) : Rule.extent (unplaced trees) = none := by
  rw [Rule.extent]
  cases trees with
  | nil => rfl
  | cons t rest =>
    rw [unplaced_cons, List.head?_cons, Option.bind_some, place_unplaced]
    rfl

section

variable {trees trees' : List Tree} [h : Unplaced trees trees']

instance : Unplaced (trees.getLast?.bind (·.place)) (trees'.getLast?.bind (·.place)) where
  eq := by
    rw [h.eq, getLast?_unplaced]
    cases trees.getLast? with
    | none => rfl
    | some t => exact place_unplaced t

instance : Unplaced (Rule.extent trees) (Rule.extent trees') :=
  ⟨by rw [h.eq]; exact extent_unplaced trees⟩

end

instance {first first' last last' : Place} [h : Unplaced first first'] :
    Unplaced (Place.to first last) (Place.to first' last') :=
  ⟨by rw [h.eq]; rfl⟩

section

variable {α β : Type} [Placed α] [Placed β]

@[simp] theorem unplaced_or (a b : Option α) :
    unplaced (a.or b) = (unplaced a).or (unplaced b) := by
  cases a <;> rfl

@[simp] theorem unplaced_ok {ε : Type} [Placed ε] (a : α) :
    unplaced (.ok a : Except ε α) = .ok (unplaced a) := rfl

@[simp] theorem unplaced_error {ε : Type} [Placed ε] (e : ε) :
    unplaced (.error e : Except ε α) = .error (unplaced e) := rfl

@[simp] theorem unplaced_reply (value : α) (printed rest : List Tree) (stray : Option SyntaxError) :
    unplaced (Reply.mk value printed rest stray) =
      ⟨unplaced value, unplaced printed, unplaced rest, unplaced stray⟩ := rfl

@[simp] theorem unplaced_pair (a : α) (b : β) : unplaced (a, b) = (unplaced a, unplaced b) := rfl

theorem Reply.after_unplaced (a : Reply α) (b : Reply β) :
    unplaced (a.after b) = (unplaced a).after (unplaced b) := by
  obtain ⟨value, printed, rest, stray⟩ := a
  obtain ⟨value', printed', rest', stray'⟩ := b
  simp [Reply.after]

end

end KeyedModel.Grammar
