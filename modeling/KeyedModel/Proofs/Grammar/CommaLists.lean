import KeyedModel.Generated.Tokens
import KeyedModel.Proofs.Grammar.Results
import KeyedModel.Proofs.Token.Relexing

/-!
# Lists with commas

A list that was read has a comma behind each of its elements but perhaps the last. It prints as
generated lists do, with commas between the elements, and a comma may be left at its end.
-/

namespace KeyedModel.Grammar

open Token (Tree sign unplacedAll unplacedAll_append)
open Generated (separated terminated)

variable {α : Type}

/-! ### Commas -/

/-- A comma stands behind every element of the list, except perhaps behind the last. -/
inductive Separated : List (Rule.Listed α) → Prop where
  | all {found : List (Rule.Listed α)} (h : ∀ l ∈ found, IsPunct ',' l.comma) : Separated found
  | butLast {found : List (Rule.Listed α)} (h : ∀ l ∈ found, IsPunct ',' l.comma) (last : α) :
    Separated (found ++ [⟨last, []⟩])

/-- A terminated list is a separated one with one more comma. -/
theorem terminated_eq {elements : List (List Tree)} (h : elements ≠ []) :
    terminated elements = separated elements ++ [sign ','] := by
  induction elements with
  | nil => exact absurd rfl h
  | cons e rest ih =>
    cases rest with
    | nil => simp [terminated, separated]
    | cons first more =>
      have hrest := ih (List.cons_ne_nil _ _)
      simp only [terminated, List.flatMap_cons] at hrest ⊢
      rw [hrest]
      simp [separated]

/-- In front of further elements all elements have commas behind them. -/
theorem separated_append (front : List (List Tree)) {back : List (List Tree)} (h : back ≠ []) :
    separated (front ++ back) = terminated front ++ separated back := by
  induction front with
  | nil => rfl
  | cons e rest ih =>
    obtain ⟨first, more, hcons⟩ : ∃ first more, rest ++ back = first :: more :=
      List.exists_cons_of_ne_nil (List.append_ne_nil_of_right_ne_nil _ h)
    rw [List.cons_append, hcons, separated, ← hcons, ih]
    · simp [terminated]
    · exact List.cons_ne_nil _ _

/-- Behind the last element of a list there is nothing or a comma. -/
def trailings : List (List Tree) := [[], [sign ',']]

/-- A terminated list is a separated one, with something behind its last element. -/
theorem exists_trailing_terminated (elements : List (List Tree)) :
    ∃ trailing ∈ trailings, terminated elements = separated elements ++ trailing := by
  by_cases h : elements = []
  · subst h
    exact ⟨[], by simp [trailings], rfl⟩
  · exact ⟨[sign ','], by simp [trailings], terminated_eq h⟩

/-- The elements in one of their forms, each with the comma behind it. -/
def listed (form : α → List Tree) (found : List (Rule.Listed α)) : List Tree :=
  found.flatMap fun l => form l.element ++ l.comma

variable {found : List (Rule.Listed α)}

/-- Elements with a comma behind each print as a terminated list. -/
theorem unplacedAll_listed (form : α → List Tree) (h : ∀ l ∈ found, IsPunct ',' l.comma) :
    unplacedAll (listed form found) = unplacedAll (terminated (found.map (form ·.element))) := by
  induction found with
  | nil => rfl
  | cons l rest ih =>
    obtain ⟨place, hcomma⟩ := h l List.mem_cons_self
    have hrest := ih fun l hl => h l (List.mem_cons_of_mem _ hl)
    simp only [listed, terminated, List.map_cons, List.flatMap_cons, unplacedAll_append,
      hcomma] at hrest ⊢
    rw [hrest]
    rfl

namespace Separated

/-- A list that was read prints as a separated one, with something behind its last element. -/
theorem exists_trailing (h : Separated found) (form : α → List Tree) :
    ∃ trailing ∈ trailings, unplacedAll (listed form found) =
      unplacedAll (separated (found.map (form ·.element)) ++ trailing) := by
  cases h with
  | all hall =>
    obtain ⟨trailing, hmem, heq⟩ := exists_trailing_terminated (found.map (form ·.element))
    exact ⟨trailing, hmem, by rw [unplacedAll_listed form hall, heq]⟩
  | @butLast front hall last =>
    refine ⟨[], by simp [trailings], ?_⟩
    have hfront := unplacedAll_listed form hall
    simpa [listed, unplacedAll_append, separated_append, separated] using hfront

/-- A selection of the elements has commas where the list has them. -/
theorem filter (h : Separated found) (keep : Rule.Listed α → Bool) :
    Separated (found.filter keep) := by
  cases h with
  | all hall => exact .all fun l hl => hall l (List.mem_filter.mp hl).1
  | @butLast front hall last =>
    have hkept : ∀ l ∈ front.filter keep, IsPunct ',' l.comma :=
      fun l hl => hall l (List.mem_filter.mp hl).1
    rw [List.filter_append]
    cases hlast : keep ⟨last, []⟩ with
    | true =>
      rw [List.filter_cons_of_pos hlast]
      exact .butLast hkept last
    | false =>
      rw [List.filter_cons_of_neg (by simp [hlast]), List.filter_nil, List.append_nil]
      exact .all hkept

/-- With the comma that may be missing behind the last element the list is terminated. -/
theorem unplacedAll_completed (h : Separated found) (form : α → List Tree) :
    unplacedAll (listed form found ++
        if found.getLast?.any (·.comma.isEmpty) then [sign ','] else []) =
      unplacedAll (terminated (found.map (form ·.element))) := by
  cases h with
  | all hall =>
    have hnone : found.getLast?.any (·.comma.isEmpty) = false := by
      rw [Option.any_eq_false]
      intro l hl
      obtain ⟨place, hcomma⟩ := hall l (List.mem_of_getLast? hl)
      simp [hcomma]
    rw [hnone, unplacedAll_append, unplacedAll_listed form hall]
    simp [unplacedAll]
  | @butLast front hall last =>
    have hfront := unplacedAll_listed form hall
    simpa [listed, unplacedAll_append, terminated] using hfront

/-- Two lists in a row print as one, if the comma that may be missing between them is added. -/
theorem exists_trailing_append (h : Separated found) {more : List (Rule.Listed α)}
    (hmore : Separated more) (form : α → List Tree) :
    ∃ trailing ∈ trailings,
      unplacedAll (listed form found ++
          (if !more.isEmpty && found.getLast?.any (·.comma.isEmpty) then [sign ','] else []) ++
          listed form more) =
        unplacedAll (separated ((found ++ more).map (form ·.element)) ++ trailing) := by
  cases hnil : more with
  | nil =>
    obtain ⟨trailing, hmem, heq⟩ := h.exists_trailing form
    refine ⟨trailing, hmem, ?_⟩
    simpa [listed] using heq
  | cons first others =>
    rw [hnil] at hmore
    obtain ⟨trailing, hmem, heq⟩ := hmore.exists_trailing form
    refine ⟨trailing, hmem, ?_⟩
    have hfound := h.unplacedAll_completed form
    simp only [List.isEmpty_cons, Bool.not_false, Bool.true_and]
    rw [unplacedAll_append, hfound, heq, List.map_append, separated_append _ (by simp)]
    simp [unplacedAll_append]

end Separated

/-! ### Reading -/

/-- A list that is read has a comma behind each element but perhaps the last, and has only elements
that were read. -/
theorem Rule.returns_listUntil {stop : Sight} {element : Rule α}
    {p : α → Prop} (h : element.Returns p) :
    (listUntil stop element).Returns fun found =>
      Separated found ∧ ∀ l ∈ found, p l.element where
  out hrun := by
    refine iterate_induct
      (fun found _ => (∀ l ∈ found, IsPunct ',' l.comma) ∧ ∀ l ∈ found, p l.element)
      (fun found _ => Separated found ∧ ∀ l ∈ found, p l.element) ?_ (by simp) hrun
    intro found trees a hkeep ha
    rw [run_next_bind] at ha
    split at ha
    · cases ha
      exact ⟨.all hkeep.1, hkeep.2⟩
    obtain ⟨b, c, hb, hc, rfl⟩ := run_bind_eq_ok.mp ha
    have hmore (comma : List Tree) : ∀ l ∈ found ++ [⟨b.value, comma⟩], p l.element := by
      intro l hl
      rcases List.mem_append.mp hl with hl | hl
      · exact hkeep.2 l hl
      · obtain rfl := List.mem_singleton.mp hl
        exact h.out hb
    rw [run_next_bind] at hc
    split at hc
    · cases hc
      exact ⟨.butLast hkeep.1 b.value, hmore []⟩
    · obtain ⟨d, e, hd, he, rfl⟩ := run_bind_eq_ok.mp hc
      obtain ⟨f, hf, rfl⟩ := run_held_eq_ok.mp hd
      have hcomma : IsPunct ',' f.printed := (prints_op ',' rfl).out hf
      cases he
      refine ⟨fun l hl => ?_, hmore f.printed⟩
      rcases List.mem_append.mp hl with hl | hl
      · exact hkeep.1 l hl
      · obtain rfl := List.mem_singleton.mp hl
        exact hcomma

end KeyedModel.Grammar
