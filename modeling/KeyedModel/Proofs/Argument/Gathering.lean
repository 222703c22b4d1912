import KeyedModel.Argument
import Mathlib.Data.List.Forall2

/-!
# Gathering verdicts

All errors are gathered if there are any, and otherwise all results, in order.
-/

namespace KeyedModel

variable {ε α : Type}

/-- The errors among some verdicts, in order. -/
def errorsOf (verdicts : List (Except ε α)) : List ε :=
  verdicts.filterMap fun
    | .error e => some e
    | .ok _ => none

@[simp] theorem errorsOf_nil : errorsOf ([] : List (Except ε α)) = [] := rfl

@[simp] theorem errorsOf_cons_ok (a : α) (rest : List (Except ε α)) :
    errorsOf (.ok a :: rest) = errorsOf rest := rfl

@[simp] theorem errorsOf_cons_error (e : ε) (rest : List (Except ε α)) :
    errorsOf (.error e :: rest) = e :: errorsOf rest := rfl

/-- What is gathered depends on whether there are errors. -/
theorem gather_eq (verdicts : List (Except ε α)) :
    gather verdicts = if (errorsOf verdicts).isEmpty then .ok (verdicts.filterMap Except.toOption)
      else .error (errorsOf verdicts) := rfl

/-- A result in front is gathered with the results behind it. -/
theorem gather_cons_ok (a : α) (rest : List (Except ε α)) :
    gather (.ok a :: rest) = (gather rest).map (a :: ·) := by
  simp only [gather_eq, errorsOf_cons_ok, List.filterMap_cons, Except.toOption]
  by_cases hempty : (errorsOf rest).isEmpty = true
  · simp [hempty, Except.map]
  · simp [hempty, Except.map]

/-- An error in front is gathered, whatever stands behind it. -/
theorem gather_cons_error (e : ε) (rest : List (Except ε α)) :
    gather (.error e :: rest) = .error (e :: errorsOf rest) := rfl

/-- Results are gathered exactly when every verdict is one. -/
theorem gather_eq_ok {verdicts : List (Except ε α)} {results : List α} :
    gather verdicts = .ok results ↔ verdicts = results.map .ok := by
  induction verdicts generalizing results with
  | nil => simp [gather, eq_comm]
  | cons v rest ih =>
    cases v with
    | error e => cases results <;> simp [gather_cons_error]
    | ok a =>
      rw [gather_cons_ok]
      cases results with
      | nil => cases gather rest <;> simp [Except.map]
      | cons b more =>
        rw [List.map_cons, List.cons.injEq, ← ih]
        cases gather rest <;> simp [Except.map]

/-- Results are gathered exactly when there is no error. -/
theorem errorsOf_eq_nil {verdicts : List (Except ε α)} :
    errorsOf verdicts = [] ↔ ∃ results, gather verdicts = .ok results := by
  rw [gather_eq]
  cases errorsOf verdicts <;> simp

/-- What is gathered is an error exactly when there are errors, and then it is all of them. -/
theorem gather_eq_error {verdicts : List (Except ε α)} {errors : List ε} :
    gather verdicts = .error errors ↔ errors ≠ [] ∧ errorsOf verdicts = errors := by
  rw [gather_eq]
  cases herrors : errorsOf verdicts with
  | nil =>
    simp only [List.isEmpty_nil, if_true, reduceCtorEq, ne_eq, false_iff, not_and]
    exact fun hne heq => hne heq.symm
  | cons e rest =>
    simp only [List.isEmpty_cons, Bool.false_eq_true, if_false, Except.error.injEq, ne_eq,
      iff_and_self]
    rintro rfl
    simp

section

variable {ε' α' : Type} (f : ε → ε') (g : α → α')

/-- What is changed in every error is changed in all that are gathered. -/
theorem gather_mapError (verdicts : List (Except ε α)) :
    gather (verdicts.map (Except.mapError f)) = (gather verdicts).mapError (List.map f) := by
  have herrors : errorsOf (verdicts.map (Except.mapError f)) = (errorsOf verdicts).map f := by
    rw [errorsOf, List.filterMap_map, errorsOf, List.map_filterMap]
    refine List.filterMap_congr fun v _ => ?_
    cases v <;> rfl
  have hresults : (verdicts.map (Except.mapError f)).filterMap Except.toOption =
      verdicts.filterMap Except.toOption := by
    rw [List.filterMap_map]
    refine List.filterMap_congr fun v _ => ?_
    cases v <;> rfl
  rw [gather_eq, gather_eq, herrors, hresults]
  cases errorsOf verdicts <;> rfl

/-- What is changed in every result is changed in all that are gathered. -/
theorem gather_map (verdicts : List (Except ε α)) :
    gather (verdicts.map (Except.map g)) = (gather verdicts).map (List.map g) := by
  have herrors : errorsOf (verdicts.map (Except.map g)) = errorsOf verdicts := by
    rw [errorsOf, List.filterMap_map, errorsOf]
    refine List.filterMap_congr fun v _ => ?_
    cases v <;> rfl
  have hresults : (verdicts.map (Except.map g)).filterMap Except.toOption =
      (verdicts.filterMap Except.toOption).map g := by
    rw [List.filterMap_map, List.map_filterMap]
    refine List.filterMap_congr fun v _ => ?_
    cases v <;> rfl
  rw [gather_eq, gather_eq, herrors, hresults]
  cases errorsOf verdicts <;> rfl

end

/-- The errors stand at the positions of the verdicts that are errors, in order. -/
theorem exists_positions_errorsOf (verdicts : List (Except ε α)) :
    ∃ positions : List Nat, positions.Pairwise (· < ·) ∧
      (∀ i, i ∈ positions ↔ ∃ e, verdicts[i]? = some (.error e)) ∧
      List.Forall₂ (fun i e => verdicts[i]? = some (.error e)) positions (errorsOf verdicts) := by
  induction verdicts with
  | nil => exact ⟨[], by simp, by simp, .nil⟩
  | cons v rest ih =>
    obtain ⟨positions, hsorted, hmem, herrors⟩ := ih
    have hsorted : (positions.map (· + 1)).Pairwise (· < ·) := by
      rw [List.pairwise_map]
      exact hsorted.imp (by omega)
    have hshifted (i : Nat) :
        i + 1 ∈ positions.map (· + 1) ↔ ∃ e, rest[i]? = some (.error e) := by
      rw [← hmem, List.mem_map_of_injective fun _ _ => Nat.succ.inj]
    have herrors : List.Forall₂ (fun i e => (v :: rest)[i]? = some (.error e))
        (positions.map (· + 1)) (errorsOf rest) := by
      rw [List.forall₂_map_left_iff]
      exact herrors
    cases v with
    | ok a =>
      refine ⟨positions.map (· + 1), hsorted, fun i => ?_, herrors⟩
      cases i with
      | zero => simp
      | succ i => simpa using hshifted i
    | error e =>
      refine ⟨0 :: positions.map (· + 1), List.pairwise_cons.mpr ⟨by simp, hsorted⟩, fun i => ?_,
        .cons rfl herrors⟩
      cases i with
      | zero => simp
      | succ i => simpa using hshifted i

end KeyedModel
