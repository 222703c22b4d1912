import KeyedModel.Proofs.Field.Rules
import Mathlib.Data.List.Perm.Basic
import Mathlib.Data.List.Sort

/-!
# The verdict on every argument

The loop over the arguments remembers names and keys, and a rejected argument may leave its name
behind without its key. Here the verdict on one argument is said without the loop: the rules are
applied in order, and the two that compare with earlier arguments count those which got past all
rules before them. The loop gives exactly these verdicts, so whether a list is accepted does not
depend on its order.
-/

namespace KeyedModel

open Text (unraw)

section

variable (own : List String) (arguments : List Argument)

/-- The argument at a position describes a field by itself. -/
def DescribedAt (i : Nat) (f : Field) : Prop :=
  ∃ a, arguments[i]? = some a ∧ Field.ofArgument a = .ok f

/-- The field at a position has a name that is neither the identity's nor one of the struct's own. -/
structure FreeAt (i : Nat) (f : Field) : Prop where
  described : DescribedAt arguments i f
  ne_identity : f.name ≠ identityName
  not_own : f.name ∉ own.map unraw

/-- The field at a position is free, and no earlier free one has its name. -/
structure NamedAt (i : Nat) (f : Field) : Prop extends FreeAt own arguments i f where
  name_new : ∀ j g, j < i → FreeAt own arguments j g → g.name ≠ f.name

/-- The field at a position has a name of its own, and no earlier one of which this holds has its
key. -/
structure AcceptedAt (i : Nat) (f : Field) : Prop extends NamedAt own arguments i f where
  key_new : ∀ j g, j < i → NamedAt own arguments j g → g.key ≠ f.key

/-- The first rule that the argument at a position fails. -/
inductive RejectedAt (i : Nat) : FieldFault → Prop where
  | invalid {a : Argument} {fault : FieldFault} : arguments[i]? = some a →
      Field.ofArgument a = .error fault → RejectedAt i fault
  | reserved {f : Field} : DescribedAt arguments i f → f.name = identityName →
      RejectedAt i .reserved
  | declared {f : Field} : DescribedAt arguments i f → f.name ≠ identityName →
      f.name ∈ own.map unraw → RejectedAt i (.declared f.name)
  | repeatedName {f g : Field} {j : Nat} : FreeAt own arguments i f → j < i →
      FreeAt own arguments j g → g.name = f.name → RejectedAt i (.repeatedName f.name)
  | repeatedKey {f g : Field} {j : Nat} : NamedAt own arguments i f → j < i →
      NamedAt own arguments j g → g.key = f.key → RejectedAt i (.repeatedKey f.key)

/-- The verdict on the argument at a position; a rejection tells where the literal is. -/
inductive VerdictAt (i : Nat) : Except FieldError Field → Prop where
  | accepted {f : Field} : AcceptedAt own arguments i f → VerdictAt i (.ok f)
  | rejected {a : Argument} {fault : FieldFault} : arguments[i]? = some a →
      RejectedAt own arguments i fault → VerdictAt i (.error ⟨fault, a.literal.place⟩)

/-- What is taken in front of a position: the names of the free fields, and the keys of those with
names of their own. -/
structure Taken.Before (i : Nat) (taken : Taken) : Prop where
  names : ∀ name, name ∈ taken.names ↔ ∃ j g, j < i ∧ FreeAt own arguments j g ∧ g.name = name
  keys : ∀ key, key ∈ taken.keys ↔ ∃ j g, j < i ∧ NamedAt own arguments j g ∧ g.key = key

end

variable {own : List String} {arguments : List Argument} {i : Nat} {f g : Field}

/-! ### One verdict for each argument -/

/-- An argument describes one field at most. -/
theorem DescribedAt.unique (hf : DescribedAt arguments i f) (hg : DescribedAt arguments i g) :
    f = g := by
  obtain ⟨a, ha, hf⟩ := hf
  obtain ⟨b, hb, hg⟩ := hg
  obtain rfl : a = b := Option.some.inj (ha.symm.trans hb)
  exact Except.ok.inj (hf.symm.trans hg)

/-- An argument that is in error describes no field. -/
theorem DescribedAt.not_error {a : Argument} {fault : FieldFault} (hf : DescribedAt arguments i f)
    (ha : arguments[i]? = some a) (hfault : Field.ofArgument a = .error fault) : False := by
  obtain ⟨b, hb, hf⟩ := hf
  obtain rfl : a = b := Option.some.inj (ha.symm.trans hb)
  cases hf.symm.trans hfault

namespace RejectedAt

variable {fault other : FieldFault}

/-- An accepted field fails no rule. -/
theorem not_accepted (h : RejectedAt own arguments i fault) : ¬ AcceptedAt own arguments i f := by
  intro hf
  cases h with
  | invalid ha hfault => exact hf.described.not_error ha hfault
  | reserved hg hid =>
    obtain rfl := hf.described.unique hg
    exact hf.ne_identity hid
  | declared hg _ hown =>
    obtain rfl := hf.described.unique hg
    exact hf.not_own hown
  | repeatedName hg hj hearlier hname =>
    obtain rfl := hf.described.unique hg.described
    exact hf.name_new _ _ hj hearlier hname
  | repeatedKey hg hj hearlier hkey =>
    obtain rfl := hf.described.unique hg.described
    exact hf.key_new _ _ hj hearlier hkey

/-- Only an argument of the list is rejected. -/
theorem lt_length (h : RejectedAt own arguments i fault) : i < arguments.length := by
  have hsome : ∃ a, arguments[i]? = some a := by
    cases h with
    | invalid ha _ => exact ⟨_, ha⟩
    | reserved hf _ => exact ⟨_, hf.choose_spec.1⟩
    | declared hf _ _ => exact ⟨_, hf.choose_spec.1⟩
    | repeatedName hf _ _ _ => exact ⟨_, hf.described.choose_spec.1⟩
    | repeatedKey hf _ _ _ => exact ⟨_, hf.described.choose_spec.1⟩
  obtain ⟨a, ha⟩ := hsome
  exact (List.getElem?_eq_some_iff.mp ha).1

/-- Only one rule is the first that an argument fails. -/
theorem unique (h : RejectedAt own arguments i fault) (h' : RejectedAt own arguments i other) :
    fault = other := by
  cases h with
  | invalid ha hfault =>
    cases h' with
    | invalid hb hother =>
      obtain rfl := Option.some.inj (ha.symm.trans hb)
      exact Except.error.inj (hfault.symm.trans hother)
    | reserved hg => exact (hg.not_error ha hfault).elim
    | declared hg => exact (hg.not_error ha hfault).elim
    | repeatedName hg => exact (hg.described.not_error ha hfault).elim
    | repeatedKey hg => exact (hg.described.not_error ha hfault).elim
  | reserved hf hid =>
    cases h' with
    | invalid hb hother => exact (hf.not_error hb hother).elim
    | reserved => rfl
    | declared hg hne => exact absurd (hf.unique hg ▸ hid) hne
    | repeatedName hg => exact absurd (hf.unique hg.described ▸ hid) hg.ne_identity
    | repeatedKey hg => exact absurd (hf.unique hg.described ▸ hid) hg.ne_identity
  | declared hf hne hown =>
    cases h' with
    | invalid hb hother => exact (hf.not_error hb hother).elim
    | reserved hg hid => exact absurd (hg.unique hf ▸ hid) hne
    | declared hg => rw [hf.unique hg]
    | repeatedName hg => exact absurd (hf.unique hg.described ▸ hown) hg.not_own
    | repeatedKey hg => exact absurd (hf.unique hg.described ▸ hown) hg.not_own
  | repeatedName hf hj hearlier hname =>
    cases h' with
    | invalid hb hother => exact (hf.described.not_error hb hother).elim
    | reserved hg hid => exact absurd (hg.unique hf.described ▸ hid) hf.ne_identity
    | declared hg _ hown => exact absurd (hg.unique hf.described ▸ hown) hf.not_own
    | repeatedName hg => rw [hf.described.unique hg.described]
    | repeatedKey hg =>
      obtain rfl := hf.described.unique hg.described
      exact absurd hname (hg.name_new _ _ hj hearlier)
  | repeatedKey hf hj hearlier hkey =>
    cases h' with
    | invalid hb hother => exact (hf.described.not_error hb hother).elim
    | reserved hg hid => exact absurd (hg.unique hf.described ▸ hid) hf.ne_identity
    | declared hg _ hown => exact absurd (hg.unique hf.described ▸ hown) hf.not_own
    | repeatedName hg hk hother hname =>
      obtain rfl := hf.described.unique hg.described
      exact absurd hname (hf.name_new _ _ hk hother)
    | repeatedKey hg => rw [hf.described.unique hg.described]

end RejectedAt

/-! ### What is taken along the list -/

namespace Taken.Before

variable {taken : Taken}

/-- Nothing is taken in front of the first argument. -/
theorem zero : Before own arguments 0 .none := by
  constructor <;> simp [Taken.none]

/-- An argument whose field is not free takes nothing. -/
theorem succ_of_not_free (h : Before own arguments i taken)
    (hfree : ∀ f, ¬ FreeAt own arguments i f) : Before own arguments (i + 1) taken := by
  constructor
  · intro name
    rw [h.names]
    constructor
    · rintro ⟨j, g, hj, hg⟩
      exact ⟨j, g, by omega, hg⟩
    · rintro ⟨j, g, hj, hg, hname⟩
      rcases Nat.lt_succ_iff_lt_or_eq.mp hj with hj | rfl
      · exact ⟨j, g, hj, hg, hname⟩
      · exact absurd hg (hfree g)
  · intro key
    rw [h.keys]
    constructor
    · rintro ⟨j, g, hj, hg⟩
      exact ⟨j, g, by omega, hg⟩
    · rintro ⟨j, g, hj, hg, hkey⟩
      rcases Nat.lt_succ_iff_lt_or_eq.mp hj with hj | rfl
      · exact ⟨j, g, hj, hg, hkey⟩
      · exact absurd hg.toFreeAt (hfree g)

/-- A name is not taken when no earlier free field has it. -/
theorem namedAt (h : Before own arguments i taken) (hf : FreeAt own arguments i f) :
    NamedAt own arguments i f ↔ f.name ∉ taken.names := by
  rw [h.names]
  constructor
  · rintro hnamed ⟨j, g, hj, hg, hname⟩
    exact hnamed.name_new j g hj hg hname
  · intro hnew
    exact ⟨hf, fun j g hj hg hname => hnew ⟨j, g, hj, hg, hname⟩⟩

/-- A key is not taken when no earlier field with a name of its own has it. -/
theorem acceptedAt (h : Before own arguments i taken) (hf : NamedAt own arguments i f) :
    AcceptedAt own arguments i f ↔ f.key ∉ taken.keys := by
  rw [h.keys]
  constructor
  · rintro haccepted ⟨j, g, hj, hg, hkey⟩
    exact haccepted.key_new j g hj hg hkey
  · intro hnew
    exact ⟨hf, fun j g hj hg hkey => hnew ⟨j, g, hj, hg, hkey⟩⟩

/-- A free field whose name is taken adds nothing: its name is there, and its key does not count. -/
theorem succ_of_repeated (h : Before own arguments i taken) (hf : FreeAt own arguments i f)
    (hname : f.name ∈ taken.names) : Before own arguments (i + 1) taken := by
  have hnot : ¬ NamedAt own arguments i f := fun hnamed => (h.namedAt hf).mp hnamed hname
  constructor
  · intro name
    constructor
    · intro hmem
      obtain ⟨j, g, hj, hg⟩ := (h.names name).mp hmem
      exact ⟨j, g, by omega, hg⟩
    · rintro ⟨j, g, hj, hg, rfl⟩
      rcases Nat.lt_succ_iff_lt_or_eq.mp hj with hj | rfl
      · exact (h.names _).mpr ⟨j, g, hj, hg, rfl⟩
      · rwa [hg.described.unique hf.described]
  · intro key
    rw [h.keys]
    constructor
    · rintro ⟨j, g, hj, hg⟩
      exact ⟨j, g, by omega, hg⟩
    · rintro ⟨j, g, hj, hg, hkey⟩
      rcases Nat.lt_succ_iff_lt_or_eq.mp hj with hj | rfl
      · exact ⟨j, g, hj, hg, hkey⟩
      · obtain rfl := hg.described.unique hf.described
        exact absurd hg hnot

/-- A field with a name of its own adds its name and its key. -/
theorem succ_of_named (h : Before own arguments i taken) (hf : NamedAt own arguments i f) :
    Before own arguments (i + 1) (taken.add f) := by
  rw [add_of_not_mem ((h.namedAt hf.toFreeAt).mp hf)]
  constructor
  · intro name
    rw [List.mem_cons, h.names]
    constructor
    · rintro (rfl | ⟨j, g, hj, hg⟩)
      · exact ⟨i, f, by omega, hf.toFreeAt, rfl⟩
      · exact ⟨j, g, by omega, hg⟩
    · rintro ⟨j, g, hj, hg, hname⟩
      rcases Nat.lt_succ_iff_lt_or_eq.mp hj with hj | rfl
      · exact .inr ⟨j, g, hj, hg, hname⟩
      · rw [← hname, hg.described.unique hf.described]
        exact .inl rfl
  · intro key
    rw [List.mem_cons, h.keys]
    constructor
    · rintro (rfl | ⟨j, g, hj, hg⟩)
      · exact ⟨i, f, by omega, hf, rfl⟩
      · exact ⟨j, g, by omega, hg⟩
    · rintro ⟨j, g, hj, hg, hkey⟩
      rcases Nat.lt_succ_iff_lt_or_eq.mp hj with hj | rfl
      · exact .inr ⟨j, g, hj, hg, hkey⟩
      · rw [← hkey, hg.described.unique hf.described]
        exact .inl rfl

/-! ### The loop -/

/-- One round of the loop gives the verdict at its position and takes what belongs to it. -/
theorem judge_cons (h : Before own arguments i taken) {a : Argument} (ha : arguments[i]? = some a)
    (rest : List Argument) :
    ∃ verdict after, judge (own.map unraw) taken (a :: rest) =
        verdict :: judge (own.map unraw) after rest ∧
      VerdictAt own arguments i verdict ∧ Before own arguments (i + 1) after := by
  cases hdescribed : Field.ofArgument a with
  | error fault =>
    refine ⟨_, taken, judge_cons_invalid hdescribed, .rejected ha (.invalid ha hdescribed), ?_⟩
    exact h.succ_of_not_free fun f hf => hf.described.not_error ha hdescribed
  | ok f =>
    have hf : DescribedAt arguments i f := ⟨a, ha, hdescribed⟩
    by_cases hid : f.name = identityName
    · refine ⟨.error ⟨.reserved, a.literal.place⟩, taken, ?_, .rejected ha (.reserved hf hid), ?_⟩
      · simp [judge, hdescribed, Field.fault?, hid]
      · refine h.succ_of_not_free fun g hg => hg.ne_identity ?_
        rwa [hg.described.unique hf]
    by_cases hown : f.name ∈ own.map unraw
    · refine ⟨.error ⟨.declared f.name, a.literal.place⟩, taken, ?_,
        .rejected ha (.declared hf hid hown), ?_⟩
      · rw [judge, hdescribed]
        simp only [Field.fault?, beq_iff_eq, hid, if_false, List.contains_iff_mem, hown, if_true]
      · refine h.succ_of_not_free fun g hg => hg.not_own ?_
        rwa [hg.described.unique hf]
    have hfree : FreeAt own arguments i f := ⟨hf, hid, hown⟩
    by_cases hname : f.name ∈ taken.names
    · obtain ⟨j, g, hj, hg, heq⟩ := (h.names f.name).mp hname
      refine ⟨.error ⟨.repeatedName f.name, a.literal.place⟩, taken, ?_,
        .rejected ha (.repeatedName hfree hj hg heq), h.succ_of_repeated hfree hname⟩
      rw [judge, hdescribed]
      simp only [Field.fault?, beq_iff_eq, hid, if_false, List.contains_iff_mem, hown, hname,
        if_true]
    have hnamed : NamedAt own arguments i f := (h.namedAt hfree).mpr hname
    by_cases hkey : f.key ∈ taken.keys
    · obtain ⟨j, g, hj, hg, heq⟩ := (h.keys f.key).mp hkey
      refine ⟨.error ⟨.repeatedKey f.key, a.literal.place⟩, taken.add f, ?_,
        .rejected ha (.repeatedKey hnamed hj hg heq), h.succ_of_named hnamed⟩
      rw [judge, hdescribed]
      simp only [Field.fault?, beq_iff_eq, hid, if_false, List.contains_iff_mem, hown, hname, hkey,
        if_true]
    · refine ⟨.ok f, taken.add f, ?_, .accepted ((h.acceptedAt hnamed).mpr hkey),
        h.succ_of_named hnamed⟩
      exact judge_cons_free hdescribed (Field.fault?_eq_none.mpr ⟨hid, hown, hname, hkey⟩)

/-- The loop over the arguments from a position on gives the verdict on each of them. -/
theorem judge_verdicts (h : Before own arguments i taken) {rest : List Argument}
    (hrest : ∀ k, rest[k]? = arguments[i + k]?) :
    (judge (own.map unraw) taken rest).length = rest.length ∧
      ∀ k verdict, (judge (own.map unraw) taken rest)[k]? = some verdict →
        VerdictAt own arguments (i + k) verdict := by
  induction rest generalizing i taken with
  | nil => simp [judge]
  | cons a rest ih =>
    have ha : arguments[i]? = some a := by simpa using (hrest 0).symm
    obtain ⟨verdict, after, hjudge, hverdict, hafter⟩ := h.judge_cons ha rest
    have htail : ∀ k, rest[k]? = arguments[i + 1 + k]? := by
      intro k
      rw [Nat.add_assoc, Nat.add_comm 1 k]
      exact hrest (k + 1)
    obtain ⟨hlength, hmore⟩ := ih hafter htail
    rw [hjudge]
    refine ⟨by simp [hlength], fun k found hfound => ?_⟩
    cases k with
    | zero =>
      obtain rfl : verdict = found := by simpa using hfound
      exact hverdict
    | succ k =>
      have hverdict := hmore k found (by simpa using hfound)
      rwa [Nat.add_assoc, Nat.add_comm 1 k] at hverdict

end Taken.Before

/-! ### Lists -/

/-- Some errors belong to some positions of a list: the positions are those of the rejected
arguments, in order, and each error is for the first rule that the argument fails, at its literal. -/
def RejectedIn (own : List String) (arguments : List Argument) (positions : List Nat)
    (errors : List FieldError) : Prop :=
  positions.Pairwise (· < ·) ∧
    (∀ i, i ∈ positions ↔ ∃ fault, RejectedAt own arguments i fault) ∧
    List.Forall₂ (fun i e => RejectedAt own arguments i e.fault ∧
      arguments[i]?.map (·.literal.place) = some e.place) positions errors

/-- The loop gives one verdict on each argument of a list, that of its position. -/
theorem judge_verdictAt (own : List String) (arguments : List Argument) :
    (judge (own.map unraw) .none arguments).length = arguments.length ∧
      ∀ i verdict, (judge (own.map unraw) .none arguments)[i]? = some verdict →
        VerdictAt own arguments i verdict := by
  have hstart : Taken.Before own arguments 0 .none := .zero
  have hall := hstart.judge_verdicts (show ∀ k, arguments[k]? = arguments[0 + k]? by simp)
  simpa only [Nat.zero_add] using hall

/-- An argument is rejected when the verdict on it is an error. -/
theorem rejectedAt_iff :
    (∃ fault, RejectedAt own arguments i fault) ↔
      ∃ e, (judge (own.map unraw) .none arguments)[i]? = some (.error e) := by
  constructor
  · rintro ⟨fault, hfault⟩
    have hi : i < (judge (own.map unraw) .none arguments).length := by
      rw [(judge_verdictAt own arguments).1]
      exact hfault.lt_length
    have hverdict := (judge_verdictAt own arguments).2 _ _ (List.getElem?_eq_getElem hi)
    rw [List.getElem?_eq_getElem hi]
    cases hjudge : (judge (own.map unraw) .none arguments)[i] with
    | error e => exact ⟨e, rfl⟩
    | ok f =>
      rw [hjudge] at hverdict
      cases hverdict with
      | accepted hf => exact absurd hf hfault.not_accepted
  · rintro ⟨e, he⟩
    cases (judge_verdictAt own arguments).2 _ _ he with
    | rejected ha hfault => exact ⟨_, hfault⟩

/-- The errors of a list are those of its rejected arguments. -/
theorem errorsOf_judge (own : List String) (arguments : List Argument) :
    ∃ positions, RejectedIn own arguments positions
      (errorsOf (judge (own.map unraw) .none arguments)) := by
  obtain ⟨positions, hsorted, hmem, herrors⟩ :=
    exists_positions_errorsOf (judge (own.map unraw) .none arguments)
  refine ⟨positions, hsorted, fun i => (hmem i).trans rejectedAt_iff.symm, herrors.imp ?_⟩
  intro i e he
  cases (judge_verdictAt own arguments).2 _ _ he with
  | rejected ha hfault => exact ⟨hfault, by simp [ha]⟩

/-- The rejected arguments of a list and the errors on them are determined by the list. -/
theorem RejectedIn.unique {positions others : List Nat} {errors further : List FieldError}
    (h : RejectedIn own arguments positions errors)
    (h' : RejectedIn own arguments others further) : errors = further := by
  obtain rfl : positions = others :=
    h.1.eq_of_mem_iff h'.1 fun i => (h.2.1 i).trans (h'.2.1 i).symm
  refine List.right_unique_forall₂' ?_ h.2.2 h'.2.2
  rintro i ⟨fault, place⟩ ⟨fault', place'⟩ ⟨hfault, hplace⟩ ⟨hfault', hplace'⟩
  obtain rfl : fault = fault' := hfault.unique hfault'
  obtain rfl : place = place' := Option.some.inj (hplace.symm.trans hplace')
  rfl

/-- Nothing is rejected exactly when there is no error. -/
theorem RejectedIn.eq_nil_iff {positions : List Nat} {errors : List FieldError}
    (h : RejectedIn own arguments positions errors) :
    errors = [] ↔ ∀ i fault, ¬ RejectedAt own arguments i fault := by
  obtain ⟨-, hmem, herrors⟩ := h
  constructor
  · rintro rfl i fault hfault
    cases herrors
    exact absurd ((hmem i).mpr ⟨fault, hfault⟩) List.not_mem_nil
  · intro hnone
    cases herrors with
    | nil => rfl
    | cons he _ => exact absurd he.1 (hnone _ _)

/-- Each argument describes the field at its place in a list. -/
theorem described_iff {fields : List Field} :
    arguments.map Field.ofArgument = fields.map .ok ↔
      List.Forall₂ (fun a f => Field.ofArgument a = .ok f) arguments fields := by
  rw [← List.forall₂_eq_eq_eq, List.forall₂_map_left_iff, List.forall₂_map_right_iff]

/-- Fields are admissible when their names are in no use and neither names nor keys repeat. -/
theorem Field.admissible_iff {fields : List Field} :
    Field.Admissible own fields ↔
      (∀ f ∈ fields, f.name ≠ identityName ∧ f.name ∉ own.map unraw) ∧
        (fields.map Field.name).Nodup ∧ (fields.map Field.key).Nodup := by
  constructor
  · intro h
    exact ⟨fun f hf => ⟨h.ne_identity f hf, h.not_own f hf⟩, h.names_nodup, h.keys_nodup⟩
  · rintro ⟨hfree, hnames, hkeys⟩
    exact ⟨fun f hf => (hfree f hf).1, fun f hf => (hfree f hf).2, by simp [Taken.none],
      by simp [Taken.none], hnames, hkeys⟩

/-- Whether fields are admissible does not depend on their order. -/
theorem Field.Admissible.perm {fields reordered : List Field} (h : Field.Admissible own fields)
    (hperm : fields.Perm reordered) : Field.Admissible own reordered := by
  rw [Field.admissible_iff] at h ⊢
  obtain ⟨hfree, hnames, hkeys⟩ := h
  exact ⟨fun f hf => hfree f (hperm.mem_iff.mpr hf), (hperm.map _).nodup_iff.mp hnames,
    (hperm.map _).nodup_iff.mp hkeys⟩

/-- Whether some arguments are accepted does not depend on their order. -/
theorem Field.ofArguments_perm {reordered : List Argument} {fields : List Field}
    (h : Field.ofArguments own arguments = .ok fields) (hperm : arguments.Perm reordered) :
    ∃ fields, Field.ofArguments own reordered = .ok fields := by
  obtain ⟨hdescribed, hadmissible⟩ := Field.ofArguments_eq_ok.mp h
  obtain ⟨found, hfound, hfields⟩ :=
    List.perm_comp_forall₂ hperm.symm (described_iff.mp hdescribed)
  exact ⟨found, Field.ofArguments_eq_ok.mpr
    ⟨described_iff.mpr hfound, hadmissible.perm hfields.symm⟩⟩

/-- What the rules decide about a list of arguments, for a struct with the given fields of its own.
It is accepted if no argument fails a rule, and then its fields are those of the arguments, in
order; otherwise there is one error for each argument that fails a rule, in order. So it is accepted
if every argument describes a field, the names are pairwise distinct and in no use, and the keys are
pairwise distinct, in whatever order the arguments stand. -/
theorem Field.ofArguments_decides (own : List String) (arguments : List Argument) :
    (∀ fields, Field.ofArguments own arguments = .ok fields ↔
      (∀ i fault, ¬ RejectedAt own arguments i fault) ∧
        arguments.map Field.ofArgument = fields.map .ok) ∧
    (∀ errors, Field.ofArguments own arguments = .error errors ↔
      errors ≠ [] ∧ ∃ positions, RejectedIn own arguments positions errors) ∧
    ((∃ fields, Field.ofArguments own arguments = .ok fields) ↔
      ∃ fields : List Field, arguments.map Field.ofArgument = fields.map .ok ∧
        (∀ f ∈ fields, f.name ≠ identityName ∧ f.name ∉ own.map unraw) ∧
        (fields.map Field.name).Nodup ∧ (fields.map Field.key).Nodup) ∧
    ∀ reordered, arguments.Perm reordered →
      ((∃ fields, Field.ofArguments own arguments = .ok fields) ↔
        ∃ fields, Field.ofArguments own reordered = .ok fields) := by
  obtain ⟨positions, hrejected⟩ := errorsOf_judge own arguments
  refine ⟨fun fields => ?_, fun errors => ?_, ?_, fun reordered hperm => ?_⟩
  · rw [← hrejected.eq_nil_iff, errorsOf_eq_nil]
    constructor
    · intro h
      exact ⟨⟨fields, h⟩, (Field.ofArguments_eq_ok.mp h).1⟩
    · rintro ⟨⟨found, hfound⟩, hdescribed⟩
      have hsame : fields.map Except.ok = found.map (Except.ok (ε := FieldFault)) :=
        hdescribed.symm.trans (Field.ofArguments_eq_ok.mp hfound).1
      rwa [List.map_injective_iff.mpr (fun _ _ => Except.ok.inj) hsame]
  · rw [Field.ofArguments, gather_eq_error]
    constructor
    · rintro ⟨hne, rfl⟩
      exact ⟨hne, positions, hrejected⟩
    · rintro ⟨hne, others, hothers⟩
      exact ⟨hne, hrejected.unique hothers⟩
  · simp only [Field.ofArguments_eq_ok, Field.admissible_iff]
  · constructor
    · rintro ⟨fields, h⟩
      exact Field.ofArguments_perm h hperm
    · rintro ⟨fields, h⟩
      exact Field.ofArguments_perm h hperm.symm

end KeyedModel
