import KeyedModel.Proofs.Argument.Steady
import KeyedModel.Proofs.Argument.Unplaced
import KeyedModel.Proofs.Field.Identifiers

/-!
# Arguments that are spelled out

A string that names a field is short for a label with that name and a string with the name as its
key. Where some arguments of a list are spelled out, the others are read as before, although they
stand elsewhere then, and what is read in place of those describes the same fields.
-/

namespace KeyedModel

open Token (Tree Place Spacing textValue? unplacedAll)
open Grammar (ArgumentShape Behind Meaning Reply meaningFor meaningOf rules readArguments
  unplacedAll_eq)
open Grammar.Placed (unplaced)
open Grammar.Rule (EndsArgument Listed iterateUpTo run_bind_eq_ok)

theorem Token.Tree.sizeList_append (front back : List Tree) :
    sizeList (front ++ back) = sizeList front + sizeList back := by
  induction front with
  | nil => simp [sizeList]
  | cons t rest ih => simp [sizeList, ih, Nat.add_assoc]

mutual

theorem Token.Tree.size_unplaced (t : Tree) : t.unplaced.size = t.size := by
  match t with
  | .ident .. | .punct .. | .literal .. => rfl
  | .group d opening inner closed => simp only [unplaced, size, sizeList_unplacedAll inner]

theorem Token.Tree.sizeList_unplacedAll (trees : List Tree) :
    sizeList (unplacedAll trees) = sizeList trees := by
  match trees with
  | [] => rfl
  | t :: rest => simp only [unplacedAll, sizeList, size_unplaced t, sizeList_unplacedAll rest]

end

namespace Argument

/-- The argument is the same, perhaps elsewhere, or a string that names a field is spelled out: as a
label with the name and a string with the name as its key. -/
inductive SpellsOut : List Tree → List Tree → Prop where
  | kept {trees trees' : List Tree} (hsame : unplacedAll trees' = unplacedAll trees) :
    SpellsOut trees trees'
  | labeled {text value again name : String} {place spot sign place' : Place} {spacing : Spacing}
    (htext : textValue? text = some value) (hname : identifier? value = some name)
    (hagain : textValue? again = some name) :
    SpellsOut [.literal text place]
      [.ident name spot, .punct '=' spacing sign, .literal again place']

/-- Some arguments of the list are spelled out, and the commas are kept. -/
inductive ListSpellsOut (meaning : Meaning) : List Tree → List Tree → Prop where
  | nil : ListSpellsOut meaning [] []
  | last {segment : Segment} {trees' : List Tree} (h : segment.ReadBefore meaning [])
    (hsame : SpellsOut segment.trees trees') : ListSpellsOut meaning segment.trees trees'
  | cons {segment : Segment} {trees' rest rest' : List Tree} {spacing : Spacing} {sign sign' : Place}
    (h : segment.ReadBefore meaning (.punct ',' spacing sign :: rest))
    (hsame : SpellsOut segment.trees trees') (hrest : ListSpellsOut meaning rest rest') :
    ListSpellsOut meaning (segment.trees ++ .punct ',' spacing sign :: rest)
      (trees' ++ .punct ',' spacing sign' :: rest')

variable {trees trees' tail tail' : List Tree}

/-! ### One argument -/

/-- There are no fewer tokens, in groups or not. -/
theorem SpellsOut.grows (h : SpellsOut trees trees') :
    trees.length ≤ trees'.length ∧ Tree.sizeList trees ≤ Tree.sizeList trees' := by
  cases h with
  | kept hsame =>
    have hlength := congrArg List.length hsame
    have hsize := congrArg Tree.sizeList hsame
    rw [unplacedAll_eq, unplacedAll_eq, Grammar.length_unplaced, Grammar.length_unplaced] at hlength
    rw [Tree.sizeList_unplacedAll, Tree.sizeList_unplacedAll] at hsize
    omega
  | labeled => exact ⟨by simp, by simp [Tree.sizeList, Tree.size]⟩

theorem SpellsOut.ne_nil (h : SpellsOut trees trees') (hne : trees ≠ []) : trees' ≠ [] :=
  List.ne_nil_of_length_pos (Nat.lt_of_lt_of_le (List.length_pos_of_ne_nil hne) h.grows.1)

/-- A name with itself as its key describes the field that the string with that name does. -/
theorem ofArgument_labeled_eq {value name : String} (place place' : Place)
    (hname : identifier? value = some name) :
    Field.ofArgument (.labeled name ⟨name, place'⟩) = Field.ofArgument (.positional ⟨value, place⟩) := by
  have hne : name.isEmpty = false := by
    rw [Bool.eq_false_iff, ne_eq, String.isEmpty_iff]
    rintro rfl
    exact absurd (isDeclarable_of_identifier? hname) (by decide)
  simp [Field.ofArgument, hname, hne, Field.verbatim]

/-- What is read in place of the argument describes the same. -/
theorem SpellsOut.run {depth depth' : Nat} {tail'' : List Tree} (h : SpellsOut trees trees')
    (hle : depth ≤ depth') (hdepth : 3 ≤ depth) (htail : Behind true tail tail'')
    (hends : EndsArgument tail') (hsame : unplacedAll tail' = unplacedAll tail'')
    {reply : Reply ArgumentShape}
    (hrun : Grammar.Rule.argument.run (meaningOf rules depth) none (trees ++ tail) = .ok reply)
    (hrest : reply.rest = tail) (hclean : reply.stray = none) :
    ∃ shape printed, Grammar.Rule.argument.run (meaningOf rules depth') none (trees' ++ tail') =
      .ok ⟨shape, printed, tail', none⟩ ∧ shape.described = reply.value.described := by
  cases h with
  | kept hkept =>
    have hsteady : Grammar.Rule.argument.Steady true := inferInstance
    rw [← List.nil_append tail] at hrest
    have hagain := hsteady.leads (Grammar.meaningOf_deeper hle) htail trivial hrun hrest
    rw [hclean, List.nil_append] at hagain
    rw [unplacedAll_eq, unplacedAll_eq] at hkept hsame
    obtain ⟨shape, printed, helsewhere, hshape⟩ := Grammar.Rule.Blind.run_elsewhere
      (Grammar.meaningOf_blind depth') (Grammar.meaningOf_goesForward rules depth') hkept hsame
      hagain none
    refine ⟨shape, printed, helsewhere, ?_⟩
    rw [← shape.described_unplaced, hshape, ArgumentShape.described_unplaced]
  | @labeled text value again name place spot sign place' spacing htext hname hagain =>
    obtain ⟨shape, printed, hread, hshape⟩ :
        ∃ shape printed, Grammar.Rule.argument.run (meaningOf rules depth) none
          ([.literal text place] ++ tail) = .ok ⟨shape, printed, tail, none⟩ ∧
            ofShape shape = .ok (.positional ⟨value, place⟩) :=
      run_of_written hdepth (.positional htext) htail.ends
    obtain ⟨shape', printed', hread', hshape'⟩ :
        ∃ shape printed, Grammar.Rule.argument.run (meaningOf rules depth') none
          ([.ident name spot, .punct '=' spacing sign, .literal again place'] ++ tail') =
            .ok ⟨shape, printed, tail', none⟩ ∧ ofShape shape = .ok (.labeled name ⟨name, place'⟩) :=
      run_of_written (hdepth.trans hle) (.labeled hagain) hends
    obtain rfl : reply = _ := Except.ok.inj (hrun.symm.trans hread)
    refine ⟨shape', printed', hread', ?_⟩
    simp only [ArgumentShape.described, hshape, hshape', Except.mapError, Except.map,
      ofArgument_labeled_eq place place' hname]

/-! ### All arguments -/

theorem ListSpellsOut.grows {meaning : Meaning} (h : ListSpellsOut meaning trees trees') :
    trees.length ≤ trees'.length ∧ Tree.sizeList trees ≤ Tree.sizeList trees' := by
  induction h with
  | nil => exact ⟨Nat.le_refl _, Nat.le_refl _⟩
  | last _ hsame => exact hsame.grows
  | cons _ hsame _ ih =>
    obtain ⟨hlength, hsize⟩ := hsame.grows
    obtain ⟨hlengths, hsizes⟩ := ih
    simp only [List.length_append, List.length_cons, Tree.sizeList_append, Tree.sizeList, Tree.size]
    omega

/-- The list is read in as many rounds as before, and what is found in each describes the same. -/
theorem ListSpellsOut.run {depth depth' limit limit' : Nat} {found found' : List (Listed ArgumentShape)}
    (h : ListSpellsOut (meaningOf rules depth) trees trees') (hle : depth ≤ depth')
    (hdepth : 3 ≤ depth) (hlimit : trees'.length < limit')
    (hfound : found'.map (·.element.described) = found.map (·.element.described))
    {reply : Reply (List (Listed ArgumentShape))}
    (hrun : (iterateUpTo limit listRound found).run (meaningOf rules depth) none trees = .ok reply)
    (hclean : reply.stray = none) :
    ∃ others printed, (iterateUpTo limit' listRound found').run (meaningOf rules depth') none trees' =
        .ok ⟨others, printed, [], none⟩ ∧
      others.map (·.element.described) = reply.value.map (·.element.described) := by
  obtain ⟨limit', rfl⟩ : ∃ n, limit' = n + 1 := ⟨limit' - 1, by omega⟩
  obtain _ | limit := limit
  · cases hrun
  induction h generalizing limit limit' found found' reply with
  | nil =>
    cases hrun
    exact ⟨found', [], rfl, hfound⟩
  | @last segment trees' hread hsame =>
    have hne := hread.ne_nil
    obtain ⟨⟨shape, front, rest, stray⟩, hargument, hend, -⟩ := hread
    obtain rfl : rest = [] := hend
    rw [List.append_nil] at hargument
    obtain ⟨a, b, ha, hb, rfl⟩ := run_bind_eq_ok.mp hrun
    obtain rfl := Except.ok.inj (ha.symm.trans (listRound_last hne hargument))
    obtain rfl : b = ⟨found ++ [⟨shape, []⟩], [], [], none⟩ := (Except.ok.inj hb).symm
    obtain rfl : stray = none := by simpa [Reply.after] using hclean
    rw [← List.append_nil segment.trees] at hargument
    obtain ⟨shape', printed, hread', hdescribed⟩ :=
      hsame.run hle hdepth .nothing (.inl rfl) rfl hargument rfl rfl
    rw [List.append_nil] at hread'
    refine ⟨found' ++ [⟨shape', []⟩], printed, ?_, by simp [Reply.after, hfound, hdescribed]⟩
    exact run_bind_eq_ok.mpr ⟨_, ⟨found' ++ [⟨shape', []⟩], [], [], none⟩,
      listRound_last (hsame.ne_nil hne) hread', rfl, by simp [Reply.after]⟩
  | @cons segment trees' rest rest' spacing sign sign' hread hsame hrest ih =>
    obtain ⟨⟨shape, front, behind, stray⟩, hargument, hend, -⟩ := hread
    obtain rfl : behind = _ := hend
    obtain ⟨a, b, ha, hb, rfl⟩ := run_bind_eq_ok.mp hrun
    obtain rfl := Except.ok.inj (ha.symm.trans (listRound_comma (by simp) hargument))
    obtain ⟨rfl, hstray⟩ : stray = none ∧ b.stray = none := by simpa [Reply.after] using hclean
    have hbehind : Behind true (.punct ',' spacing sign :: rest) (.punct ',' spacing sign :: rest') :=
      .comma rfl hrest.grows.1
    have helsewhere : unplacedAll (.punct ',' spacing sign' :: rest') =
        unplacedAll (.punct ',' spacing sign :: rest') := rfl
    obtain ⟨shape', printed, hread', hdescribed⟩ :=
      hsame.run hle hdepth hbehind (.inr ⟨_, _, _, rfl⟩) helsewhere hargument rfl rfl
    rw [List.length_append, List.length_cons] at hlimit
    obtain ⟨limit', rfl⟩ : ∃ n, limit' = n + 1 := ⟨limit' - 1, by omega⟩
    obtain _ | limit := limit
    · cases hb
    dsimp only at hb
    obtain ⟨others, more, hmore, hothers⟩ :=
      @ih _ (found' ++ [Listed.mk shape' [.punct ',' .alone sign']]) (by simp [hfound, hdescribed])
        b hstray limit' (by omega) limit hb
    refine ⟨others, printed ++ more, ?_, hothers⟩
    exact run_bind_eq_ok.mpr ⟨_, _, listRound_comma (by simp) hread', hmore, by simp [Reply.after]⟩

/-- Where a list follows its grammar, so does the list with some arguments spelled out, and each of
its arguments describes what the one in the same place did. -/
theorem ListSpellsOut.exists_shapes {shapes : List ArgumentShape}
    (h : ListSpellsOut (meaningFor trees) trees trees')
    (hread : Grammar.readArguments trees = .ok shapes) :
    ∃ shapes', Grammar.readArguments trees' = .ok shapes' ∧
      shapes'.map (·.described) = shapes.map (·.described) := by
  obtain ⟨found, front, hrun, rfl⟩ := Grammar.readArguments_eq_ok.mp hread
  have hdepth : 3 ≤ Grammar.depthFor trees := by
    unfold Grammar.depthFor
    omega
  have hle : Grammar.depthFor trees ≤ Grammar.depthFor trees' := by
    have := h.grows.2
    unfold Grammar.depthFor
    omega
  have hstart : ([] : List (Listed ArgumentShape)).map (·.element.described) = [].map _ := rfl
  obtain ⟨others, printed, hothers, hdescribed⟩ :=
    h.run hle hdepth (Nat.lt_succ_self trees'.length) hstart hrun rfl
  refine ⟨_, Grammar.readArguments_eq_ok.mpr ⟨others, printed, hothers, rfl⟩, ?_⟩
  simpa [Function.comp_def] using hdescribed

end Argument

end KeyedModel
