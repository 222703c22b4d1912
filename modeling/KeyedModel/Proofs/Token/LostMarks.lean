import KeyedModel.Proofs.Token.Relexing

/-!
# Marks that are lost in print

A joint punctuation character is printed directly in front of the next tree. If that does not begin
with punctuation, the character is read back as standing alone, and printing it again leaves a space
behind it. So a text that is read and printed again is the same exactly if no mark is lost.
-/

namespace KeyedModel.Token

variable {t : Tree} {trees : List Tree}

mutual

/-- How many joint characters of the tree are printed in front of what is no punctuation. -/
def Tree.lostJoints : Tree → Nat
  | .group _ _ inner _ => lostJoints inner
  | _ => 0

/-- How many joint characters of the trees are printed in front of what is no punctuation: they are
read back as standing alone. -/
def lostJoints : List Tree → Nat
  | .punct c .joint _ :: next :: rest =>
    (if settledSpacing c (printAll (next :: rest)) = .alone then 1 else 0) +
      lostJoints (next :: rest)
  | t :: rest => t.lostJoints + lostJoints rest
  | [] => 0

end

/-- What is printed of some trees, and what is printed once they were read back. -/
structure Spread (printed again : List Char) (lost : Nat) : Prop where
  sublist : printed.Sublist again
  length : again.length = printed.length + lost

theorem Spread.append {first firstAgain second secondAgain : List Char} {lost more : Nat}
    (hfirst : Spread first firstAgain lost) (hsecond : Spread second secondAgain more) :
    Spread (first ++ second) (firstAgain ++ secondAgain) (lost + more) := by
  refine ⟨hfirst.sublist.append hsecond.sublist, ?_⟩
  have hfirst := hfirst.length
  have hsecond := hsecond.length
  simp only [List.length_append]
  omega

theorem Spread.refl (chars : List Char) : Spread chars chars 0 := ⟨List.Sublist.refl _, rfl⟩

theorem gap_of_not_joins (h : ¬t.Joins) : gap t trees = if trees.isEmpty then [] else [' '] := by
  match t, trees with
  | _, [] => rfl
  | .punct c .joint place, next :: rest => exact absurd ⟨c, place, rfl⟩ h
  | .punct c .alone place, next :: rest => rfl
  | .ident .., next :: rest => rfl
  | .literal .., next :: rest => rfl
  | .group .., next :: rest => rfl

theorem gap_joint {place : Place} : gap (.punct c .joint place) trees = [] := by
  cases trees <;> rfl

theorem not_joins_settled (t : Tree) : ¬t.settled.Joins := by
  cases t <;> simp [Tree.settled, Tree.Joins]

theorem lostJoints_cons (h : ¬t.Joins) :
    lostJoints (t :: trees) = t.lostJoints + lostJoints trees := by
  match t with
  | .punct c .joint place => exact absurd ⟨c, place, rfl⟩ h
  | .punct c .alone place => rfl
  | .ident .. => rfl
  | .literal .. => rfl
  | .group .. => rfl

theorem isEmpty_settle (trees : List Tree) : (settle trees).isEmpty = trees.isEmpty := by
  match trees with
  | [] => rfl
  | .punct c .joint place :: rest => rfl
  | .punct c .alone place :: rest => rfl
  | .ident .. :: rest => rfl
  | .literal .. :: rest => rfl
  | .group .. :: rest => rfl

mutual

/-- Every mark that is lost in a tree makes its text one space longer. -/
theorem Tree.spread_settled (t : Tree) : Spread t.print t.settled.print t.lostJoints := by
  match t with
  | .ident .. | .punct .. | .literal .. => exact .refl _
  | .group .brace opening [] closing => exact .refl _
  | .group .brace opening (next :: rest) closing =>
    have hinner := (Spread.refl ['{', ' ']).append
      ((spread_settle (next :: rest)).append (.refl [' ', '}']))
    have hsettled : ∃ t more, settle (next :: rest) = t :: more := by
      cases hrest : settle (next :: rest) with
      | nil => simpa [hrest] using isEmpty_settle (next :: rest)
      | cons t more => exact ⟨t, more, rfl⟩
    obtain ⟨t, more, hsettled⟩ := hsettled
    simpa [Tree.settled, hsettled, Tree.print, Tree.lostJoints] using hinner
  | .group .paren opening inner closing =>
    have hinner := (Spread.refl ['(']).append ((spread_settle inner).append (.refl [')']))
    simpa [Tree.settled, Tree.print, Tree.lostJoints, Delimiter.opening, Delimiter.closing]
      using hinner
  | .group .bracket opening inner closing =>
    have hinner := (Spread.refl ['[']).append ((spread_settle inner).append (.refl [']']))
    simpa [Tree.settled, Tree.print, Tree.lostJoints, Delimiter.opening, Delimiter.closing]
      using hinner

/-- Every mark that is lost makes the text one space longer. -/
theorem spread_settle (trees : List Tree) :
    Spread (printAll trees) (printAll (settle trees)) (lostJoints trees) := by
  match trees with
  | [] => exact .refl _
  | t :: rest =>
    have hrest := spread_settle rest
    by_cases hjoins : t.Joins
    · obtain ⟨c, place, rfl⟩ := hjoins
      cases rest with
      | nil => exact .refl _
      | cons next more =>
        have hgap : Spread [] (Token.gap (.punct c (settledSpacing c (printAll (next :: more))) none)
            (settle (next :: more)))
            (if settledSpacing c (printAll (next :: more)) = .alone then 1 else 0) := by
          cases settledSpacing c (printAll (next :: more)) with
          | alone =>
            rw [gap_of_not_joins (by simp [Tree.Joins]), isEmpty_settle]
            exact ⟨List.nil_sublist _, rfl⟩
          | joint =>
            rw [gap_joint]
            exact .refl _
        have hmark := (Spread.refl [c]).append (hgap.append hrest)
        have hagain : printAll (settle (.punct c .joint place :: next :: more)) =
            [c] ++ (Token.gap (.punct c (settledSpacing c (printAll (next :: more))) none)
              (settle (next :: more)) ++ printAll (settle (next :: more))) := by
          rw [settle, printAll_cons]
          rfl
        rw [hagain]
        simpa [printAll, lostJoints] using hmark
    · have ht := (Tree.spread_settled t).append ((Spread.refl (Token.gap t rest)).append hrest)
      rw [settle_cons hjoins, printAll_cons, printAll_cons, gap_of_not_joins (not_joins_settled t),
        isEmpty_settle, ← gap_of_not_joins hjoins, lostJoints_cons hjoins]
      simpa using ht

end

/-! ### Places do not matter -/

theorem gap_unplaced : gap t.unplaced (unplacedAll trees) = gap t trees := by
  match t, trees with
  | _, [] => rfl
  | .punct c .joint place, next :: rest => rfl
  | .punct c .alone place, next :: rest => rfl
  | .ident .., next :: rest => rfl
  | .literal .., next :: rest => rfl
  | .group .., next :: rest => rfl

mutual

theorem Tree.print_unplaced (t : Tree) : t.unplaced.print = t.print := by
  match t with
  | .ident .. | .punct .. | .literal .. => rfl
  | .group delimiter opening inner closing =>
    have hinner := printAll_unplacedAll inner
    cases delimiter <;> cases inner <;> simp_all [Tree.unplaced, unplacedAll, Tree.print]

/-- Trees are printed without their places. -/
theorem printAll_unplacedAll (trees : List Tree) : printAll (unplacedAll trees) = printAll trees := by
  match trees with
  | [] => rfl
  | t :: rest =>
    rw [unplacedAll, printAll_cons, printAll_cons, Tree.print_unplaced t, gap_unplaced,
      printAll_unplacedAll rest]

end

end KeyedModel.Token
