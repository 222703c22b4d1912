import KeyedModel.Proofs.Grammar.Literals
import KeyedModel.Proofs.Grammar.Results

/-!
# Visibilities that were read

A visibility is nothing, or a word with parentheses behind it perhaps, in which a word of a path or a
path behind another word stands. In front of a word it is read again as it was printed.
-/

namespace KeyedModel.Grammar

open Token (Tree Place)
open Text (isKeyword)

variable {meaning : Meaning} {closing : Place} {trees : List Tree} {w : String} {place : Place}

/-! ### Paths without arguments -/

/-- Whether the word may stand in a path. -/
def isPathWord (w : String) : Bool :=
  !isKeyword w || ["super", "self", "Self", "crate"].contains w

/-- Words of a path with separators between them. -/
inductive AreSegments : List Tree → Prop where
  | last {w : String} {place : Place} (h : isPathWord w = true) : AreSegments [.ident w place]
  | cons {w : String} {place first second : Place} {rest : List Tree} (h : isPathWord w = true)
    (hrest : AreSegments rest) :
    AreSegments (.ident w place :: .punct ':' .joint first :: .punct ':' .alone second :: rest)

/-- Segments, with a separator in front of them perhaps. -/
inductive IsPlainPath : List Tree → Prop where
  | relative {path : List Tree} (h : AreSegments path) : IsPlainPath path
  | absolute {first second : Place} {path : List Tree} (h : AreSegments path) :
    IsPlainPath (.punct ':' .joint first :: .punct ':' .alone second :: path)

/-- A separator is two joint colons, whatever follows. -/
theorem matchOp_separator {taken rest : List Tree} :
    matchOp [':', ':'] trees = some (taken, rest) ↔
      ∃ first spacing second, trees = .punct ':' .joint first :: .punct ':' spacing second :: rest ∧
        taken = [.punct ':' .joint first, .punct ':' .alone second] := by
  constructor
  · intro h
    match trees with
    | .punct d .joint first :: tail =>
      by_cases hd : ':' = d
      · subst hd
        simp only [matchOp, beq_self_eq_true, if_true, Option.map_eq_some_iff, Prod.mk.injEq] at h
        obtain ⟨⟨printed, behind⟩, hmatch, rfl, rfl⟩ := h
        obtain ⟨spacing, second, rfl, rfl⟩ := matchOp_singleton.mp hmatch
        exact ⟨first, spacing, second, rfl, rfl⟩
      · simp [matchOp, hd] at h
    | [] | .punct _ .alone _ :: _ | .ident .. :: _ | .literal .. :: _ | .group .. :: _ =>
      simp [matchOp] at h
  · rintro ⟨first, spacing, second, rfl, rfl⟩
    rfl

/-- The sights of a path see a word if it may stand in a path. -/
theorem any_sees_pathWords_ident :
    (Sight.name :: Rule.pathWords).any (·.sees (.ident w place :: trees)) = isPathWord w := by
  simp [Rule.pathWords, Sight.sees, Terminal.match?, isPathWord, apply_ite Option.isSome]

/-- They see nothing else. -/
theorem exists_ident_of_any_sees_pathWords
    (h : (Sight.name :: Rule.pathWords).any (·.sees trees) = true) :
    ∃ w place rest, trees = .ident w place :: rest ∧ isPathWord w = true := by
  rcases trees with _ | ⟨_ | _ | _ | _, rest⟩
  case cons.ident w place =>
    rw [any_sees_pathWords_ident] at h
    exact ⟨w, place, rest, rfl, h⟩
  all_goals cases h

namespace Rule

/-- A word of a path and the separator behind it, if there is one. -/
def pathRound : Rule Bool := do
  if ← nextAny (.name :: pathWords) then
    anyWord
    acceptOp "::"
  else expectingPhrase "path segment after `::`"

theorem plainPath_eq : plainPath = (do
    let _ ← acceptOp "::"
    if ← nextAny (.name :: pathWords) then repeatWhile pathRound else name) := rfl

/-- What a round takes: a word, and a separator if it goes on. -/
theorem run_pathRound_eq_ok {reply : Reply Bool}
    (h : pathRound.run meaning closing trees = .ok reply) :
    ∃ w place, isPathWord w = true ∧
      (reply.value = false ∧ reply.printed = [.ident w place] ∨
        reply.value = true ∧ ∃ first second, reply.printed =
          [.ident w place, .punct ':' .joint first, .punct ':' .alone second]) := by
  rw [pathRound, run_nextAny_bind] at h
  split at h
  · rename_i hsees
    obtain ⟨w, place, rest, rfl, hw⟩ := exists_ident_of_any_sees_pathWords hsees
    obtain ⟨a, b, ha, hb, rfl⟩ := run_bind_eq_ok.mp h
    cases ha
    rw [acceptOp, run_accept] at hb
    split at hb
    · rename_i taken behind hmatch
      obtain ⟨first, spacing, second, -, rfl⟩ := matchOp_separator.mp hmatch
      cases hb
      exact ⟨w, place, hw, .inr ⟨rfl, first, second, rfl⟩⟩
    · cases hb
      exact ⟨w, place, hw, .inl ⟨rfl, rfl⟩⟩
  · cases h

/-- The last word of a path ends it. -/
theorem run_pathRound_last (h : isPathWord w = true) :
    pathRound.run meaning closing [.ident w place] = .ok ⟨false, [.ident w place], [], none⟩ := by
  rw [pathRound, run_nextAny_bind, any_sees_pathWords_ident, h]
  rfl

/-- A separator goes on with the path. -/
theorem run_pathRound_separator {first second : Place} (h : isPathWord w = true) :
    pathRound.run meaning closing
        (.ident w place :: .punct ':' .joint first :: .punct ':' .alone second :: trees) =
      .ok ⟨true, [.ident w place, .punct ':' .joint first, .punct ':' .alone second], trees,
        none⟩ := by
  rw [pathRound, run_nextAny_bind, any_sees_pathWords_ident, h]
  rfl

theorem prints_repeatUpTo_pathRound (limit : Nat) :
    (repeatUpTo limit pathRound).Prints AreSegments where
  out {meaning closing trees reply} h := by
    induction limit generalizing trees reply with
    | zero => cases h
    | succ limit ih =>
      obtain ⟨a, b, ha, hb, rfl⟩ := run_bind_eq_ok.mp h
      obtain ⟨w, place, hw, ⟨hvalue, hprinted⟩ | ⟨hvalue, first, second, hprinted⟩⟩ :=
        run_pathRound_eq_ok ha
      · rw [hvalue] at hb
        cases hb
        simp only [Reply.after, hprinted, List.append_nil]
        exact .last hw
      · rw [hvalue] at hb
        simp only [Reply.after, hprinted]
        exact .cons hw (ih hb)

theorem prints_plainPath : plainPath.Prints IsPlainPath where
  out {meaning closing trees reply} h := by
    have hsegments {trees : List Tree} {reply : Reply Unit}
        (h : (nextAny (.name :: pathWords) >>= fun found =>
          if found then repeatWhile pathRound else name).run meaning closing trees = .ok reply) :
        AreSegments reply.printed := by
      rw [run_nextAny_bind] at h
      split at h
      · exact (prints_repeatUpTo_pathRound _).out h
      · rename_i hsees
        obtain ⟨taken, rest, b, hmatch, -, -⟩ := run_take_eq_ok.mp h
        obtain ⟨w, place, rfl, -, hname⟩ := Terminal.match?_name.mp hmatch
        rw [any_sees_pathWords_ident] at hsees
        exact absurd (by simp [isPathWord, hname]) hsees
    rw [plainPath_eq] at h
    obtain ⟨a, b, ha, hb, rfl⟩ := run_bind_eq_ok.mp h
    rw [acceptOp, run_accept] at ha
    split at ha
    · rename_i taken rest hmatch
      obtain ⟨first, spacing, second, -, rfl⟩ := matchOp_separator.mp hmatch
      cases ha
      exact .absolute (hsegments hb)
    · cases ha
      exact .relative (hsegments hb)

/-- Segments are read again as they were printed. -/
theorem run_repeatUpTo_segments (h : AreSegments trees) {limit : Nat} (hlimit : trees.length ≤ limit) :
    (repeatUpTo limit pathRound).run meaning closing trees = .ok ⟨(), trees, [], none⟩ := by
  induction h generalizing limit with
  | last hw =>
    obtain ⟨limit, rfl⟩ := Nat.exists_eq_add_of_le' hlimit
    rw [List.length_singleton, repeatUpTo, run_bind, run_pathRound_last hw]
    rfl
  | cons hw _ ih =>
    obtain ⟨limit, rfl⟩ := Nat.exists_eq_add_of_le' hlimit
    simp only [List.length_cons, ← Nat.add_assoc] at hlimit ⊢
    rw [repeatUpTo, run_bind, run_pathRound_separator hw]
    dsimp only
    rw [if_pos rfl, ih (by omega)]
    rfl

theorem run_plainPath (h : IsPlainPath trees) :
    plainPath.run meaning closing trees = .ok ⟨(), trees, [], none⟩ := by
  have hsegments {path : List Tree} (hpath : AreSegments path) :
      (nextAny (.name :: pathWords) >>= fun found =>
        if found then repeatWhile pathRound else name).run meaning closing path =
        .ok ⟨(), path, [], none⟩ := by
    have hsees : (Sight.name :: pathWords).any (·.sees path) = true := by
      cases hpath with
      | last hw => rwa [any_sees_pathWords_ident]
      | cons hw _ => rwa [any_sees_pathWords_ident]
    rw [run_nextAny_bind, hsees, if_pos rfl]
    exact run_repeatUpTo_segments hpath (Nat.le_succ _)
  rw [plainPath_eq, run_bind]
  cases h with
  | relative hpath =>
    have hnone : (acceptOp "::").run meaning closing trees = .ok ⟨false, [], trees, none⟩ := by
      cases hpath <;> rfl
    rw [hnone]
    dsimp only
    rw [hsegments hpath]
    rfl
  | @absolute first second path hpath =>
    have haccepted : (acceptOp "::").run meaning closing
        (.punct ':' .joint first :: .punct ':' .alone second :: path) =
        .ok ⟨true, [.punct ':' .joint first, .punct ':' .alone second], path, none⟩ := rfl
    rw [haccepted]
    dsimp only
    rw [hsegments hpath]
    rfl

end Rule

/-! ### Visibilities -/

/-- What a visibility prints. -/
inductive IsVisibility : List Tree → Prop where
  | inherited : IsVisibility []
  | everywhere {mark : Place} : IsVisibility [.ident "pub" mark]
  | word {mark opening closing place : Place} {w : String} (h : w ∈ ["crate", "self", "super"]) :
    IsVisibility [.ident "pub" mark, .group .paren opening [.ident w place] closing]
  | path {mark opening closing place : Place} {path : List Tree} (h : IsPlainPath path) :
    IsVisibility [.ident "pub" mark, .group .paren opening (.ident "in" place :: path) closing]

namespace Rule

/-- What is looked for in parentheses: a single word. -/
def singleWord : Rule Bool := do
  if ← nextAny [.word "crate", .word "self", .word "super"] then
    anyWord
    next .nothing
  else return false

/-- What is read in parentheses behind the word for a path. -/
def locatedPath : Rule Unit := do
  word "in"
  plainPath

/-- Parentheses of a visibility, if they are. -/
def visibilityParens : Rule Unit := do
  let single ← .foresee (within .paren singleWord) .done
  let located ← .foresee (within .paren (next (.word "in"))) .done
  if single == some true then within .paren anyWord
  else if located == some true then within .paren locatedPath

theorem visibility_eq : visibility = (do
    if ← acceptWord "pub" then
      if ← next .paren then visibilityParens) := rfl

theorem singleWord_eq_ok {reply : Reply Bool}
    (h : singleWord.run meaning closing trees = .ok reply) (hvalue : reply.value = true) :
    ∃ w place, w ∈ ["crate", "self", "super"] ∧ trees = [.ident w place] := by
  rw [singleWord, run_nextAny_bind] at h
  split at h
  · rename_i hsees
    obtain ⟨a, b, ha, hb, rfl⟩ := run_bind_eq_ok.mp h
    obtain ⟨taken, rest, hmatch, rfl⟩ := run_anyWord_eq_ok.mp ha
    obtain ⟨w, place, rfl, rfl⟩ := Terminal.match?_anyWord.mp hmatch
    cases hb
    obtain rfl : rest = [] := List.isEmpty_iff.mp hvalue
    exact ⟨w, place, by simpa [Sight.sees, Terminal.match?] using hsees, rfl⟩
  · cases h
    cases hvalue

theorem prints_locatedPath : locatedPath.Prints fun printed =>
    ∃ place path, IsPlainPath path ∧ printed = .ident "in" place :: path where
  out h := by
    obtain ⟨a, b, ha, hb, rfl⟩ := run_bind_eq_ok.mp h
    obtain ⟨place, hplace⟩ := (prints_word "in").out ha
    exact ⟨place, b.printed, prints_plainPath.out hb, by simp [Reply.after, hplace]⟩

/-- Looking ahead takes nothing. -/
theorem run_foresee_bind {α β : Type} (body : Rule α) (f : Option α → Rule β) :
    (Rule.foresee body .done >>= f).run meaning closing trees =
      (f ((body.run meaning closing trees).toOption.map Reply.value)).run meaning closing trees := by
  have hbind : (Rule.foresee body .done >>= f) = .foresee body f := rfl
  rw [hbind, Rule.run]
  cases body.run meaning closing trees <;> rfl

theorem prints_visibilityParens {mark : Place} : visibilityParens.Prints fun printed =>
    IsVisibility (.ident "pub" mark :: printed) where
  out {meaning closing trees reply} h := by
    rw [visibilityParens, run_foresee_bind, run_foresee_bind] at h
    split at h
    · rename_i hsingle
      obtain ⟨found, hfound, hvalue⟩ := Option.map_eq_some_iff.mp (beq_iff_eq.mp hsingle)
      have hrun : (within .paren singleWord).run meaning closing trees = .ok found := by
        cases hfirst : (within .paren singleWord).run meaning closing trees with
        | error e => simp [hfirst, Except.toOption] at hfound
        | ok r => simpa [hfirst, Except.toOption] using hfound
      obtain ⟨opening, inner, closed, rest, a, rfl, ha, rfl⟩ := run_within_eq_ok.mp hrun
      obtain ⟨w, place, hw, rfl⟩ := singleWord_eq_ok ha hvalue
      cases h
      exact .word hw
    · split at h
      · obtain ⟨opening, inner, closed, rest, a, rfl, ha, rfl⟩ := run_within_eq_ok.mp h
        obtain ⟨place, path, hpath, hprinted⟩ := prints_locatedPath.out ha
        rw [hprinted]
        exact .path hpath
      · cases h
        exact .everywhere

theorem prints_visibility : visibility.Prints IsVisibility where
  out {meaning closing trees reply} h := by
    rw [visibility_eq] at h
    obtain ⟨a, b, ha, hb, rfl⟩ := run_bind_eq_ok.mp h
    rw [acceptWord, run_accept] at ha
    split at ha
    · rename_i taken rest hmatch
      obtain ⟨mark, rfl, rfl⟩ := Terminal.match?_word.mp hmatch
      cases ha
      dsimp only at hb
      rw [if_pos rfl, run_next_bind] at hb
      split at hb
      · exact prints_visibilityParens.out hb
      · cases hb
        exact .everywhere
    · cases ha
      cases hb
      exact .inherited

/-- In front of a word a visibility is read again as it was printed, unless there is none and the
word is taken for one. -/
theorem run_visibility {printed : List Tree} (h : IsVisibility printed)
    (hw : printed = [] → w ≠ "pub") :
    visibility.run meaning closing (printed ++ .ident w place :: trees) =
      .ok ⟨(), printed, .ident w place :: trees, none⟩ := by
  cases h with
  | inherited =>
    have hnone : (acceptWord "pub").run meaning closing (.ident w place :: trees) =
        .ok ⟨false, [], .ident w place :: trees, none⟩ := by
      simp [acceptWord, run_accept, Terminal.match?, hw rfl]
    rw [List.nil_append, visibility_eq, run_bind, hnone]
    rfl
  | everywhere => rfl
  | word hword =>
    simp only [List.mem_cons, List.not_mem_nil, or_false] at hword
    obtain rfl | rfl | rfl := hword <;> rfl
  | @path mark opening closed _ path hpath =>
    have hinner {closing : Place} {place : Place} : locatedPath.run meaning closing
        (.ident "in" place :: path) = .ok ⟨(), .ident "in" place :: path, [], none⟩ := by
      have hword : (Rule.word "in").run meaning closing (.ident "in" place :: path) =
          .ok ⟨(), [.ident "in" place], path, none⟩ := rfl
      rw [locatedPath, run_bind, hword]
      dsimp only
      rw [run_plainPath hpath]
      rfl
    have hparens {rest : List Tree} {place : Place} : visibilityParens.run meaning closing
        (.group .paren opening (.ident "in" place :: path) closed :: rest) =
        .ok ⟨(), [.group .paren opening (.ident "in" place :: path) closed], rest, none⟩ := by
      change (within .paren locatedPath).run meaning closing
        (.group .paren opening (.ident "in" place :: path) closed :: rest) = _
      exact run_within_eq_ok.mpr ⟨_, _, _, _, _, rfl, hinner, rfl⟩
    rw [visibility_eq]
    exact run_bind_eq_ok.mpr ⟨_, _, rfl, hparens, rfl⟩

end Rule

end KeyedModel.Grammar
