import KeyedModel.Proofs.Argument.Written
import KeyedModel.Proofs.Grammar.FlushExpressions

/-!
# The segments of an argument list

Reading an argument list divides its tokens at commas: every argument has tokens of its own, which a
comma or the end closes off. What the argument holds was taken from these tokens, so an error about
it is found among them.
-/

namespace KeyedModel

open Token (Tree Place Spacing Leaf)
open Grammar (ArgumentShape Meaning Reply Rule Side Sight meaningOf meaningFor rules)
open Grammar.Rule (extent iterate_induct listUntil run_bind_eq_ok run_held_eq_ok run_next_bind
  run_nextAny_bind run_take_eq_ok)

/-- The place is that of some of the trees that follow each other. -/
def LocatedIn (place : Place) (trees : List Tree) : Prop :=
  ∃ part, part ≠ [] ∧ part <:+: trees ∧ place = extent part

/-- What is printed for some trees has the extent of these trees. -/
structure Stands (printed taken : List Tree) : Prop where
  taken_ne_nil : taken ≠ []
  flush : ∀ side : Side, side.Flush printed taken

namespace Stands

variable {printed taken further more trees : List Tree}

theorem append (h : Stands printed taken) (hmore : Stands further more) :
    Stands (printed ++ further) (taken ++ more) :=
  ⟨by simp [h.taken_ne_nil], fun side => (h.flush side).append (hmore.flush side)⟩

theorem locatedIn (h : Stands printed taken) (htaken : taken <:+: trees) :
    LocatedIn (extent printed) trees :=
  ⟨taken, h.taken_ne_nil, htaken, Side.extent_eq (h.flush .front) (h.flush .back)⟩

end Stands

/-! ### One argument -/

/-- The shape was read from the trees: its parts stand where trees were taken for them. -/
inductive ShapeOf : List Tree → ArgumentShape → Prop where
  | literal {taken trees : List Tree} (h : Stands trees taken) : ShapeOf taken (.literal trees)
  | path {taken words : List Tree} (h : Stands words taken) : ShapeOf taken (.path words)
  | list {taken more words group : List Tree} (hwords : Stands words taken)
    (hgroup : Stands group more) : ShapeOf (taken ++ more) (.list words group)
  | assigned {taken sign more words value : List Tree} {isLiteral : Bool}
    (hwords : Stands words taken) (hvalue : Stands value more) :
    ShapeOf (taken ++ sign ++ more) (.assigned words isLiteral value)

/-- A literal that is no string is reported where it stands. -/
theorem TextLiteral.ofTrees_eq_error {trees : List Tree} {e : ArgumentError}
    (h : ofTrees trees = .error e) : e.place = extent trees := by
  unfold ofTrees at h
  split at h
  · cases h
  · cases h
    rfl

/-- The error of a shape is found among the trees that it was read from. -/
theorem ShapeOf.locatedIn {segment : List Tree} {shape : ArgumentShape} {e : ArgumentError}
    (h : ShapeOf segment shape) (he : Argument.ofShape shape = .error e) :
    LocatedIn e.place segment := by
  cases h with
  | literal hstands =>
    rename_i trees
    cases hl : TextLiteral.ofTrees trees with
    | ok literal => simp [Argument.ofShape, hl, Except.map] at he
    | error f =>
      obtain rfl : f = e := by simpa [Argument.ofShape, hl, Except.map] using he
      exact TextLiteral.ofTrees_eq_error hl ▸ hstands.locatedIn (List.infix_refl _)
  | path hstands =>
    cases he
    exact hstands.locatedIn (List.infix_refl _)
  | list hwords hgroup =>
    cases he
    exact (hwords.append hgroup).locatedIn (List.infix_refl _)
  | assigned hwords hvalue =>
    rename_i taken sign more words value isLiteral
    have hwords : LocatedIn (extent words) (taken ++ sign ++ more) :=
      hwords.locatedIn ⟨[], sign ++ more, by simp⟩
    have hvalue : LocatedIn (extent value) (taken ++ sign ++ more) :=
      hvalue.locatedIn ⟨taken ++ sign, [], by simp⟩
    unfold Argument.ofShape at he
    split at he
    · rename_i hshape
      cases hshape
    · rename_i hshape
      cases hshape
    · rename_i hshape
      cases hshape
    · rename_i hshape
      cases hshape
      cases hl : TextLiteral.ofTrees value with
      | ok literal => simp [hl, Except.map] at he
      | error f =>
        obtain rfl : f = e := by simpa [hl, Except.map] using he
        exact TextLiteral.ofTrees_eq_error hl ▸ hvalue
    · rename_i hshape
      cases hshape
      cases he
      exact hvalue
    · rename_i hshape
      cases hshape
      cases he
      exact hwords

section

variable {α : Type} {depth : Nat} {closing : Place} {trees : List Tree}

/-- What a rule that takes a token prints stands where it was taken. -/
theorem stands_of_run {r : Rule α} [hfront : r.Flush .front] [hback : r.Flush .back]
    [hadvances : r.Advances] {reply : Reply α}
    (h : r.run (meaningOf rules depth) closing trees = .ok reply) :
    ∃ taken, trees = taken ++ reply.rest ∧ Stands reply.printed taken := by
  have hmeaning := Grammar.meaningOf_flush depth
  have hlt := hadvances.run_lt hmeaning.goesForward hmeaning.advances h trivial
  obtain ⟨taken, rfl, hflushFront⟩ := hfront.run_ok hmeaning h
  obtain ⟨taken', htaken, hflushBack⟩ := hback.run_ok hmeaning h
  obtain rfl : taken = taken' := List.append_cancel_right htaken
  refine ⟨taken, rfl, ?_, fun side => ?_⟩
  · rintro rfl
    exact absurd hlt (Nat.lt_irrefl _)
  · cases side with
    | front => exact hflushFront
    | back => exact hflushBack

instance {side : Side} : (Rule.argumentPath).Flush side := by
  unfold Rule.argumentPath; infer_instance

instance : Rule.argumentPath.Advances := by unfold Rule.argumentPath; infer_instance

instance : Rule.literalFollows.Silent := by unfold Rule.literalFollows; infer_instance

instance : (Rule.anyGroup).Advances where
  run_lt _ _ h _ := by
    unfold Rule.anyGroup Rule.run at h
    split at h
    · cases h
      exact Nat.lt_succ_self _
    · cases h

/-- The shape of an argument is read from the trees that are taken for it. -/
theorem shapeOf_of_run {reply : Reply ArgumentShape}
    (h : Rule.argument.run (meaningOf rules depth) closing trees = .ok reply) :
    ∃ segment, trees = segment ++ reply.rest ∧ ShapeOf segment reply.value := by
  obtain ⟨b, c, hb, hc, rfl⟩ := run_bind_eq_ok.mp h
  obtain ⟨-, hrest⟩ := Rule.Silent.run_ok hb
  rw [hrest] at hc
  split at hc
  · obtain ⟨d, e, hd, he, rfl⟩ := run_bind_eq_ok.mp hc
    obtain ⟨l, hl, rfl⟩ := run_held_eq_ok.mp hd
    cases he
    obtain ⟨taken, htrees, hstands⟩ := stands_of_run hl
    exact ⟨taken, htrees, .literal hstands⟩
  rw [run_next_bind] at hc
  split at hc
  · obtain ⟨d, e, hd, he, rfl⟩ := run_bind_eq_ok.mp hc
    obtain ⟨words, hwords, rfl⟩ := run_held_eq_ok.mp hd
    obtain ⟨taken, htrees, hstands⟩ := stands_of_run hwords
    rw [run_nextAny_bind] at he
    split at he
    · obtain ⟨f, g, hf, hg, rfl⟩ := run_bind_eq_ok.mp he
      obtain ⟨group, hgroup, rfl⟩ := run_held_eq_ok.mp hf
      cases hg
      obtain ⟨more, hmore, hgroup⟩ := stands_of_run hgroup
      dsimp only at hmore
      exact ⟨taken ++ more, by rw [htrees, hmore, List.append_assoc]; rfl, .list hstands hgroup⟩
    obtain ⟨f, g, hf, hg, rfl⟩ := run_bind_eq_ok.mp he
    obtain ⟨sign, hsign⟩ := Rule.run_suffix (Grammar.meaningOf_goesForward rules depth) hf
    split at hg
    · obtain ⟨k, m, hk, hm, rfl⟩ := run_bind_eq_ok.mp hg
      obtain ⟨value, hvalue, rfl⟩ := run_held_eq_ok.mp hk
      cases hm
      obtain ⟨more, hmore, hvalue⟩ := stands_of_run hvalue
      refine ⟨taken ++ sign ++ more, ?_, .assigned hstands hvalue⟩
      rw [htrees, ← hsign, hmore, ← List.append_assoc, ← List.append_assoc]
      rfl
    · rename_i hnone
      cases hg
      obtain rfl : sign = [] := by
        rw [Rule.acceptOp, Rule.run_accept] at hf
        split at hf
        · cases hf
          exact absurd rfl hnone
        · cases hf
          exact List.append_left_eq_self.mp hsign
      exact ⟨taken, by rw [htrees, ← hsign]; rfl, .path hstands⟩
  · cases hc

end

/-! ### All arguments -/

/-- An argument as it was read: its tokens and its shape. -/
structure Segment where
  trees : List Tree
  shape : ArgumentShape

namespace Segment

/-- The argument, if it has one of the shapes that describe a field. -/
def argument? (segment : Segment) : Option Argument := (Argument.ofShape segment.shape).toOption

/-- The error of an argument that has no such shape. -/
def error? (segment : Segment) : Option ArgumentError :=
  match Argument.ofShape segment.shape with
  | .ok _ => none
  | .error e => some e

/-- The grammar finds the argument in front of the rest. -/
def ReadBefore (meaning : Meaning) (segment : Segment) (rest : List Tree) : Prop :=
  ∃ reply, Rule.argument.run meaning none (segment.trees ++ rest) = .ok reply ∧
    reply.rest = rest ∧ reply.value = segment.shape

/-- No argument is read from nothing. -/
theorem ReadBefore.ne_nil {meaning : Meaning} {segment : Segment}
    (h : segment.ReadBefore meaning []) : segment.trees ≠ [] := by
  intro hnil
  obtain ⟨reply, hrun, -⟩ := h
  rw [hnil] at hrun
  cases hrun

end Segment

/-- The grammar divides the trees into the segments, with a comma behind each of them but the last,
and perhaps one behind the last. -/
inductive Divided (meaning : Meaning) : List Tree → List Segment → Prop where
  | nil : Divided meaning [] []
  | last {segment : Segment} (h : segment.ReadBefore meaning []) :
    Divided meaning segment.trees [segment]
  | cons {segment : Segment} {rest : List Tree} {segments : List Segment} {spacing : Spacing}
    {sign : Place} (h : segment.ReadBefore meaning (.punct ',' spacing sign :: rest))
    (hrest : Divided meaning rest segments) :
    Divided meaning (segment.trees ++ .punct ',' spacing sign :: rest) (segment :: segments)

section

variable {depth : Nat} {trees : List Tree}

/-- What is read as a list of arguments is divided into them. -/
theorem divided_of_run {reply : Reply (List (Grammar.Rule.Listed ArgumentShape))}
    (h : (listUntil .nothing Rule.argument).run (meaningOf rules depth) none trees = .ok reply) :
    ∃ segments, Divided (meaningOf rules depth) trees segments ∧
      segments.map Segment.shape = reply.value.map (·.element) := by
  let meaning := meaningOf rules depth
  -- What was found so far stands in front of the rest, however the rest is divided.
  let keeps (found : List (Grammar.Rule.Listed ArgumentShape)) (rest : List Tree) : Prop :=
    ∀ more, Divided meaning rest more → ∃ segments, Divided meaning trees segments ∧
      segments.map Segment.shape = found.map (·.element) ++ more.map Segment.shape
  let gives (found : List (Grammar.Rule.Listed ArgumentShape)) (_ : List Tree) : Prop :=
    ∃ segments, Divided meaning trees segments ∧
      segments.map Segment.shape = found.map (·.element)
  refine iterate_induct keeps gives ?_ (fun more hmore => ⟨more, hmore, rfl⟩) h
  intro found rest a hfound ha
  rw [run_next_bind] at ha
  split at ha
  · rename_i hend
    obtain rfl : rest = [] := List.isEmpty_iff.mp hend
    cases ha
    obtain ⟨segments, hsegments, hshapes⟩ := hfound [] .nil
    exact ⟨segments, hsegments, by simpa using hshapes⟩
  obtain ⟨b, c, hb, hc, rfl⟩ := run_bind_eq_ok.mp ha
  obtain ⟨taken, htaken, -⟩ := shapeOf_of_run hb
  have hread : Segment.ReadBefore meaning ⟨taken, b.value⟩ b.rest := ⟨b, htaken ▸ hb, rfl, rfl⟩
  rw [run_next_bind] at hc
  split at hc
  · rename_i hend
    have hnil : b.rest = [] := List.isEmpty_iff.mp hend
    cases hc
    rw [hnil, List.append_nil] at htaken
    rw [hnil] at hread
    obtain ⟨segments, hsegments, hshapes⟩ := hfound [⟨taken, b.value⟩] (htaken ▸ .last hread)
    exact ⟨segments, hsegments, by simpa using hshapes⟩
  · obtain ⟨d, e, hd, he, rfl⟩ := run_bind_eq_ok.mp hc
    obtain ⟨f, hf, rfl⟩ := run_held_eq_ok.mp hd
    cases he
    obtain ⟨comma, after, g, hmatch, hg, rfl⟩ := run_take_eq_ok.mp hf
    obtain ⟨spacing, sign, hcomma, -⟩ := Grammar.matchOp_singleton.mp hmatch
    cases hg
    rw [hcomma] at htaken hread
    intro more hmore
    obtain ⟨segments, hsegments, hshapes⟩ :=
      hfound (⟨taken, b.value⟩ :: more) (htaken ▸ .cons hread hmore)
    exact ⟨segments, hsegments, by simpa using hshapes⟩

/-- A list that follows its grammar is divided into its arguments. -/
theorem divided_of_readArguments {shapes : List ArgumentShape}
    (h : Grammar.readArguments trees = .ok shapes) :
    ∃ segments, Divided (meaningFor trees) trees segments ∧
      segments.map Segment.shape = shapes := by
  obtain ⟨found, printed, hrun, rfl⟩ := Grammar.readArguments_eq_ok.mp h
  exact divided_of_run hrun

/-- Every segment was read in front of some rest of the list. -/
theorem Divided.exists_readBefore {meaning : Meaning} {segments : List Segment} {segment : Segment}
    (h : Divided meaning trees segments) (hmem : segment ∈ segments) :
    ∃ rest, segment.ReadBefore meaning rest ∧ segment.trees ++ rest <:+ trees := by
  induction h with
  | nil => cases hmem
  | last hread =>
    obtain rfl := List.mem_singleton.mp hmem
    exact ⟨[], hread, by simp⟩
  | cons hread _ ih =>
    rcases List.mem_cons.mp hmem with rfl | hmem
    · exact ⟨_, hread, List.suffix_rfl⟩
    · obtain ⟨rest, hbefore, hsuffix⟩ := ih hmem
      exact ⟨rest, hbefore, hsuffix.trans ((List.suffix_cons _ _).trans (List.suffix_append _ _))⟩

variable {segments : List Segment} {segment : Segment}

/-- The error of an argument is found among its tokens. -/
theorem Divided.locatedIn (h : Divided (meaningOf rules depth) trees segments)
    (hmem : segment ∈ segments) {e : ArgumentError} (he : segment.error? = some e) :
    LocatedIn e.place segment.trees := by
  obtain ⟨rest, ⟨reply, hrun, rfl, hshape⟩, -⟩ := h.exists_readBefore hmem
  obtain ⟨taken, htaken, hread⟩ := shapeOf_of_run hrun
  obtain rfl : segment.trees = taken := List.append_cancel_right htaken
  rw [hshape] at hread
  refine hread.locatedIn ?_
  unfold Segment.error? at he
  split at he
  · cases he
  · rwa [← Option.some.inj he]

/-- An argument with one of the shapes that describe a field is written as such. -/
theorem Divided.written (hlexed : ∀ t ∈ trees, t.All Leaf.Denotes)
    (h : Divided (meaningOf rules depth) trees segments) (hmem : segment ∈ segments) {a : Argument}
    (ha : segment.argument? = some a) : Argument.Written segment.trees a := by
  obtain ⟨rest, ⟨reply, hrun, rfl, hshape⟩, hsuffix⟩ := h.exists_readBefore hmem
  have hshape : Argument.ofShape reply.value = .ok a := by
    unfold Segment.argument? at ha
    rw [hshape]
    cases hof : Argument.ofShape segment.shape with
    | error e => simp [hof, Except.toOption] at ha
    | ok b => simpa [hof, Except.toOption] using ha
  obtain ⟨front, hwritten, hfront⟩ :=
    Argument.written_of_run (fun t ht => hlexed t (hsuffix.subset ht)) hrun hshape
  rwa [List.append_cancel_right hfront]

end

/-- The literal of a written argument stands among its tokens. -/
theorem Argument.Written.locatedIn {trees : List Tree} {a : Argument} (h : Written trees a) :
    LocatedIn a.literal.place trees := by
  have hextent (text : String) (place : Place) : place = extent [.literal text place] := by
    cases place <;> rfl
  cases h with
  | positional h => exact ⟨[_], by simp, List.infix_refl _, hextent _ _⟩
  | labeled h => exact ⟨[_], by simp, ⟨[_, _], [], rfl⟩, hextent _ _⟩

end KeyedModel
