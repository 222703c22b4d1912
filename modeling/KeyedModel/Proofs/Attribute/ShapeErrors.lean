import KeyedModel.Proofs.Attribute.Reports
import KeyedModel.Proofs.Token.Places

/-!
# Errors of shape

A list that follows its grammar is divided into its arguments in one way only. If it is refused, the
errors are those of the arguments that are not written as a string literal, alone or behind a word
and an equality sign: one for each, in their order. Commas keep the arguments apart, so the errors
stand apart as well.
-/

namespace KeyedModel

open Token (Tree Place Span Position Stretch Leaf lex)
open Grammar (ArgumentShape Meaning Rule meaningOf meaningFor rules readArguments)
open Grammar.Rule (EndsArgument extent)

variable {meaning : Meaning} {source : String} {start stop : Position} {depth : Nat}
  {trees rest : List Tree} {segment : Segment} {segments : List Segment}

/-- The errors of the segments, in their order: each that is not written as an argument has its own
error, found among its tokens, and no other has any. -/
inductive Blames : List Segment → List ArgumentError → Prop where
  | nil : Blames [] []
  | written {segment : Segment} {segments : List Segment} {errors : List ArgumentError}
    {a : Argument} (h : Argument.Written segment.trees a) (hrest : Blames segments errors) :
    Blames (segment :: segments) errors
  | unwritten {segment : Segment} {segments : List Segment} {e : ArgumentError}
    {errors : List ArgumentError} (h : ∀ a, ¬ Argument.Written segment.trees a)
    (he : segment.error? = some e) (hplace : LocatedIn e.place segment.trees)
    (hrest : Blames segments errors) : Blames (segment :: segments) (e :: errors)

/-- The errors stand in the text, in its order and apart from each other. -/
def StandApart (source : String) (errors : List ArgumentError) : Prop :=
  ∃ spans : List Span, errors.map (·.place) = spans.map some ∧
    (∀ span ∈ spans, span.source = source ∧ span.start < span.stop) ∧
    spans.Pairwise fun a b => a.stop < b.start

/-! ### One division only -/

namespace Segment

theorem error?_eq_none : segment.error? = none ↔ segment.argument?.isSome := by
  unfold error? argument?
  cases Argument.ofShape segment.shape <;> simp [Except.toOption]

/-- What is no argument is in error. -/
theorem exists_error (h : segment.argument? = none) : ∃ e, segment.error? = some e := by
  rw [← Option.ne_none_iff_exists', ne_eq, error?_eq_none, h]
  simp

end Segment

namespace Segment.ReadBefore

/-- What the grammar finds in front of the trees is determined by them. -/
theorem unique {other : Segment} {others : List Tree} (h : segment.ReadBefore meaning rest)
    (hother : other.ReadBefore meaning others) (heq : segment.trees ++ rest = other.trees ++ others) :
    segment = other ∧ rest = others := by
  obtain ⟨reply, hrun, rfl, hshape⟩ := h
  obtain ⟨reply', hrun', rfl, hshape'⟩ := hother
  obtain rfl : reply = reply' := Except.ok.inj (hrun.symm.trans (heq ▸ hrun'))
  have htrees := List.append_cancel_right heq
  cases segment
  cases other
  simp_all

/-- A segment that is written as an argument is one. -/
theorem argument?_of_written {a : Argument} (hdepth : 3 ≤ depth)
    (h : segment.ReadBefore (meaningOf rules depth) rest) (hend : EndsArgument rest)
    (hwritten : Argument.Written segment.trees a) : segment.argument? = some a := by
  obtain ⟨reply, hrun, -, hshape⟩ := h
  obtain ⟨shape, printed, hread, hof⟩ : ∃ shape printed,
      Rule.argument.run (meaningOf rules depth) none (segment.trees ++ rest) =
        .ok ⟨shape, printed, rest, none⟩ ∧ Argument.ofShape shape = .ok a :=
    Argument.run_of_written hdepth hwritten hend
  obtain rfl : reply = _ := Except.ok.inj (hrun.symm.trans hread)
  rw [Segment.argument?, ← hshape, hof, Except.toOption]

end Segment.ReadBefore

/-- There is one division only. -/
theorem Divided.unique {others : List Segment} (h : Divided meaning trees segments)
    (hothers : Divided meaning trees others) : segments = others := by
  induction h generalizing others with
  | nil =>
    generalize hnil : ([] : List Tree) = found at hothers
    cases hothers with
    | nil => rfl
    | last hread => exact absurd hnil.symm hread.ne_nil
    | cons => simp at hnil
  | @last segment hread =>
    generalize hfound : segment.trees = found at hothers
    cases hothers with
    | nil => exact absurd hfound hread.ne_nil
    | last hother =>
      obtain ⟨rfl, -⟩ := hread.unique hother (by simp [hfound])
      rfl
    | cons hother =>
      obtain ⟨-, hrest⟩ := hread.unique hother (by simp [hfound])
      cases hrest
  | @cons segment rest segments spacing sign hread _ ih =>
    generalize hfound : segment.trees ++ .punct ',' spacing sign :: rest = found at hothers
    cases hothers with
    | nil => simp at hfound
    | last hother =>
      obtain ⟨-, hrest⟩ := hread.unique hother (by simp [hfound])
      cases hrest
    | cons hother hothers =>
      obtain ⟨rfl, hrest⟩ := hread.unique hother hfound
      cases hrest
      rw [ih hothers]

/-! ### Who is blamed -/

/-- The errors of a divided list are those of the segments that are not written as arguments. -/
theorem Divided.blames (hlexed : ∀ t ∈ trees, t.All Leaf.Denotes) (hdepth : 3 ≤ depth)
    (h : Divided (meaningOf rules depth) trees segments) :
    Blames segments (segments.filterMap Segment.error?) := by
  -- one segment in front of those that are dealt with
  have hcons {trees rest : List Tree} {segment : Segment} {segments : List Segment}
      (hlexed : ∀ t ∈ trees, t.All Leaf.Denotes)
      (h : Divided (meaningOf rules depth) trees (segment :: segments))
      (hread : segment.ReadBefore (meaningOf rules depth) rest) (hend : EndsArgument rest)
      (hrest : Blames segments (segments.filterMap Segment.error?)) :
      Blames (segment :: segments) ((segment :: segments).filterMap Segment.error?) := by
    cases hargument : segment.argument? with
    | some a =>
      have herror : segment.error? = none := Segment.error?_eq_none.mpr (by simp [hargument])
      rw [List.filterMap_cons_none herror]
      exact .written (h.written hlexed List.mem_cons_self hargument) hrest
    | none =>
      obtain ⟨e, he⟩ := Segment.exists_error hargument
      rw [List.filterMap_cons_some he]
      refine .unwritten (fun a ha => ?_) he (h.locatedIn List.mem_cons_self he) hrest
      rw [hread.argument?_of_written hdepth hend ha] at hargument
      cases hargument
  induction h with
  | nil => exact .nil
  | last hread => exact hcons hlexed (.last hread) hread (.inl rfl) .nil
  | @cons segment rest segments spacing sign hread hdivided ih =>
    have hrest : ∀ t ∈ rest, t.All Leaf.Denotes := fun t ht => hlexed t (by simp [ht])
    exact hcons hlexed (.cons hread hdivided) hread (.inr ⟨spacing, sign, rest, rfl⟩) (ih hrest)

/-! ### Where the errors stand -/

/-- What stands among some trees of a text has a place in the text. -/
theorem LocatedIn.exists_span {place : Place} (h : LocatedIn place trees)
    (hstretch : Stretch source start stop trees) :
    ∃ span, place = some span ∧ span.source = source ∧ start ≤ span.start ∧
      span.start < span.stop ∧ span.stop ≤ stop := by
  obtain ⟨part, hne, hpart, rfl⟩ := h
  have hstretch := hstretch.of_sublist hpart.sublist
  obtain ⟨t, more, rfl⟩ := List.exists_cons_of_ne_nil hne
  obtain ⟨a, ha, hsource, hstart, hlt, hstop⟩ := hstretch.placed t List.mem_cons_self
  cases hlast : more.getLast? with
  | none =>
    obtain rfl := List.getLast?_eq_none_iff.mp hlast
    exact ⟨a, by simp [extent, ha, Place.to], hsource, hstart, hlt, hstop⟩
  | some u =>
    have hmem := List.mem_of_getLast? hlast
    obtain ⟨b, hb, -, -, hlength, hend⟩ := hstretch.placed u (List.mem_cons_of_mem t hmem)
    obtain ⟨a', b', ha', hb', horder⟩ := (List.pairwise_cons.mp hstretch.ordered).1 u hmem
    obtain rfl : a = a' := Option.some.inj (ha.symm.trans ha')
    obtain rfl : b = b' := Option.some.inj (hb.symm.trans hb')
    have hforward : a.start < b.stop := by
      rcases horder with hle | ⟨rfl, -⟩
      · exact hlt.trans (hle.trans_lt hlength)
      · exact hlt
    refine ⟨⟨a.source, a.start, b.stop⟩, ?_, hsource, hstart, hforward, hend⟩
    simp [extent, List.getLast?_cons, hlast, ha, hb, Place.to]

/-- The errors stand between two positions of the text, in its order and apart from each other. -/
def StandBetween (source : String) (start stop : Position) (errors : List ArgumentError) : Prop :=
  ∃ spans : List Span, errors.map (·.place) = spans.map some ∧
    (∀ span ∈ spans, span.source = source ∧ start ≤ span.start ∧ span.start < span.stop ∧
      span.stop ≤ stop) ∧
    spans.Pairwise fun a b => a.stop < b.start

namespace StandBetween

variable {front back : List ArgumentError} {mid next : Position}

theorem standApart (h : StandBetween source start stop front) : StandApart source front := by
  obtain ⟨spans, hplaces, hspans, hordered⟩ := h
  exact ⟨spans, hplaces, fun span hspan => ⟨(hspans span hspan).1, (hspans span hspan).2.2.1⟩,
    hordered⟩

/-- Errors with something between them stand apart. -/
theorem append (hfront : StandBetween source start mid front)
    (hback : StandBetween source next stop back) (hstart : start ≤ mid) (hlt : mid < next)
    (hstop : next ≤ stop) : StandBetween source start stop (front ++ back) := by
  obtain ⟨spans, hplaces, hspans, hordered⟩ := hfront
  obtain ⟨others, hothers, hbehind, hbackward⟩ := hback
  refine ⟨spans ++ others, by rw [List.map_append, List.map_append, hplaces, hothers],
    fun span hspan => ?_, List.pairwise_append.mpr ⟨hordered, hbackward, fun a ha b hb => ?_⟩⟩
  · rcases List.mem_append.mp hspan with hspan | hspan
    · obtain ⟨hsource, hbegin, hlength, hend⟩ := hspans span hspan
      exact ⟨hsource, hbegin, hlength, hend.trans (hlt.le.trans hstop)⟩
    · obtain ⟨hsource, hbegin, hlength, hend⟩ := hbehind span hspan
      exact ⟨hsource, (hstart.trans hlt.le).trans hbegin, hlength, hend⟩
  · exact (hspans a ha).2.2.2.trans_lt (hlt.trans_le (hbehind b hb).2.1)

end StandBetween

/-- The error of a segment, if it has one, stands where the segment does. -/
theorem Segment.standBetween
    (hlocated : ∀ e, segment.error? = some e → LocatedIn e.place segment.trees)
    (hstretch : Stretch source start stop segment.trees) :
    StandBetween source start stop segment.error?.toList := by
  cases he : segment.error? with
  | none => exact ⟨[], by simp⟩
  | some e =>
    obtain ⟨span, hplace, hspan⟩ := (hlocated e he).exists_span hstretch
    exact ⟨[span], by simp [hplace], by simpa using hspan, by simp⟩

/-- The errors of a divided list stand apart. -/
theorem Divided.standBetween (h : Divided (meaningOf rules depth) trees segments)
    (hstretch : Stretch source start stop trees) :
    StandBetween source start stop (segments.filterMap Segment.error?) := by
  induction h generalizing start with
  | nil => exact ⟨[], by simp⟩
  | @last segment hread =>
    have hone := Segment.standBetween
      (fun e he => (Divided.last hread).locatedIn List.mem_cons_self he) hstretch
    cases he : segment.error? <;> simpa [he] using hone
  | @cons segment rest segments spacing sign hread hdivided ih =>
    obtain ⟨span, hfront, hlt, hback⟩ := hstretch.split_comma ⟨spacing, sign, rfl⟩
    have hone := Segment.standBetween
      (fun e he => (Divided.cons hread hdivided).locatedIn List.mem_cons_self he) hfront
    have hall := hone.append (ih hback) hfront.le hlt hback.le
    cases he : segment.error? <;> simpa [he] using hall

/-! ### The argument list -/

/-- What an argument list that follows its grammar is refused with. Its tokens are divided into
arguments in one way only. If some of these are not written as a string literal, alone or behind a
word and an equality sign, then the list is refused with one error for each of them, in their order,
and with no others; each error is found among the tokens of its argument, so the errors stand in the
order of the text and apart from each other. Otherwise the list is not refused. -/
theorem Argument.ofTrees_blames {text : String} {shapes : List ArgumentShape}
    (hlex : lex source text = some trees) (hshapes : readArguments trees = .ok shapes) :
    ∃ segments errors, Divided (meaningFor trees) trees segments ∧
      (∀ others, Divided (meaningFor trees) trees others → others = segments) ∧
      segments.map Segment.shape = shapes ∧ Blames segments errors ∧ StandApart source errors ∧
      ∀ e, ofTrees trees = .error e ↔ errors ≠ [] ∧ e = .arguments errors := by
  obtain ⟨segments, hdivided, rfl⟩ := divided_of_readArguments hshapes
  obtain ⟨start, stop, hstretch⟩ := Token.stretch_of_lex hlex
  have hdepth : 3 ≤ Grammar.depthFor trees := by
    unfold Grammar.depthFor
    omega
  refine ⟨segments, _, hdivided, fun others hothers => hothers.unique hdivided, rfl,
    hdivided.blames (Token.holdsOfLexed_denotes.lex hlex) hdepth,
    (hdivided.standBetween hstretch).standApart, fun e => ?_⟩
  rw [ofTrees, hshapes]
  dsimp only
  rw [gather_segments, ← List.isEmpty_eq_false_iff]
  cases (segments.filterMap Segment.error?).isEmpty <;> simp [eq_comm]

/-- The faults of a list that follows its grammar. -/
def Argument.faults (trees : List Tree) : List ArgumentFault :=
  match ofTrees trees with
  | .error (.arguments errors) => errors.map (·.fault)
  | _ => []

/-- A number, a list of words, and a value that is no literal are blamed; the text between them is
not. -/
theorem Argument.ofTrees_blames_mixed :
    ∃ trees segments errors, lex "attr" "42, \"a\", b(c, d), e = f + 1," = some trees ∧
      Divided (meaningFor trees) trees segments ∧ Blames segments errors ∧
      StandApart "attr" errors ∧ errors.map (·.fault) = [.wrongLiteral .int, .list, .wrongValue "e"] ∧
      ofTrees trees = .error (.arguments errors) := by
  have hfaults : (lex "attr" "42, \"a\", b(c, d), e = f + 1,").map faults =
      some [.wrongLiteral .int, .list, .wrongValue "e"] := by
    decide +kernel
  obtain ⟨trees, hlex, hfaults⟩ := Option.map_eq_some_iff.mp hfaults
  cases hshapes : readArguments trees with
  | error e => simp [faults, ofTrees, hshapes] at hfaults
  | ok shapes =>
    obtain ⟨segments, errors, hdivided, -, -, hblames, happart, hrefused⟩ :=
      ofTrees_blames hlex hshapes
    cases hresult : ofTrees trees with
    | ok arguments => simp [faults, hresult] at hfaults
    | error e =>
      obtain ⟨-, rfl⟩ := (hrefused e).mp hresult
      exact ⟨trees, segments, errors, hlex, hdivided, hblames, happart,
        by simpa [faults, hresult] using hfaults, hresult⟩

end KeyedModel
