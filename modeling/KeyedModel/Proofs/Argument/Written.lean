import KeyedModel.Proofs.Argument.Labels
import KeyedModel.Proofs.Grammar.Literals
import KeyedModel.Proofs.Token.TextLiterals

/-!
# Which texts are argument lists

The grammar of accepted argument lists, said without the parser: arguments with a comma between two
of them and perhaps one behind the last, and each argument a string literal, alone or behind a word
and an equality sign. The parser reads far more than that, whole expressions included, but it
accepts no other list, and from these it reads what is written.
-/

namespace KeyedModel

open Token (Tree Place Spacing Leaf)
open Grammar (ArgumentShape Meaning Reply Terminal Sight)
open Grammar.Rule

variable {meaning : Meaning} {closing : Place} {trees : List Tree}

namespace Argument

/-- The tokens are the argument: a string literal, or any word, an equality sign and a string
literal. -/
inductive Written : List Tree → Argument → Prop where
  | positional {text value : String} {place : Place} (h : Token.textValue? text = some value) :
    Written [.literal text place] (.positional ⟨value, place⟩)
  | labeled {label text value : String} {spot sign place : Place} {spacing : Spacing}
    (h : Token.textValue? text = some value) :
    Written [.ident label spot, .punct '=' spacing sign, .literal text place]
      (.labeled label ⟨value, place⟩)

/-- The tokens are the arguments in their order, with a comma behind each of them but the last, and
perhaps one behind the last. -/
inductive ListWritten : List Tree → List Argument → Prop where
  | nil : ListWritten [] []
  | last {trees : List Tree} {argument : Argument} (h : Written trees argument) :
    ListWritten trees [argument]
  | cons {front rest : List Tree} {argument : Argument} {arguments : List Argument}
    {spacing : Spacing} {sign : Place} (h : Written front argument)
    (hrest : ListWritten rest arguments) :
    ListWritten (front ++ .punct ',' spacing sign :: rest) (argument :: arguments)

end Argument

/-! ### One argument -/

namespace Grammar

/-- A path that prints one word has taken that word. -/
theorem argumentPath_eq_ok {reply : Reply Unit} {label : String} {place : Place}
    (h : argumentPath.run meaning closing trees = .ok reply)
    (hword : reply.printed = [.ident label place]) :
    trees = .ident label place :: reply.rest := by
  obtain ⟨a, b, ha, hb, rfl⟩ := run_bind_eq_ok.mp h
  rw [run_next_bind] at ha
  split at ha
  · obtain ⟨c, d, hc, hd, rfl⟩ := run_bind_eq_ok.mp ha
    obtain ⟨taken, rest, hmatch, rfl⟩ := run_anyWord_eq_ok.mp hc
    obtain ⟨w, spot, rfl, rfl⟩ := Terminal.match?_anyWord.mp hmatch
    rw [acceptOp, run_accept] at hd
    split at hd
    · rename_i sign after hsign
      cases hd
      have hne := matchOp_ne_nil hsign
      simp [Reply.after, hne] at hword
    · cases hd
      cases hb
      obtain ⟨rfl, rfl⟩ : w = label ∧ spot = place := by simpa [Reply.after] using hword
      rfl
  · cases ha

/-- A literal token is taken from the front. -/
theorem Terminal.match?_literal {text : String} {place : Place} {rest : List Tree}
    (h : Terminal.literal.match? trees = some ([.literal text place], rest)) :
    trees = .literal text place :: rest := by
  simp only [match?, matchLiteral] at h
  split at h
  · simpa using h
  · split at h <;> simp at h
  · split at h <;> simp at h
  · cases h

end Grammar

/-- Only a string literal is read as one. -/
theorem TextLiteral.ofTrees_eq_ok {literal : TextLiteral} (h : ofTrees trees = .ok literal) :
    ∃ text, trees = [.literal text literal.place] ∧ Token.literalKind text = .text ∧
      literal.value = (Token.textValue? text).getD "" := by
  unfold ofTrees at h
  split at h
  · rename_i text place hkind
    cases h
    exact ⟨text, rfl, hkind, rfl⟩
  · cases h

namespace Argument

/-- The value of a string literal at the front of a lexed text. -/
theorem textValue?_of_lexed {text : String} {place : Place} {literal : TextLiteral}
    (hlexed : ∀ t ∈ trees, t.All Leaf.Denotes) (hmem : .literal text place ∈ trees)
    (hkind : Token.literalKind text = .text)
    (hvalue : literal.value = (Token.textValue? text).getD "") :
    Token.textValue? text = some literal.value := by
  obtain ⟨value, hdenoted⟩ := hlexed _ hmem text rfl hkind
  rw [hvalue, hdenoted, Option.getD_some]

/-- A literal that is an argument by itself is a string. -/
theorem ofShape_literal_eq_ok {a : Argument} (h : ofShape (.literal trees) = .ok a) :
    ∃ literal, TextLiteral.ofTrees trees = .ok literal ∧ a = .positional literal := by
  cases hl : TextLiteral.ofTrees trees with
  | error e => simp [ofShape, hl, Except.map] at h
  | ok literal => exact ⟨literal, rfl, by simpa [ofShape, hl, Except.map] using h.symm⟩

/-- A value behind a path is a string behind one word. -/
theorem ofShape_assigned_eq_ok {words value : List Tree} {isLiteral : Bool} {a : Argument}
    (h : ofShape (.assigned words isLiteral value) = .ok a) :
    ∃ label spot literal, words = [.ident label spot] ∧ isLiteral = true ∧
      TextLiteral.ofTrees value = .ok literal ∧ a = .labeled label literal := by
  unfold ofShape at h
  split at h
  · rename_i hshape
    cases hshape
  · rename_i hshape
    cases hshape
  · rename_i hshape
    cases hshape
  · rename_i label spot trees hshape
    cases hshape
    cases hl : TextLiteral.ofTrees value with
    | error e => simp [hl, Except.map] at h
    | ok literal => exact ⟨label, spot, literal, rfl, rfl, rfl, by simpa [hl, Except.map] using h.symm⟩
  · cases h
  · cases h

/-- What is read as an argument is written as one. -/
theorem written_of_run {depth : Nat} {reply : Reply ArgumentShape} {a : Argument}
    (hlexed : ∀ t ∈ trees, t.All Leaf.Denotes)
    (h : argument.run (Grammar.meaningOf Grammar.rules depth) closing trees = .ok reply)
    (hshape : ofShape reply.value = .ok a) :
    ∃ front, Written front a ∧ trees = front ++ reply.rest := by
  obtain ⟨b, c, hb, hc, rfl⟩ := run_bind_eq_ok.mp h
  obtain ⟨follows, rfl⟩ : ∃ follows, b = ⟨follows, [], trees, none⟩ := by
    rw [literalFollows, run_nextAny_bind] at hb
    split at hb <;> cases hb <;> exact ⟨_, rfl⟩
  rw [Grammar.Reply.after_nil] at *
  dsimp only at hc
  split at hc
  · obtain ⟨d, e, hd, he, rfl⟩ := run_bind_eq_ok.mp hc
    obtain ⟨l, hl, rfl⟩ := run_held_eq_ok.mp hd
    cases he
    have hmatch := run_literal_match hl
    obtain ⟨literal, hliteral, rfl⟩ := ofShape_literal_eq_ok hshape
    obtain ⟨text, htrees, hkind, hvalue⟩ := TextLiteral.ofTrees_eq_ok hliteral
    simp only [Reply.after] at htrees ⊢
    rw [htrees] at hmatch
    obtain rfl := Terminal.match?_literal hmatch
    refine ⟨[_], .positional ?_, rfl⟩
    exact textValue?_of_lexed hlexed List.mem_cons_self hkind hvalue
  rw [run_next_bind] at hc
  split at hc
  · obtain ⟨d, e, hd, he, rfl⟩ := run_bind_eq_ok.mp hc
    obtain ⟨path, hpath, rfl⟩ := run_held_eq_ok.mp hd
    rw [run_nextAny_bind] at he
    split at he
    · obtain ⟨f, g, -, hg, rfl⟩ := run_bind_eq_ok.mp he
      cases hg
      cases hshape
    obtain ⟨f, g, hf, hg, rfl⟩ := run_bind_eq_ok.mp he
    rw [acceptOp, run_accept] at hf
    split at hf
    · rename_i taken rest hsign
      cases hf
      obtain ⟨k, m, hk, hm, rfl⟩ := run_bind_eq_ok.mp hg
      obtain ⟨v, hv, rfl⟩ := run_held_eq_ok.mp hk
      cases hm
      obtain ⟨label, spot, literal, hwords, hkind, hliteral, rfl⟩ := ofShape_assigned_eq_ok hshape
      obtain rfl := Grammar.argumentPath_eq_ok hpath hwords
      obtain ⟨spacing, sign, hrest, -⟩ := Grammar.matchOp_singleton.mp hsign
      have hmatch := attributeValue_literal hv (by simpa using hkind)
      obtain ⟨text, htrees, hkind, hvalue⟩ := TextLiteral.ofTrees_eq_ok hliteral
      dsimp only at hrest hmatch htrees
      rw [htrees] at hmatch
      rw [hrest, Terminal.match?_literal hmatch] at hlexed ⊢
      refine ⟨[_, _, _], .labeled ?_, rfl⟩
      exact textValue?_of_lexed hlexed (.tail _ (.tail _ (.head _))) hkind hvalue
    · cases hf
      cases hg
      cases hshape
  · cases hc

/-- A word in front of an equality sign is no literal, not even one of the truth values. -/
theorem literalFollows_of_label {label : String} {spot sign : Place} {spacing : Spacing} :
    literalFollows.run meaning closing (.ident label spot :: .punct '=' spacing sign :: trees) =
      .ok ⟨false, [], .ident label spot :: .punct '=' spacing sign :: trees, none⟩ := by
  rw [literalFollows, run_nextAny_bind]
  split
  · rfl
  · rename_i hword
    have hliteral : Sight.literal.sees (.ident label spot :: .punct '=' spacing sign :: trees) =
        false := by
      by_cases htrue : label = "true" <;> by_cases hfalse : label = "false" <;>
        simp_all [Sight.sees, Terminal.match?, Grammar.matchLiteral]
    exact congrArg (fun b => Except.ok (Reply.mk b [] _ none)) hliteral

/-- A word in front of an equality sign is a path. -/
theorem argumentPath_of_label {label : String} {spot sign : Place} {spacing : Spacing} :
    argumentPath.run meaning closing (.ident label spot :: .punct '=' spacing sign :: trees) =
      .ok ⟨(), [.ident label spot], .punct '=' spacing sign :: trees, none⟩ := by
  cases spacing <;> rfl

/-- What is written as an argument, up to a comma or the end, is read as one. -/
theorem run_of_written {depth : Nat} {front rest : List Tree} {a : Argument}
    (hdepth : 3 ≤ depth) (h : Written front a) (hend : EndsArgument rest) :
    ∃ shape printed, argument.run (Grammar.meaningOf Grammar.rules depth) closing (front ++ rest) =
      .ok ⟨shape, printed, rest, none⟩ ∧ ofShape shape = .ok a := by
  cases h with
  | positional hvalue =>
    rename_i text value place
    have hkind := Token.literalKind_of_textValue? hvalue
    refine ⟨.literal [.literal text place], [], rfl, ?_⟩
    simp [ofShape, TextLiteral.ofTrees, kindOf, hkind, hvalue, Except.map]
  | labeled hvalue =>
    rename_i label text value spot sign place spacing
    have hkind := Token.literalKind_of_textValue? hvalue
    refine ⟨.assigned [.ident label spot] true [.literal text place], [.punct '=' .alone sign],
      ?_, ?_⟩
    · have hpath : (held argumentPath).run (Grammar.meaningOf Grammar.rules depth) closing
          (.ident label spot :: .punct '=' spacing sign :: .literal text place :: rest) =
            .ok ⟨((), [.ident label spot]), [], .punct '=' spacing sign :: .literal text place :: rest,
              none⟩ :=
        run_held_eq_ok.mpr ⟨_, argumentPath_of_label, rfl⟩
      have hliteral : (held attributeValue).run (Grammar.meaningOf Grammar.rules depth) closing
          (.literal text place :: rest) =
            .ok ⟨(.literal, [.literal text place]), [], rest, none⟩ :=
        run_held_eq_ok.mpr ⟨_, attributeValue_of_literal hdepth hend, rfl⟩
      refine (run_bind_of_silent literalFollows_of_label _).trans ?_
      refine (run_bind_of_silent hpath _).trans ?_
      refine (run_nextAny_bind _ _).trans ?_
      split
      · rename_i hgroup
        exact absurd hgroup Bool.false_ne_true
      · refine run_bind_eq_ok.mpr ⟨⟨true, [.punct '=' .alone sign], .literal text place :: rest, none⟩,
          ⟨.assigned [.ident label spot] true [.literal text place], [], rest, none⟩, rfl, ?_, rfl⟩
        exact run_bind_of_silent hliteral _
    · simp [ofShape, TextLiteral.ofTrees, kindOf, hkind, hvalue, Except.map]

/-! ### All arguments -/

/-- What is read as a list of arguments is written as one. -/
theorem listWritten_of_run {depth : Nat} {reply : Reply (List (Listed ArgumentShape))}
    {arguments : List Argument} (hlexed : ∀ t ∈ trees, t.All Leaf.Denotes)
    (h : (listUntil .nothing argument).run (Grammar.meaningOf Grammar.rules depth) closing trees =
      .ok reply)
    (hshapes : reply.value.map (fun l => ofShape l.element) = arguments.map .ok) :
    ListWritten trees arguments := by
  -- What was found so far stands in front of the rest, whatever list that is.
  let keeps (found : List (Listed ArgumentShape)) (rest : List Tree) : Prop :=
    rest <:+ trees ∧ ∀ arguments more, found.map (fun l => ofShape l.element) = arguments.map .ok →
      ListWritten rest more → ListWritten trees (arguments ++ more)
  let gives (found : List (Listed ArgumentShape)) (rest : List Tree) : Prop :=
    ∀ arguments, found.map (fun l => ofShape l.element) = arguments.map .ok →
      ListWritten trees arguments
  have hgives : gives reply.value reply.rest := by
    refine iterate_induct keeps gives ?_ ⟨List.suffix_rfl, ?_⟩ h
    · rintro found rest a ⟨hsuffix, hfound⟩ ha
      rw [run_next_bind] at ha
      split at ha
      · rename_i hend
        obtain rfl : rest = [] := List.isEmpty_iff.mp hend
        cases ha
        intro arguments hshapes
        simpa using hfound arguments [] hshapes .nil
      obtain ⟨b, c, hb, hc, rfl⟩ := run_bind_eq_ok.mp ha
      have hlexed : ∀ t ∈ rest, t.All Leaf.Denotes := fun t ht => hlexed t (hsuffix.subset ht)
      -- The element is the last argument found.
      have hlast (arguments : List Argument) (comma : List Tree)
          (hshapes : (found ++ [Listed.mk b.value comma]).map (fun l => ofShape l.element) =
            arguments.map .ok) :
          ∃ before a front, arguments = before ++ [a] ∧ Written front a ∧ rest = front ++ b.rest ∧
            ∀ more, ListWritten rest more → ListWritten trees (before ++ more) := by
        rw [List.map_append] at hshapes
        obtain ⟨before, last, rfl, hbefore, hlast⟩ := List.map_eq_append_iff.mp hshapes.symm
        obtain ⟨a, rfl, ha⟩ : ∃ a, last = [a] ∧ Except.ok a = ofShape b.value := by
          simpa [List.map_eq_singleton_iff] using hlast
        obtain ⟨front, hwritten, hrest⟩ := written_of_run hlexed hb ha.symm
        exact ⟨before, a, front, rfl, hwritten, hrest, fun more => hfound before more hbefore.symm⟩
      rw [run_next_bind] at hc
      split at hc
      · rename_i hend
        have hnil : b.rest = [] := List.isEmpty_iff.mp hend
        cases hc
        intro arguments hshapes
        obtain ⟨before, a, front, rfl, hwritten, hrest, hmore⟩ := hlast arguments _ hshapes
        rw [hnil, List.append_nil] at hrest
        exact hmore [a] (hrest ▸ .last hwritten)
      · obtain ⟨d, e, hd, he, rfl⟩ := run_bind_eq_ok.mp hc
        obtain ⟨f, hf, rfl⟩ := run_held_eq_ok.mp hd
        cases he
        obtain ⟨taken, after, g, hmatch, hg, rfl⟩ := run_take_eq_ok.mp hf
        obtain ⟨spacing, sign, hcomma, -⟩ := Grammar.matchOp_singleton.mp hmatch
        cases hg
        refine ⟨?_, ?_⟩
        · have hafter : after <:+ b.rest := hcomma ▸ List.suffix_cons _ _
          exact hafter.trans ((run_suffix (Grammar.meaningOf_goesForward _ _) hb).trans hsuffix)
        · intro arguments more hshapes hmore
          obtain ⟨before, a, front, rfl, hwritten, hrest, hbefore⟩ := hlast arguments _ hshapes
          rw [hcomma] at hrest
          have hlist := hbefore (a :: more) (hrest ▸ .cons hwritten hmore)
          rwa [List.append_cons] at hlist
    · intro arguments more hshapes hmore
      obtain rfl : arguments = [] := by simpa using hshapes.symm
      exact hmore
  exact hgives arguments hshapes

/-- A written argument is some tokens. -/
theorem Written.ne_nil {front : List Tree} {a : Argument} (h : Written front a) : front ≠ [] := by
  cases h <;> simp

/-- One round of reading a list: an element and what comes behind it. -/
def listRound (found : List (Listed ArgumentShape)) :
    Grammar.Rule (List (Listed ArgumentShape) ⊕ List (Listed ArgumentShape)) := do
  if ← next .nothing then return .inr found
  let value ← argument
  if ← next .nothing then return .inr (found ++ [⟨value, []⟩])
  let (_, comma) ← held (op ",")
  return .inl (found ++ [⟨value, comma⟩])

/-- The round of the last argument. -/
theorem listRound_last {found : List (Listed ArgumentShape)} {shape : ArgumentShape}
    {printed : List Tree} {stray : Option Grammar.SyntaxError} (hne : trees ≠ [])
    (h : argument.run meaning closing trees = .ok ⟨shape, printed, [], stray⟩) :
    (listRound found).run meaning closing trees =
      .ok ⟨.inr (found ++ [⟨shape, []⟩]), printed, [], stray⟩ := by
  have hstop : Sight.nothing.sees trees = false := by simpa [Sight.sees] using hne
  rw [listRound, run_next_bind, hstop]
  refine run_bind_eq_ok.mpr ⟨_, ⟨.inr (found ++ [⟨shape, []⟩]), [], [], none⟩, h, rfl, ?_⟩
  simp [Reply.after]

/-- The round of an argument with a comma behind it. -/
theorem listRound_comma {found : List (Listed ArgumentShape)} {shape : ArgumentShape}
    {printed rest : List Tree} {stray : Option Grammar.SyntaxError} {spacing : Spacing} {sign : Place}
    (hne : trees ≠ []) (h : argument.run meaning closing trees =
      .ok ⟨shape, printed, .punct ',' spacing sign :: rest, stray⟩) :
    (listRound found).run meaning closing trees =
      .ok ⟨.inl (found ++ [⟨shape, [.punct ',' .alone sign]⟩]), printed, rest, stray⟩ := by
  have hstop : Sight.nothing.sees trees = false := by simpa [Sight.sees] using hne
  rw [listRound, run_next_bind, hstop]
  refine run_bind_eq_ok.mpr ⟨_, ⟨.inl (found ++ [⟨shape, [.punct ',' .alone sign]⟩]), [], rest, none⟩,
    h, rfl, ?_⟩
  simp [Reply.after]

/-- What is written as a list of arguments is read as one. -/
theorem run_of_listWritten {depth limit : Nat} {found : List (Listed ArgumentShape)}
    {arguments : List Argument} (hdepth : 3 ≤ depth) (hlimit : trees.length < limit)
    (h : ListWritten trees arguments) :
    ∃ added printed,
      (iterateUpTo limit listRound found).run (Grammar.meaningOf Grammar.rules depth) closing trees =
        .ok ⟨found ++ added, printed, [], none⟩ ∧
      added.map (fun l => ofShape l.element) = arguments.map .ok := by
  obtain ⟨limit, rfl⟩ : ∃ n, limit = n + 1 := ⟨limit - 1, by omega⟩
  induction h generalizing limit found with
  | nil => exact ⟨[], [], by simp; rfl, rfl⟩
  | last hwritten =>
    obtain ⟨shape, printed, hrun, hshape⟩ := run_of_written hdepth hwritten (.inl rfl)
    rw [List.append_nil] at hrun
    refine ⟨[⟨shape, []⟩], printed, ?_, by simp [hshape]⟩
    refine run_bind_eq_ok.mpr ⟨_, ⟨found ++ [⟨shape, []⟩], [], [], none⟩,
      listRound_last hwritten.ne_nil hrun, rfl, by simp [Reply.after]⟩
  | @cons front rest argument arguments spacing sign hwritten hrest ih =>
    obtain ⟨shape, printed, hrun, hshape⟩ :
        ∃ shape printed, Grammar.Rule.argument.run (Grammar.meaningOf Grammar.rules depth) closing
          (front ++ .punct ',' spacing sign :: rest) =
            .ok ⟨shape, printed, .punct ',' spacing sign :: rest, none⟩ ∧ ofShape shape = .ok argument :=
      run_of_written hdepth hwritten (.inr ⟨spacing, sign, rest, rfl⟩)
    rw [List.length_append, List.length_cons] at hlimit
    obtain ⟨limit, rfl⟩ : ∃ n, limit = n + 1 := ⟨limit - 1, by omega⟩
    obtain ⟨added, more, hmore, hshapes⟩ :=
      @ih (found ++ [⟨shape, [.punct ',' .alone sign]⟩]) limit (by omega)
    refine ⟨⟨shape, [.punct ',' .alone sign]⟩ :: added, printed ++ more, ?_, by simp [hshape, hshapes]⟩
    have hne : front ++ .punct ',' spacing sign :: rest ≠ [] := by simp
    refine run_bind_eq_ok.mpr ⟨_, _, listRound_comma hne hrun, hmore, ?_⟩
    simp [Reply.after]

end Argument

/-- A list follows its grammar when it is read up to its end, and so is every group in it. -/
theorem Grammar.readArguments_eq_ok {shapes : List ArgumentShape} :
    readArguments trees = .ok shapes ↔
      ∃ found printed, (listUntil .nothing argument).run (meaningFor trees) none trees =
          .ok ⟨found, printed, [], none⟩ ∧ shapes = found.map (·.element) := by
  unfold readArguments
  constructor
  · intro h
    cases hread : readAll arguments trees with
    | error e => simp [hread, Except.map] at h
    | ok r =>
      obtain ⟨values, printed⟩ := r
      obtain rfl : values = shapes := by simpa [hread, Except.map] using h
      obtain ⟨a, b, ha, hb, hreply⟩ := run_bind_eq_ok.mp (readAll_eq_ok.mp hread)
      cases hb
      obtain ⟨found, front, rest, stray⟩ := a
      obtain ⟨rfl, rfl, rfl, hstray⟩ := Reply.mk.inj hreply
      obtain rfl : stray = none := by simpa using hstray.symm
      exact ⟨found, front, ha, rfl⟩
  · rintro ⟨found, printed, hrun, rfl⟩
    have hread : readAll arguments trees = .ok (found.map (·.element), printed) :=
      readAll_eq_ok.mpr (run_bind_eq_ok.mpr ⟨_, _, hrun, rfl, by simp [Reply.after]⟩)
    rw [hread, Except.map]

/-- The list is accepted when every element that is read has the shape of its argument. -/
theorem Argument.ofTrees_eq_ok_iff_run {arguments : List Argument} :
    ofTrees trees = .ok arguments ↔
      ∃ found printed, (listUntil .nothing argument).run (Grammar.meaningFor trees) none trees =
          .ok ⟨found, printed, [], none⟩ ∧
        found.map (fun l => ofShape l.element) = arguments.map .ok := by
  constructor
  · intro h
    unfold ofTrees at h
    cases hread : Grammar.readArguments trees with
    | error e => simp [hread] at h
    | ok shapes =>
      cases hgather : gather (shapes.map ofShape) with
      | error errors => simp [hread, hgather] at h
      | ok accepted =>
        obtain rfl : accepted = arguments := by simpa [hread, hgather] using h
        obtain ⟨found, printed, hrun, rfl⟩ := Grammar.readArguments_eq_ok.mp hread
        rw [gather_eq_ok, List.map_map] at hgather
        exact ⟨found, printed, hrun, hgather⟩
  · rintro ⟨found, printed, hrun, hshapes⟩
    have hread := Grammar.readArguments_eq_ok.mpr ⟨found, printed, hrun, rfl⟩
    have hgather : gather ((found.map (·.element)).map ofShape) = .ok arguments := by
      rw [gather_eq_ok, List.map_map]
      exact hshapes
    simp only [ofTrees, hread, hgather]

/-- The argument list is accepted exactly when the tokens are written as its arguments: string
literals, alone or behind a word and an equality sign, with a comma between two of them and at most
one behind the last. -/
theorem Argument.ofTrees_eq_ok_iff {source text : String} {trees : List Tree}
    {arguments : List Argument} (hlex : Token.lex source text = some trees) :
    ofTrees trees = .ok arguments ↔ ListWritten trees arguments := by
  rw [ofTrees_eq_ok_iff_run]
  constructor
  · rintro ⟨found, printed, hrun, hshapes⟩
    exact listWritten_of_run (Token.holdsOfLexed_denotes.lex hlex) hrun hshapes
  · intro h
    have hdepth : 3 ≤ Grammar.depthFor trees := by
      unfold Grammar.depthFor
      omega
    obtain ⟨found, printed, hrun, hshapes⟩ :=
      run_of_listWritten hdepth (Nat.lt_succ_self trees.length) h
    exact ⟨found, printed, hrun, hshapes⟩

/-- A keyword is a label like any other word, and a comma may end the list. -/
theorem Argument.listWritten_keyword_label :
    ∃ trees arguments, Token.lex "attr" "\"a\", type = r#\"b\"#," = some trees ∧
      arguments.map (·.literal.value) = ["a", "b"] ∧ ListWritten trees arguments := by
  let values (trees : List Tree) : Option (List String) :=
    (ofTrees trees).toOption.map fun arguments => arguments.map (·.literal.value)
  have hvalues : (Token.lex "attr" "\"a\", type = r#\"b\"#,").bind values = some ["a", "b"] := by
    decide +kernel
  obtain ⟨trees, hlex, hvalues⟩ := Option.bind_eq_some_iff.mp hvalues
  cases hread : ofTrees trees with
  | error e => simp [values, hread, Except.toOption] at hvalues
  | ok arguments =>
    have hvalues : arguments.map (·.literal.value) = ["a", "b"] := by
      simpa [values, hread, Except.toOption] using hvalues
    exact ⟨trees, arguments, hlex, hvalues, (ofTrees_eq_ok_iff hlex).mp hread⟩

end KeyedModel
