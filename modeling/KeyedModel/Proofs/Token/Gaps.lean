import KeyedModel.Proofs.Token.Phrases

/-!
# Gaps between tokens

What may stand around a token without leaving a trace is a gap: blanks and comments that are no
documentation. This file says what a gap is without the lexer, and proves that the lexer passes over
gaps and over nothing else. So a text that has a single word as its tokens consists of that word and
of gaps around it.
-/

namespace KeyedModel.Token

open Text (isBlank isIdentContinue isIdentifier)

variable {c : Char} {chars mid rest tail : List Char} {name : String}

/-! ### What a gap is -/

/-- The characters behind two slashes make documentation: another slash that is the last one, or an
exclamation mark. -/
def DocumentsLine (chars : List Char) : Prop :=
  (chars.head? = some '/' ∧ chars.tail.head? ≠ some '/') ∨ chars.head? = some '!'

/-- The characters behind the opening of a block comment make documentation: another star that is
the last one and does not close the comment, or an exclamation mark. -/
def DocumentsBlock (chars : List Char) : Prop :=
  (chars.head? = some '*' ∧ chars.tail.head? ∉ [some '*', some '/']) ∨ chars.head? = some '!'

/-- So many open block comments are closed by the characters in front of `rest`; those that are
opened on the way are closed as well. -/
inductive Closes : Nat → List Char → List Char → Prop where
  | opens {depth : Nat} {chars rest : List Char} (h : Closes (depth + 1) chars rest) :
    Closes depth ('/' :: '*' :: chars) rest
  | last {rest : List Char} : Closes 1 ('*' :: '/' :: rest) rest
  | inner {depth : Nat} {chars rest : List Char} (h : Closes (depth + 1) chars rest) :
    Closes (depth + 2) ('*' :: '/' :: chars) rest
  | other {depth : Nat} {c : Char} {chars rest : List Char}
    (hopen : ¬ ['/', '*'] <+: c :: chars) (hclose : ¬ ['*', '/'] <+: c :: chars)
    (h : Closes depth chars rest) : Closes depth (c :: chars) rest

/-- One gap stands in front of `rest`: a blank, a line comment up to the end of its line, or a block
comment. -/
inductive Gap : List Char → List Char → Prop where
  | blank {c : Char} {rest : List Char} (h : isBlank c = true) : Gap (c :: rest) rest
  | line {body rest : List Char} (hdoc : ¬ DocumentsLine (body ++ rest)) (hbody : '\n' ∉ body)
    (hend : ∀ c ∈ rest.head?, c = '\n') : Gap ('/' :: '/' :: (body ++ rest)) rest
  | block {chars rest : List Char} (hdoc : ¬ DocumentsBlock chars) (h : Closes 1 chars rest) :
    Gap ('/' :: '*' :: chars) rest

/-- Any number of gaps stands in front of `rest`. -/
inductive Gaps : List Char → List Char → Prop where
  | none {rest : List Char} : Gaps rest rest
  | cons {chars mid rest : List Char} (h : Gap chars mid) (hmore : Gaps mid rest) : Gaps chars rest

/-! ### Reading a gap -/

/-- The end of a line is where its first line feed is. -/
theorem splitLine_snd (chars : List Char) :
    (splitLine chars).2 = chars.dropWhile (· != '\n') := by
  fun_induction splitLine chars with
  | case1 => rfl
  | case2 rest => rfl
  | case3 rest => rfl
  | case4 c rest hfeed hreturn ih =>
    rw [List.dropWhile_cons_of_pos (by simpa using hfeed)]
    exact ih

/-- In front of the end of a line there is no line feed, and at it there is one unless the text ends
there. -/
theorem splitLine_eq (chars : List Char) :
    ∃ body, chars = body ++ (splitLine chars).2 ∧ '\n' ∉ body ∧
      ∀ c ∈ (splitLine chars).2.head?, c = '\n' := by
  rw [splitLine_snd]
  refine ⟨_, List.takeWhile_append_dropWhile.symm, fun hmem => ?_, fun c hc => ?_⟩
  · simpa using List.mem_takeWhile_imp hmem
  · simpa using stays_of_mem_head?_dropWhile c hc

/-- A line comment is read up to the end of its line. -/
theorem splitLine_append {body : List Char} (hbody : '\n' ∉ body)
    (hend : ∀ c ∈ rest.head?, c = '\n') : (splitLine (body ++ rest)).2 = rest := by
  rw [splitLine_snd]
  refine dropWhile_append_of_stays (fun c hc => ?_) fun c hc => by simp [hend c hc]
  rw [bne_iff_ne]
  rintro rfl
  exact hbody hc

/-- Block comments are read up to where they are closed. -/
theorem readBlockComment_eq_some {depth : Nat} :
    readBlockComment depth chars = some rest ↔ Closes depth chars rest := by
  constructor
  · intro h
    fun_induction readBlockComment depth chars with
    | case1 depth more ih => exact .opens (ih h)
    | case2 more => cases h
    | case3 more =>
      cases h
      exact .last
    | case4 more depth hdepth ih =>
      obtain ⟨outer, rfl⟩ := Nat.exists_eq_succ_of_ne_zero hdepth
      exact .inner (ih h)
    | case5 depth c more hopen hclose ih =>
      refine .other ?_ ?_ (ih h)
      · rintro ⟨others, hothers⟩
        obtain ⟨rfl, rfl⟩ := List.cons.inj hothers
        exact hopen others rfl rfl
      · rintro ⟨others, hothers⟩
        obtain ⟨rfl, rfl⟩ := List.cons.inj hothers
        exact hclose others rfl rfl
    | case6 => cases h
  · intro h
    induction h with
    | opens h ih => exact ih
    | last => rfl
    | inner h ih => exact ih
    | other hopen hclose h ih =>
      rw [readBlockComment.eq_def]
      split
      · rename_i heq
        rw [heq] at hopen
        exact absurd ⟨_, rfl⟩ hopen
      · rename_i heq
        rw [heq] at hclose
        exact absurd ⟨_, rfl⟩ hclose
      · rename_i heq
        obtain ⟨-, rfl⟩ := List.cons.inj heq
        exact ih
      · rename_i heq
        cases heq

/-- A documentation comment is no blank. -/
theorem docElement_ne_blank {inner : Bool} {comment : List Char} :
    docElement inner comment mid ≠ some (.blank, rest) := by
  unfold docElement
  split <;> simp

theorem readLineComment_eq_blank :
    readLineComment ('/' :: '/' :: chars) = some (.blank, rest) ↔
      ¬ DocumentsLine chars ∧ (splitLine chars).2 = rest := by
  have hline : (splitLine ('/' :: '/' :: chars)).2 = (splitLine chars).2 := rfl
  unfold readLineComment
  dsimp only
  rw [hline]
  split
  · rename_i heq
    simp only [List.cons.injEq, true_and] at heq
    simp [DocumentsLine, heq]
  · rename_i more hslash heq
    obtain rfl : chars = '/' :: more := by simpa using heq
    have hlast : more.head? ≠ some '/' := fun hhead => by
      obtain ⟨others, rfl⟩ := List.head?_eq_some_iff.mp hhead
      exact hslash _ rfl
    refine iff_of_false docElement_ne_blank fun h => h.1 (.inl ⟨rfl, hlast⟩)
  · rename_i more heq
    obtain rfl : chars = '!' :: more := by simpa using heq
    exact iff_of_false docElement_ne_blank fun h => h.1 (.inr rfl)
  · rename_i hslash hmark
    have hplain : ¬ DocumentsLine chars := by
      rintro (⟨hhead, -⟩ | hhead)
      · obtain ⟨more, rfl⟩ := List.head?_eq_some_iff.mp hhead
        exact hslash more rfl
      · obtain ⟨more, rfl⟩ := List.head?_eq_some_iff.mp hhead
        exact hmark more rfl
    simp [hplain]

/-- A comment that is passed over is one that is closed. -/
theorem readBlock_eq_blank {skip : Nat} :
    ((readBlock skip ('/' :: '*' :: chars)).map fun r => (Element.blank, r.2)) =
      some (.blank, rest) ↔ Closes 1 chars rest := by
  have hread : readBlockComment 0 ('/' :: '*' :: chars) = readBlockComment 1 chars := rfl
  rw [← readBlockComment_eq_some, readBlock, hread]
  cases readBlockComment 1 chars <;> simp

theorem readBlockElement_eq_blank :
    readBlockElement ('/' :: '*' :: chars) = some (.blank, rest) ↔
      ¬ DocumentsBlock chars ∧ Closes 1 chars rest := by
  unfold readBlockElement
  split
  · rename_i more heq
    obtain rfl : chars = '*' :: '/' :: more := by simpa using heq
    have hplain : ¬ DocumentsBlock ('*' :: '/' :: more) := by simp [DocumentsBlock]
    have hread : readBlockComment 1 ('*' :: '/' :: more) = some more := rfl
    rw [← readBlockComment_eq_some, hread]
    simp [hplain]
  · rename_i more heq
    obtain rfl : chars = '*' :: '*' :: more := by simpa using heq
    have hplain : ¬ DocumentsBlock ('*' :: '*' :: more) := by simp [DocumentsBlock]
    rw [readBlock_eq_blank, and_iff_right hplain]
  · rename_i more hclose hstar heq
    obtain rfl : chars = '*' :: more := by simpa using heq
    have hdoc : DocumentsBlock ('*' :: more) := by
      refine .inl ⟨rfl, fun hmem => ?_⟩
      simp only [List.mem_cons, List.not_mem_nil, or_false] at hmem
      rcases hmem with hhead | hhead
      · obtain ⟨others, rfl⟩ := List.head?_eq_some_iff.mp hhead
        exact hstar others rfl
      · obtain ⟨others, rfl⟩ := List.head?_eq_some_iff.mp hhead
        exact hclose others rfl
    refine iff_of_false ?_ fun h => h.1 hdoc
    cases readBlock 3 ('/' :: '*' :: '*' :: more) with
    | none => simp
    | some r => exact docElement_ne_blank
  · rename_i more heq
    obtain rfl : chars = '!' :: more := by simpa using heq
    refine iff_of_false ?_ fun h => h.1 (.inr rfl)
    cases readBlock 3 ('/' :: '*' :: '!' :: more) with
    | none => simp
    | some r => exact docElement_ne_blank
  · rename_i hclose hstars hstar hmark
    have hplain : ¬ DocumentsBlock chars := by
      rintro (⟨hhead, -⟩ | hhead)
      · obtain ⟨more, rfl⟩ := List.head?_eq_some_iff.mp hhead
        exact hstar more rfl
      · obtain ⟨more, rfl⟩ := List.head?_eq_some_iff.mp hhead
        exact hmark more rfl
    rw [readBlock_eq_blank, and_iff_right hplain]

/-- What is read as a blank is a gap. -/
theorem gap_of_readElement (h : readElement chars = some (.blank, rest)) : Gap chars rest := by
  unfold readElement at h
  split at h
  · cases h
  · rename_i more
    rw [readLineComment_eq_blank] at h
    obtain ⟨hdoc, rfl⟩ := h
    obtain ⟨body, hmore, hbody, hend⟩ := splitLine_eq more
    rw [hmore] at hdoc
    have hgap := Gap.line hdoc hbody hend
    rwa [← hmore] at hgap
  · rw [readBlockElement_eq_blank] at h
    exact .block h.1 h.2
  · split at h
    · rename_i hblank
      cases h
      exact .blank hblank
    · split at h
      · cases h
      · split at h
        iterate 6 cases h
        obtain ⟨leaf, -, hleaf⟩ := Option.map_eq_some_iff.mp h
        cases hleaf

/-- A gap is read as a blank. -/
theorem readElement_gap (h : Gap chars rest) : readElement chars = some (.blank, rest) := by
  cases h with
  | @blank c rest h =>
    have hslash : c ≠ '/' := by
      rintro rfl
      exact absurd h (by decide)
    rw [readElement.eq_def]
    split
    · rename_i heq
      cases heq
    · rename_i heq
      exact absurd (List.cons.inj heq).1 hslash
    · rename_i heq
      exact absurd (List.cons.inj heq).1 hslash
    · rename_i heq
      obtain ⟨rfl, rfl⟩ := List.cons.inj heq
      rw [if_pos h]
  | line hdoc hbody hend =>
    change readLineComment _ = _
    rw [readLineComment_eq_blank]
    exact ⟨hdoc, splitLine_append hbody hend⟩
  | block hdoc h =>
    change readBlockElement _ = _
    rw [readBlockElement_eq_blank]
    exact ⟨hdoc, h⟩

/-! ### Texts with a single word -/

/-- Behind the end of a comment there is less to read. -/
theorem Closes.length_lt {depth : Nat} (h : Closes depth chars rest) :
    rest.length < chars.length := by
  induction h with
  | last =>
    simp only [List.length_cons]
    omega
  | opens _ ih | inner _ ih | other _ _ _ ih =>
    simp only [List.length_cons]
    omega

theorem Gap.length_lt (h : Gap chars rest) : rest.length < chars.length := by
  cases h with
  | blank => simp
  | line =>
    simp only [List.length_cons, List.length_append]
    omega
  | block _ h =>
    have hcloses := h.length_lt
    simp only [List.length_cons]
    omega

namespace Gaps

/-- Gaps leave no token behind. -/
theorem reads (h : Gaps chars rest) : Reads [] chars rest := by
  induction h with
  | none => exact .nil
  | @cons chars mid rest h _ ih =>
    have hread := readElement_gap h
    cases chars with
    | nil => cases h
    | cons c more => exact (Reads.blank hread h.length_lt).append ih

/-- A word stops in front of a gap and at the end. -/
theorem wordStops (h : Gaps chars []) : WordStops chars := by
  cases h with
  | none => simp [WordStops]
  | cons h _ =>
    cases h with
    | @blank c _ h =>
      refine fun d hd => ?_
      obtain rfl : c = d := by simpa using hd
      refine ⟨isIdentContinue_of_isBlank h, fun hmem => ?_⟩
      have hnone : ∀ d ∈ ['"', '\'', '#'], isBlank d = false := by decide
      rw [hnone c hmem] at h
      cases h
    | line => exact .cons rfl
    | block => exact .cons rfl

end Gaps

/-- The trees in front of everything that is open. -/
def outermost : List OpenGroup → List Tree → List Tree
  | [], done => done
  | top :: stack, _ => outermost stack top.before

/-- What is added while a group is open is not in front of it. -/
theorem outermost_append (stack : List OpenGroup) (added done : List Tree) :
    outermost stack (added ++ done) =
      (if stack.isEmpty then added else []) ++ outermost stack done := by
  cases stack <;> rfl

/-- What stands in front of everything that is open stays there, and what is open becomes a
group. -/
theorem nest_eq_some {stack : List OpenGroup} {done trees : List Tree} {located : List Located}
    (h : nest stack done located = some trees) :
    ∃ more, trees = (outermost stack done).reverse ++ more ∧
      (stack ≠ [] → ∃ d opening inner closed rest,
        more = .group d opening inner closed :: rest) := by
  induction located generalizing stack done with
  | nil =>
    simp only [nest] at h
    split at h
    · rename_i hempty
      obtain rfl := List.isEmpty_iff.mp hempty
      obtain rfl := Option.some.inj h
      exact ⟨[], by simp [outermost], by simp⟩
    · cases h
  | cons l rest ih =>
    have hadded (added : List Tree) (h : nest stack (added ++ done) rest = some trees) :
        ∃ more, trees = (outermost stack done).reverse ++ more ∧
          (stack ≠ [] → ∃ d opening inner closed rest,
            more = .group d opening inner closed :: rest) := by
      obtain ⟨more, htrees, hgroup⟩ := ih h
      rw [outermost_append, List.reverse_append, List.append_assoc] at htrees
      refine ⟨_, htrees, fun hne => ?_⟩
      obtain ⟨d, opening, inner, closed, others, rfl⟩ := hgroup hne
      cases stack with
      | nil => exact absurd rfl hne
      | cons top stack => exact ⟨d, opening, inner, closed, others, rfl⟩
    obtain ⟨element, span⟩ := l
    cases element with
    | blank => exact ih h
    | doc inner comment => exact hadded (docAttribute inner comment (some span)).reverse h
    | leaf leaf => exact hadded [leaf.at (some span)] h
    | opening delimiter =>
      obtain ⟨more, htrees, hgroup⟩ := ih h
      exact ⟨more, htrees, fun _ => hgroup (List.cons_ne_nil _ _)⟩
    | closing delimiter =>
      cases stack with
      | nil => cases h
      | cons top stack =>
        simp only [nest] at h
        split at h
        · obtain ⟨more, htrees, hgroup⟩ := ih h
          cases stack with
          | nil =>
            refine ⟨.group delimiter top.place done.reverse (some span) :: more, ?_,
              fun _ => ⟨_, _, _, _, _, rfl⟩⟩
            rw [htrees]
            simp [outermost]
          | cons outer stack => exact ⟨more, htrees, fun _ => hgroup (List.cons_ne_nil _ _)⟩
        · cases h

/-- Where no group is open, an element is a blank, or a tree is added for it. That tree is a word
only if the element is one. -/
theorem nest_cons_eq_some {element : Element} {span : Span} {located : List Located}
    {done trees : List Tree}
    (h : nest [] done (⟨element, span⟩ :: located) = some (done.reverse ++ trees)) :
    (element = .blank ∧ nest [] done located = some (done.reverse ++ trees)) ∨
      ∃ t more, trees = t :: more ∧ ∀ name place, t = .ident name place →
        element = .leaf (.ident name) ∧
          nest [] (t :: done) located = some ((t :: done).reverse ++ more) := by
  cases element with
  | blank => exact .inl ⟨rfl, h⟩
  | doc inner comment =>
    have hrest : nest [] ((docAttribute inner comment (some span)).reverse ++ done) located =
      some (done.reverse ++ trees) := h
    obtain ⟨more, htrees, -⟩ := nest_eq_some hrest
    obtain rfl : trees = docAttribute inner comment (some span) ++ more := by
      simpa [outermost] using htrees
    refine .inr ?_
    cases inner with
    | false => exact ⟨_, _, rfl, nofun⟩
    | true => exact ⟨_, _, rfl, nofun⟩
  | leaf leaf =>
    have hrest : nest [] (leaf.at (some span) :: done) located =
      some (done.reverse ++ trees) := h
    obtain ⟨more, htrees, -⟩ := nest_eq_some hrest
    obtain rfl : trees = leaf.at (some span) :: more := by
      simpa [outermost] using htrees
    refine .inr ⟨_, _, rfl, fun name place hword => ?_⟩
    cases leaf with
    | ident other =>
      cases hword
      exact ⟨rfl, by rw [hrest]; simp⟩
    | punct c spacing => cases hword
    | literal text => cases hword
  | opening delimiter =>
    have hrest : nest [⟨delimiter, some span, done⟩] [] located = some (done.reverse ++ trees) := h
    obtain ⟨more, htrees, hgroup⟩ := nest_eq_some hrest
    obtain ⟨d, place, inner, closed, others, rfl⟩ := hgroup (List.cons_ne_nil _ _)
    obtain rfl : trees = _ := List.append_cancel_left htrees
    exact .inr ⟨_, _, rfl, nofun⟩
  | closing delimiter => cases h

/-- Elements that add no tree are blanks. -/
theorem gaps_of_nest {source : String} {fuel : Nat} {start : Position} {done : List Tree}
    {located : List Located} (hcut : cutWith source fuel start chars = some located)
    (hnest : nest [] done located = some (done.reverse ++ [])) : Gaps chars [] := by
  fun_induction cutWith source fuel start chars generalizing located with
  | case1 => exact .none
  | case2 => cases hcut
  | case3 _ _ _ hread =>
    rw [hread] at hcut
    cases hcut
  | case4 start chars fuel element rest hread =>
    rename_i ih
    rw [hread] at hcut
    obtain ⟨more, hmore, rfl⟩ := Option.map_eq_some_iff.mp hcut
    rcases nest_cons_eq_some hnest with ⟨rfl, hrest⟩ | ⟨t, more, hmore, -⟩
    · exact .cons (gap_of_readElement hread) (ih hmore hrest)
    · cases hmore

/-- Elements that make up one word are the word and blanks. -/
theorem exists_gaps_of_nest {source : String} {fuel : Nat} {start : Position} {place : Place}
    {located : List Located} (hcut : cutWith source fuel start chars = some located)
    (hnest : nest [] [] located = some [.ident name place]) :
    isIdentifier name = true ∧ ∃ after, Gaps chars (name.toList ++ after) ∧ Gaps after [] := by
  fun_induction cutWith source fuel start chars generalizing located with
  | case1 =>
    cases hcut
    cases hnest
  | case2 => cases hcut
  | case3 _ _ _ hread =>
    rw [hread] at hcut
    cases hcut
  | case4 start chars fuel element rest hread =>
    rename_i ih
    rw [hread] at hcut
    obtain ⟨more, hmore, rfl⟩ := Option.map_eq_some_iff.mp hcut
    rcases nest_cons_eq_some hnest with ⟨rfl, hrest⟩ | ⟨t, others, htrees, hword⟩
    · obtain ⟨hident, after, hgaps, hafter⟩ := ih hmore hrest
      exact ⟨hident, after, .cons (gap_of_readElement hread) hgaps, hafter⟩
    · obtain ⟨rfl, rfl⟩ := List.cons.inj htrees
      obtain ⟨rfl, hrest⟩ := hword name place rfl
      refine ⟨isIdentifier_of_readElement hread, rest, ?_, gaps_of_nest hmore hrest⟩
      rcases readElement_eq_leaf hread with hmark | hleaf
      · cases hmark
      · rw [(stands_of_readLeaf_ident hleaf).1]
        exact .none

/-- The text behind the mark that may stand in front of it. -/
def withoutMark : List Char → List Char
  | [] => []
  | c :: rest => if c == byteOrderMark then rest else c :: rest

/-- A text is cut and nested without its mark. -/
theorem lex_eq (source text : String) :
    ∃ start, lex source text =
      (cut source start (withoutMark text.toList)).bind (nest [] []) := by
  unfold lex
  split
  · rename_i hempty
    exact ⟨⟨1, 0⟩, by simp [hempty, withoutMark, cut, cutWith, nest]⟩
  · rename_i c rest hchars
    rw [hchars, withoutMark]
    split
    · exact ⟨⟨1, 1⟩, rfl⟩
    · exact ⟨⟨1, 0⟩, rfl⟩

/-- A word is a word wherever it stands. -/
theorem eq_word_of_unplacedAll {found : List Tree} (h : unplacedAll found = [.ident name none]) :
    ∃ place, found = [.ident name place] := by
  match found with
  | [] => cases h
  | .ident other place :: rest =>
    obtain ⟨hname, hrest⟩ := List.cons.inj h
    cases hname
    cases rest with
    | nil => exact ⟨place, rfl⟩
    | cons t more => cases hrest
  | .punct .. :: _ | .literal .. :: _ | .group .. :: _ => cases (List.cons.inj h).1

/-- A text has one word as its tokens if it consists of the word, which is an identifier, and of gaps
around it. -/
theorem lex_eq_word {source text : String} :
    (∃ place, lex source text = some [.ident name place]) ↔
      isIdentifier name = true ∧
        ∃ after, Gaps (withoutMark text.toList) (name.toList ++ after) ∧ Gaps after [] := by
  obtain ⟨start, hlex⟩ := lex_eq source text
  rw [hlex]
  constructor
  · rintro ⟨place, h⟩
    obtain ⟨located, hcut, hnest⟩ := Option.bind_eq_some_iff.mp h
    exact exists_gaps_of_nest hcut hnest
  · rintro ⟨hident, after, hfront, hback⟩
    have hword : Reads [.ident name none] (name.toList ++ after) [] :=
      (hback.reads.consWord name hback.wordStops hident)
    obtain ⟨fuel, stop, found, -, hfound, hread⟩ :=
      (hfront.reads.append hword) source _ start [] [] le_rfl
    obtain ⟨place, rfl⟩ := eq_word_of_unplacedAll hfound
    refine ⟨place, ?_⟩
    change readFrom source _ start [] [] _ = _
    rw [hread]
    simp [readFrom, cutWith, nest]

end KeyedModel.Token
