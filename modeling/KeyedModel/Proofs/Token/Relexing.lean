import KeyedModel.Proofs.Token.Lexed

/-!
# Printed trees are read back

The text of trees that can be written down is read as the same trees, up to two things: they have
new places, and a punctuation character that no other follows is not joint any more.
-/

namespace KeyedModel.Token

open Text (isIdentStart isIdentContinue)

variable {c : Char} {source : String} {chars mid tail : List Char} {t : Tree} {a b trees : List Tree}

/-! ### What is read back -/

mutual

/-- The tree without its place. -/
def Tree.unplaced : Tree → Tree
  | .ident name _ => .ident name none
  | .punct c spacing _ => .punct c spacing none
  | .literal text _ => .literal text none
  | .group delimiter _ inner _ => .group delimiter none (unplacedAll inner) none

/-- The trees without their places. -/
def unplacedAll : List Tree → List Tree
  | [] => []
  | t :: rest => t.unplaced :: unplacedAll rest

end

/-- How a joint punctuation character is read back, by what is printed behind it. -/
def settledSpacing (c : Char) (behind : List Char) : Spacing :=
  if c == '\'' || startsPunct behind then .joint else .alone

mutual

/-- The tree as it is read back behind which nothing is printed directly. -/
def Tree.settled : Tree → Tree
  | .ident name _ => .ident name none
  | .punct c _ _ => .punct c .alone none
  | .literal text _ => .literal text none
  | .group delimiter _ inner _ => .group delimiter none (settle inner) none

/-- The trees as they are read back: a joint punctuation character stays joint if one follows it, or
if it is the mark of a lifetime. -/
def settle : List Tree → List Tree
  | [] => []
  | .punct c .joint _ :: rest => .punct c (settledSpacing c (printAll rest)) none :: settle rest
  | t :: rest => t.settled :: settle rest

end

theorem unplacedAll_append : unplacedAll (a ++ b) = unplacedAll a ++ unplacedAll b := by
  induction a with
  | nil => rfl
  | cons t rest ih => simp [unplacedAll, ih]

/-! ### Reading a text in steps -/

/-- Cuts a text and nests what was cut. -/
def readFrom (source : String) (fuel : Nat) (start : Position) (stack : List OpenGroup)
    (done : List Tree) (chars : List Char) : Option (List Tree) :=
  (cutWith source fuel start chars).bind (nest stack done)

/-- In front of `tail` the text is read as the trees, whatever is open and was read before. -/
def Reads (trees : List Tree) (chars tail : List Char) : Prop :=
  ∀ source fuel start stack done, chars.length ≤ fuel →
    ∃ fuel' start' found, tail.length ≤ fuel' ∧ unplacedAll found = trees ∧
      readFrom source fuel start stack done chars =
        readFrom source fuel' start' stack (found.reverse ++ done) tail

theorem length_lt_cons_append (c : Char) (more tail : List Char) :
    tail.length < (c :: (more ++ tail)).length := by
  rw [List.length_cons, List.length_append]
  omega

namespace Reads

theorem nil : Reads [] chars chars :=
  fun _ fuel start _ _ hfuel => ⟨fuel, start, [], hfuel, rfl, rfl⟩

theorem append (ha : Reads a chars mid) (hb : Reads b mid tail) : Reads (a ++ b) chars tail := by
  intro source fuel start stack done hfuel
  obtain ⟨fuel', start', found, hfuel, hfound, hread⟩ := ha source fuel start stack done hfuel
  obtain ⟨fuel'', start'', more, hfuel, hmore, hrest⟩ :=
    hb source fuel' start' stack (found.reverse ++ done) hfuel
  refine ⟨fuel'', start'', found ++ more, hfuel, ?_, ?_⟩
  · rw [unplacedAll_append, hfound, hmore]
  · rw [hread, hrest, List.reverse_append, List.append_assoc]

end Reads

/-- One element of a text is cut off. -/
theorem cutWith_cons {fuel : Nat} {element : Element} (source : String) (start : Position)
    (h : readElement (c :: chars) = some (element, tail)) (hfuel : (c :: chars).length ≤ fuel)
    (hlength : tail.length < (c :: chars).length) :
    ∃ fuel' stop, tail.length ≤ fuel' ∧ cutWith source fuel start (c :: chars) =
      (cutWith source fuel' stop tail).map fun more => ⟨element, ⟨source, start, stop⟩⟩ :: more := by
  cases fuel with
  | zero => cases hfuel
  | succ fuel =>
    refine ⟨fuel, start.after (takenBefore (c :: chars) tail), ?_, ?_⟩
    · simp only [List.length_cons] at hfuel hlength
      omega
    · simp only [cutWith, h]

namespace Reads

/-- A blank leaves nothing behind. -/
theorem blank (h : readElement (c :: chars) = some (.blank, tail))
    (hlength : tail.length < (c :: chars).length) : Reads [] (c :: chars) tail := by
  intro source fuel start stack done hfuel
  obtain ⟨fuel', stop, hfuel, hcut⟩ := cutWith_cons source start h hfuel hlength
  refine ⟨fuel', stop, [], hfuel, rfl, ?_⟩
  rw [readFrom, hcut, Option.bind_map]
  rfl

/-- A token is read as itself. -/
theorem leaf {leaf : Leaf} (h : readElement (c :: chars) = some (.leaf leaf, tail))
    (hlength : tail.length < (c :: chars).length) : Reads [leaf.at none] (c :: chars) tail := by
  intro source fuel start stack done hfuel
  obtain ⟨fuel', stop, hfuel, hcut⟩ := cutWith_cons source start h hfuel hlength
  refine ⟨fuel', stop, [leaf.at (some ⟨source, start, stop⟩)], hfuel, ?_, ?_⟩
  · cases leaf <;> rfl
  · rw [readFrom, hcut, Option.bind_map]
    rfl

/-- What is read between two delimiters is read as a group. -/
theorem group {delimiter : Delimiter} {first : Char} {last : Char}
    (hopen : readElement (first :: chars) = some (.opening delimiter, chars))
    (hclose : readElement (last :: tail) = some (.closing delimiter, tail))
    (h : Reads trees chars (last :: tail)) :
    Reads [.group delimiter none trees none] (first :: chars) tail := by
  intro source fuel start stack done hfuel
  obtain ⟨fuel₁, stop₁, hfuel, hcut⟩ := cutWith_cons source start hopen hfuel (by simp)
  obtain ⟨fuel₂, stop₂, found, hfuel, hfound, hread⟩ :=
    h source fuel₁ stop₁ (⟨delimiter, some ⟨source, start, stop₁⟩, done⟩ :: stack) [] hfuel
  obtain ⟨fuel₃, stop₃, hfuel, hcut'⟩ := cutWith_cons source stop₂ hclose hfuel (by simp)
  refine ⟨fuel₃, stop₃, [.group delimiter (some ⟨source, start, stop₁⟩) found
    (some ⟨source, stop₂, stop₃⟩)], hfuel, ?_, ?_⟩
  · simp [unplacedAll, Tree.unplaced, hfound]
  · have hinner : readFrom source fuel start stack done (first :: chars) =
        readFrom source fuel₁ stop₁ (⟨delimiter, some ⟨source, start, stop₁⟩, done⟩ :: stack) []
          chars := by
      rw [readFrom, hcut, Option.bind_map]
      rfl
    rw [hinner, hread, readFrom, hcut', Option.bind_map]
    simp [readFrom, nest]

end Reads

/-! ### What a tree begins with -/

/-- A character that begins a word or a literal. -/
def OpensName (c : Char) : Prop :=
  isIdentStart c = true ∨ c ∈ ['"', '\'', '('] ∨ c.isDigit = true

/-- What stands for itself and is no punctuation begins with a letter, a digit or a quote. -/
theorem first_of_stands {leaf : Leaf} (hleaf : ∀ c spacing, leaf ≠ .punct c spacing)
    (h : leaf.Stands) : ∃ c more, leaf.spelling = c :: more ∧ OpensName c := by
  have hread : readElement leaf.spelling = some (.leaf leaf, []) := by simpa using h [] trivial
  rcases readElement_eq_leaf hread with rfl | hread
  · exact ⟨'(', _, rfl, .inr (.inl (by decide))⟩
  · cases leaf with
    | punct c spacing => exact absurd rfl (hleaf c spacing)
    | ident name =>
      obtain ⟨-, -, -, hname⟩ := readLeaf_eq_ident.mp hread
      obtain ⟨-, ⟨c, more, hspelling, hstart⟩, -⟩ := readIdent_append hname
      exact ⟨c, more, hspelling, .inl hstart⟩
    | literal text =>
      obtain ⟨hliteral, -⟩ := readLeaf_eq_literal hread
      generalize (Leaf.literal text).spelling = spelling at hliteral
      cases spelling with
      | nil => cases hliteral
      | cons c more =>
        refine ⟨c, more, rfl, ?_⟩
        rcases first_of_readLiteral hliteral with hmem | hdigit
        · have hall : ∀ c ∈ ['"', '\'', 'r', 'b', 'c'],
              isIdentStart c = true ∨ c ∈ ['"', '\'', '('] := by decide
          rcases hall c hmem with hstart | hquote
          · exact .inl hstart
          · exact .inr (.inl hquote)
        · exact .inr (.inr hdigit)

theorem OpensName.ne (h : OpensName c) {d : Char} (hstart : isIdentStart d = false)
    (hquote : d ∉ ['"', '\'', '(']) (hdigit : d.isDigit = false) : c ≠ d := by
  rintro rfl
  rcases h with h | h | h
  · rw [hstart] at h
    cases h
  · exact hquote h
  · rw [hdigit] at h
    cases h

/-- A tree that is printed begins with a character that is neither a byte order mark nor, unless it
is punctuation, part of the mark of a comment. -/
theorem Tree.Spelled.exists_first (h : t.Spelled) :
    ∃ c more, t.print = c :: more ∧ c ≠ byteOrderMark ∧
      (c ∈ ['/', '*'] → ∃ spacing place, t = .punct c spacing place) := by
  have hname {c : Char} (hopens : OpensName c) (t : Tree) : c ≠ byteOrderMark ∧
      (c ∈ ['/', '*'] → ∃ spacing place, t = .punct c spacing place) := by
    refine ⟨hopens.ne (by decide +kernel) (by decide) (by decide), fun hmem => ?_⟩
    have hall : ∀ d ∈ ['/', '*'], isIdentStart d = false ∧ d ∉ ['"', '\'', '('] ∧
        d.isDigit = false := by decide
    obtain ⟨hstart, hquote, hdigit⟩ := hall c hmem
    exact absurd rfl (hopens.ne hstart hquote hdigit)
  cases t with
  | ident name place =>
    obtain ⟨c, more, hspelling, hopens⟩ :=
      first_of_stands (by simp) (show (Leaf.ident name).Stands from h)
    exact ⟨c, more, by simpa [Tree.print, Leaf.spelling] using hspelling, hname hopens _⟩
  | literal text place =>
    obtain ⟨c, more, hspelling, hopens⟩ :=
      first_of_stands (by simp) (show (Leaf.literal text).Stands from h)
    exact ⟨c, more, by simpa [Tree.print, Leaf.spelling] using hspelling, hname hopens _⟩
  | punct c spacing place =>
    have hall : ∀ c ∈ punctuation, c ≠ byteOrderMark := by decide
    exact ⟨c, [], by simp [Tree.print], hall c h.1, fun _ => ⟨spacing, place, rfl⟩⟩
  | group delimiter opening inner closing =>
    have hfirst : ∃ more, (Tree.group delimiter opening inner closing).print =
        delimiter.opening :: more := by
      cases delimiter <;> cases inner <;> simp [Tree.print, Delimiter.opening]
    obtain ⟨more, hmore⟩ := hfirst
    have hall : delimiter.opening ≠ byteOrderMark ∧ delimiter.opening ∉ ['/', '*'] := by
      cases delimiter <;> decide
    exact ⟨delimiter.opening, more, hmore, hall.1, fun hmem => absurd hmem hall.2⟩

/-! ### Punctuation -/

theorem startsPunct_of_breaks (h : Breaks tail) : startsPunct tail = false := by
  cases tail with
  | nil => rfl
  | cons c more =>
    have hall : ∀ c ∈ [' ', ')', ']', '}'], c ∉ punctuation := by decide
    exact startsPunct_eq_false (hall c h)

theorem startsPunct_cons (hmem : c ∈ punctuation)
    (hcomment : c = '/' → ∀ d ∈ chars.head?, d ∉ ['/', '*']) : startsPunct (c :: chars) = true := by
  unfold startsPunct
  split
  · obtain ⟨rfl, rfl⟩ := List.cons.inj ‹_›
    exact absurd (by simp) (hcomment rfl '/' rfl)
  · obtain ⟨rfl, rfl⟩ := List.cons.inj ‹_›
    exact absurd (by simp) (hcomment rfl '*' rfl)
  · obtain ⟨rfl, rfl⟩ := List.cons.inj ‹_›
    simpa using hmem
  · cases ‹_ = []›

/-- What breaks a token off is no part of punctuation. -/
theorem startsPunct_append (h : Breaks tail) : startsPunct (chars ++ tail) = startsPunct chars := by
  match chars with
  | [] => exact startsPunct_of_breaks h
  | [c] =>
    by_cases hmem : c ∈ punctuation
    · rw [startsPunct_cons hmem (by simp)]
      refine startsPunct_cons hmem fun _ d hd => ?_
      cases tail with
      | nil => cases hd
      | cons e more =>
        obtain rfl : e = d := by simpa using hd
        have hall : ∀ e ∈ [' ', ')', ']', '}'], e ∉ ['/', '*'] := by decide
        exact hall e h
    · rw [startsPunct_eq_false hmem]
      exact startsPunct_eq_false hmem
  | c :: d :: more =>
    by_cases hmem : c ∈ punctuation
    · by_cases hcomment : c = '/' ∧ d ∈ ['/', '*']
      · obtain ⟨rfl, hd⟩ := hcomment
        simp only [List.mem_cons, List.not_mem_nil, or_false] at hd
        rcases hd with rfl | rfl <;> rfl
      · have hnot : c = '/' → ∀ e ∈ (d :: more).head?, e ∉ ['/', '*'] := by
          rintro rfl e he hmem
          obtain rfl : d = e := by simpa using he
          exact hcomment ⟨rfl, hmem⟩
        rw [startsPunct_cons hmem hnot]
        exact startsPunct_cons hmem (by simpa using hnot)
    · rw [startsPunct_eq_false hmem]
      exact startsPunct_eq_false hmem

/-- A punctuation character that is no mark of a lifetime is read as itself. -/
theorem readElement_punct (hmem : c ∈ punctuation) (hquote : c ≠ '\'')
    (hcomment : c = '/' → ∀ d ∈ chars.head?, d ∉ ['/', '*']) :
    readElement (c :: chars) =
      some (.leaf (.punct c (if startsPunct chars then .joint else .alone)), chars) := by
  have hleaf : readLeaf (c :: chars) =
      some (.punct c (if startsPunct chars then .joint else .alone), chars) := by
    rw [readLeaf, readLiteral_punct hmem hquote]
    simp [startsPunct_cons hmem hcomment, hquote]
  by_cases hslash : c = '/'
  · subst hslash
    have hread : readElement ('/' :: chars) =
        (readLeaf ('/' :: chars)).map fun r => (.leaf r.1, r.2) := by
      unfold readElement
      split
      · cases ‹_ = []›
      · obtain ⟨-, rfl⟩ := List.cons.inj ‹_›
        exact absurd (by simp) (hcomment rfl '/' rfl)
      · obtain ⟨-, rfl⟩ := List.cons.inj ‹_›
        exact absurd (by simp) (hcomment rfl '*' rfl)
      · obtain ⟨rfl, rfl⟩ := List.cons.inj ‹_›
        rfl
    rw [hread, hleaf]
    rfl
  · have hall : ∀ c ∈ punctuation, c ≠ '/' → Text.isBlank c = false ∧
        c ∉ ['/', '(', ')', '[', ']', '{', '}'] := by decide
    obtain ⟨hblank, hnot⟩ := hall c hmem hslash
    have hopens : OpensLeaf c := ⟨hblank, hnot⟩
    rw [hopens.readElement_cons, hleaf]
    rfl

/-! ### Trees in a row -/

/-- The tree is directly followed by another one. -/
def Tree.Joins (t : Tree) : Prop := ∃ c place, t = .punct c .joint place

/-- What is printed between a tree and the next ones. -/
def gap : Tree → List Tree → List Char
  | _, [] => []
  | .punct _ .joint _, _ => []
  | _, _ => [' ']

theorem printAll_cons : printAll (t :: trees) = t.print ++ (gap t trees ++ printAll trees) := by
  match t, trees with
  | _, [] => exact (List.append_nil _).symm
  | .punct c .joint place, next :: rest => rfl
  | .punct c .alone place, next :: rest => rfl
  | .ident .., next :: rest => rfl
  | .literal .., next :: rest => rfl
  | .group .., next :: rest => rfl

theorem settle_cons (h : ¬t.Joins) : settle (t :: trees) = t.settled :: settle trees := by
  match t with
  | .punct c .joint place => exact absurd ⟨c, place, rfl⟩ h
  | .punct c .alone place => rfl
  | .ident .. => rfl
  | .literal .. => rfl
  | .group .. => rfl

theorem Breaks.space : Breaks (' ' :: tail) := by
  change ' ' ∈ _
  simp

theorem Breaks.closing (delimiter : Delimiter) : Breaks (delimiter.closing :: tail) := by
  change delimiter.closing ∈ _
  cases delimiter <;> decide

theorem Breaks.head (h : Breaks tail) : ∀ d ∈ tail.head?, d ∉ ['/', '*'] := by
  cases tail with
  | nil => simp
  | cons c more =>
    have hall : ∀ c ∈ [' ', ')', ']', '}'], c ∉ ['/', '*'] := by decide
    simpa using hall c h

/-- A tree is broken off unless it is directly followed by another one. -/
theorem breaks_gap (ht : ¬t.Joins) (h : Breaks tail) :
    Breaks (gap t trees ++ (printAll trees ++ tail)) := by
  unfold gap
  split
  · exact h
  · exact absurd ⟨_, _, rfl⟩ ht
  · exact .space

/-- No comment begins at a slash that is printed. -/
theorem head_behind_slash {spacing : Spacing} {place : Place}
    (h : Chained (.punct '/' spacing place :: trees)) (htail : Breaks tail) :
    ∀ d ∈ (gap (.punct '/' spacing place) trees ++ (printAll trees ++ tail)).head?,
      d ∉ ['/', '*'] := by
  cases spacing with
  | alone => exact (breaks_gap (by simp [Tree.Joins]) htail).head
  | joint =>
    cases trees with
    | nil => exact htail.head
    | cons next rest =>
      obtain ⟨-, hfits, hrest⟩ := chained_cons.mp h
      obtain ⟨c, more, hnext, -, hslash⟩ := (chained_cons.mp hrest).1.exists_first
      intro d hd
      obtain rfl : c = d := by simpa [gap, printAll_cons, hnext] using hd
      intro hmem
      obtain ⟨spacing, place, rfl⟩ := hslash hmem
      exact hfits _ rfl _ _ _ rfl hmem

/-- Trees that are printed do not begin with a comment. -/
theorem not_comment (h : Chained trees) (htail : Breaks tail) (more : List Char) :
    printAll trees ++ tail ≠ '/' :: '*' :: more := by
  intro heq
  cases trees with
  | nil =>
    obtain rfl : tail = '/' :: '*' :: more := heq
    exact htail.head '/' rfl (by simp)
  | cons t rest =>
    obtain ⟨c, other, hprint, -, hslash⟩ := (chained_cons.mp h).1.exists_first
    rw [printAll_cons, hprint, List.cons_append, List.cons_append] at heq
    obtain ⟨rfl, hother⟩ := List.cons.inj heq
    obtain ⟨spacing, place, rfl⟩ := hslash (by simp)
    obtain rfl : other = [] := by
      rw [Tree.print] at hprint
      exact (List.cons.inj hprint).2.symm
    have hhead := head_behind_slash h htail '*'
    rw [List.nil_append, List.append_assoc] at hother
    rw [hother] at hhead
    exact hhead rfl (by simp)

namespace Reads

theorem gap (h : Reads a (printAll trees ++ tail) tail) :
    Reads a (gap t trees ++ (printAll trees ++ tail)) tail := by
  unfold Token.gap
  split
  · exact h
  · exact h
  · exact (Reads.blank rfl (by simp)).append h

/-- A token that stands for itself is read as such. -/
theorem of_stands {leaf : Leaf} (h : leaf.Stands) (hpunct : ∀ c spacing, leaf ≠ .punct c spacing)
    (htail : Breaks tail) : Reads [leaf.at none] (leaf.spelling ++ tail) tail := by
  obtain ⟨c, more, hspelling, -⟩ := first_of_stands hpunct h
  have hread := h tail htail
  rw [hspelling] at hread ⊢
  exact Reads.leaf hread (length_lt_cons_append _ _ _)

/-- A punctuation character that stands alone is read as such. -/
theorem alone (hmem : c ∈ punctuation) (hquote : c ≠ '\'') (htail : Breaks tail) :
    Reads [.punct c .alone none] (c :: tail) tail := by
  have hread : readElement (c :: tail) = some (.leaf (.punct c .alone), tail) := by
    rw [readElement_punct hmem hquote fun _ => htail.head, startsPunct_of_breaks htail]
    rfl
  exact Reads.leaf hread (by simp)

/-- A joint punctuation character is read as what is printed behind it says. -/
theorem joint {place : Place} (h : Chained (.punct c .joint place :: trees))
    (hends : trees = [] → c ≠ '\'') (htail : Breaks tail) :
    Reads [.punct c (settledSpacing c (printAll trees)) none] (c :: (printAll trees ++ tail))
      (printAll trees ++ tail) := by
  obtain ⟨hspelled, hfits, hchained⟩ := chained_cons.mp h
  by_cases hquote : c = '\''
  · subst hquote
    cases trees with
    | nil => exact absurd rfl (hends rfl)
    | cons next rest =>
      obtain ⟨hnot, hread⟩ := hfits next rfl
      have hjoins : ¬next.Joins := by
        rintro ⟨c, place, rfl⟩
        exact hnot _ _ _ rfl
      rw [printAll_cons, List.append_assoc, List.append_assoc]
      exact Reads.leaf (hread _ (breaks_gap hjoins htail)) (by simp)
  · have hcomment : c = '/' → ∀ d ∈ (printAll trees ++ tail).head?, d ∉ ['/', '*'] := by
      rintro rfl
      have hhead := head_behind_slash h htail
      cases trees <;> exact hhead
    have hread := readElement_punct hspelled.1 hquote hcomment
    rw [startsPunct_append htail] at hread
    have hspacing : settledSpacing c (printAll trees) =
        if startsPunct (printAll trees) then .joint else .alone := by
      simp [settledSpacing, hquote]
    rw [hspacing]
    exact Reads.leaf hread (by simp)

/-- What is read inside of a group is read as the group. -/
theorem printed_group {delimiter : Delimiter} {inner : List Tree} {opening closing : Place}
    (hchained : Chained inner)
    (h : ∀ tail, Breaks tail → Reads (settle inner) (printAll inner ++ tail) tail) :
    Reads [.group delimiter none (settle inner) none]
      ((Tree.group delimiter opening inner closing).print ++ tail) tail := by
  cases delimiter with
  | paren =>
    have hinner := h (')' :: tail) (.closing .paren)
    have hopen : readElement ('(' :: (printAll inner ++ ')' :: tail)) =
        some (.opening .paren, printAll inner ++ ')' :: tail) := by
      rw [readElement_paren, if_neg]
      intro hmark
      obtain ⟨more, hmore⟩ := List.isPrefixOf_iff_prefix.mp hmark
      exact not_comment hchained (.closing .paren) _ (List.cons.inj hmore).2.symm
    simpa [Tree.print, Delimiter.opening, Delimiter.closing] using hinner.group hopen rfl
  | bracket =>
    have hinner := h (']' :: tail) (.closing .bracket)
    have hopen {more : List Char} :
        readElement ('[' :: more) = some (.opening .bracket, more) := rfl
    simpa [Tree.print, Delimiter.opening, Delimiter.closing] using hinner.group hopen rfl
  | brace =>
    have hopen {more : List Char} : readElement ('{' :: more) = some (.opening .brace, more) := rfl
    have hblank (more : List Char) : Reads [] (' ' :: more) more := Reads.blank rfl (by simp)
    cases inner with
    | nil => exact (hblank ('}' :: tail)).group hopen rfl
    | cons t rest =>
      have hinner := (hblank _).append ((h (' ' :: '}' :: tail) .space).append (hblank _))
      simpa [Tree.print] using hinner.group hopen rfl

end Reads

mutual

/-- A tree that nothing directly follows is read back in front of everything that breaks it off. -/
theorem Tree.Spelled.reads (t : Tree) (ht : t.Spelled) (hjoins : ¬t.Joins) (tail : List Char)
    (htail : Breaks tail) : Reads [t.settled] (t.print ++ tail) tail := by
  match t with
  | .ident name place => exact .of_stands (show (Leaf.ident name).Stands from ht) (by simp) htail
  | .literal text place =>
    exact .of_stands (show (Leaf.literal text).Stands from ht) (by simp) htail
  | .punct c .joint place => exact absurd ⟨c, place, rfl⟩ hjoins
  | .punct c .alone place =>
    exact .alone ht.1 (fun hquote => Spacing.noConfusion (ht.2 hquote)) htail
  | .group delimiter opening inner closing =>
    have hinner : Writable inner := ⟨ht.1, ht.2⟩
    exact .printed_group ht.1 (Writable.reads inner hinner)

/-- Trees that can be written down are read back. -/
theorem Writable.reads (trees : List Tree) (h : Writable trees) (tail : List Char)
    (htail : Breaks tail) : Reads (settle trees) (printAll trees ++ tail) tail := by
  match trees with
  | [] => exact .nil
  | t :: rest =>
    have hrest := Writable.reads rest (h.of_suffix (List.suffix_cons _ _)) tail htail
    rw [printAll_cons, List.append_assoc, List.append_assoc]
    by_cases hjoins : t.Joins
    · obtain ⟨c, place, rfl⟩ := hjoins
      have hends : rest = [] → c ≠ '\'' := by
        rintro rfl
        exact (h.endsFree _ rfl).1
      have hmark := Reads.joint h.chained hends htail
      cases rest <;> exact hmark.append hrest
    · rw [settle_cons hjoins]
      exact (Tree.Spelled.reads t (chained_cons.mp h.chained).1 hjoins _
        (breaks_gap hjoins htail)).append hrest.gap

end

end KeyedModel.Token
