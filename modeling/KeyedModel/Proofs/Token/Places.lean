import Mathlib.Data.Prod.Lex
import KeyedModel.Proofs.Token.Gaps

/-!
# Where the trees of a text stand

The lexer takes a character at least for every element, so the elements of a text stand one behind
the other. So do the trees of the text, with one exception: all trees of the attribute for a
documentation comment stand where the comment does.
-/

namespace KeyedModel.Token

variable {source : String} {chars rest : List Char} {start stop mid : Position}
  {trees front back : List Tree} {t u : Tree}

/-! ### Positions -/

/-- Positions are in the order of the text: by their lines, and then by their columns. -/
instance : PartialOrder Position :=
  PartialOrder.lift (fun p => toLex (p.line, p.column)) fun p q h => by
    obtain ⟨hline, hcolumn⟩ := Prod.mk.inj (toLex.injective h)
    cases p
    cases q
    simp_all

theorem Position.lt_iff {p q : Position} :
    p < q ↔ p.line < q.line ∨ p.line = q.line ∧ p.column < q.column :=
  Prod.Lex.toLex_lt_toLex

/-- A text ends behind its start, unless it is empty. -/
theorem Position.lt_after (h : chars ≠ []) : start < start.after chars := by
  have hstep (p : Position) (c : Char) :
      p < if c == '\n' then ⟨p.line + 1, 0⟩ else ⟨p.line, p.column + 1⟩ := by
    rw [Position.lt_iff]
    split <;> simp
  induction chars generalizing start with
  | nil => exact absurd rfl h
  | cons c rest ih =>
    cases rest with
    | nil => exact hstep start c
    | cons d more => exact (hstep start c).trans (ih (by simp))

/-! ### Elements -/

/-- Nothing is left over of a documentation comment. -/
theorem rest_of_docElement {inner : Bool} {comment after : List Char} {element : Element}
    (h : docElement inner comment after = some (element, rest)) : rest = after := by
  unfold docElement at h
  split at h
  · cases h
    rfl
  · cases h

theorem length_lt_of_readLineComment {element : Element}
    (h : readLineComment ('/' :: '/' :: chars) = some (element, rest)) :
    rest.length < chars.length + 2 := by
  have hrest : rest = (splitLine chars).2 := by
    have hline : (splitLine ('/' :: '/' :: chars)).2 = (splitLine chars).2 := rfl
    unfold readLineComment at h
    dsimp only at h
    rw [hline] at h
    split at h
    · cases h
      rfl
    · exact rest_of_docElement h
    · exact rest_of_docElement h
    · cases h
      rfl
  obtain ⟨body, hbody, -⟩ := splitLine_eq chars
  have hlength := congrArg List.length hbody
  rw [List.length_append, ← hrest] at hlength
  omega

theorem length_lt_of_readBlockElement {element : Element}
    (h : readBlockElement ('/' :: '*' :: chars) = some (element, rest)) :
    rest.length < chars.length + 2 := by
  have hblock {skip : Nat} {r : List Char × List Char}
      (h : readBlock skip ('/' :: '*' :: chars) = some r) : r.2.length < chars.length + 2 := by
    have hread : readBlockComment 0 ('/' :: '*' :: chars) = readBlockComment 1 chars := rfl
    rw [readBlock, hread] at h
    cases hcloses : readBlockComment 1 chars with
    | none => simp [hcloses] at h
    | some after =>
      have hlt := (readBlockComment_eq_some.mp hcloses).length_lt
      rw [hcloses] at h
      cases h
      exact Nat.lt_add_right 2 hlt
  unfold readBlockElement at h
  split at h
  · rename_i more heq
    obtain rfl : chars = '*' :: '/' :: more := by simpa using heq
    cases h
    simp only [List.length_cons]
    omega
  · obtain ⟨r, hr, heq⟩ := Option.map_eq_some_iff.mp h
    cases heq
    exact hblock hr
  · obtain ⟨r, hr, hdoc⟩ := Option.bind_eq_some_iff.mp h
    exact rest_of_docElement hdoc ▸ hblock hr
  · obtain ⟨r, hr, hdoc⟩ := Option.bind_eq_some_iff.mp h
    exact rest_of_docElement hdoc ▸ hblock hr
  · obtain ⟨r, hr, heq⟩ := Option.map_eq_some_iff.mp h
    cases heq
    exact hblock hr

theorem length_lt_of_readLeaf {leaf : Leaf} (h : readLeaf chars = some (leaf, rest)) :
    rest.length < chars.length := by
  have hlt {front : List Char} (hne : front ≠ []) (hchars : chars = front ++ rest) :
      rest.length < chars.length := by
    have := List.length_pos_iff.mpr hne
    rw [hchars, List.length_append]
    omega
  cases leaf with
  | ident name =>
    obtain ⟨-, -, -, hread⟩ := readLeaf_eq_ident.mp h
    obtain ⟨hchars, ⟨c, more, hspelling, -⟩, -⟩ := readIdent_append hread
    exact hlt (by simp [hspelling]) hchars
  | punct c spacing =>
    cases chars with
    | nil => cases h
    | cons d more =>
      obtain ⟨-, rfl, -⟩ := readLeaf_eq_punct h
      exact Nat.lt_succ_self _
  | literal text =>
    obtain ⟨hliteral, -⟩ := readLeaf_eq_literal h
    obtain ⟨spelled, hchars, -, hstands⟩ := stands_of_readLiteral hliteral
    refine hlt (fun hnil => ?_) hchars
    have hread := hstands [] trivial
    rw [Leaf.spelling, hnil] at hread
    cases hread

/-- Every element takes a character at least. -/
theorem length_lt_of_readElement {element : Element} (h : readElement chars = some (element, rest)) :
    rest.length < chars.length := by
  unfold readElement at h
  split at h
  · cases h
  · exact length_lt_of_readLineComment h
  · exact length_lt_of_readBlockElement h
  · split at h
    · cases h
      exact Nat.lt_succ_self _
    · split at h
      · obtain ⟨-, rfl⟩ := Prod.mk.inj (Option.some.inj h)
        have hpos : 0 < errorMark.length := by decide
        rw [List.length_drop, List.length_cons]
        omega
      · split at h
        iterate 6
          cases h
          exact Nat.lt_succ_self _
        obtain ⟨r, hr, heq⟩ := Option.map_eq_some_iff.mp h
        cases heq
        exact length_lt_of_readLeaf hr

/-- The elements stand one behind the other, the first one at the position or behind it. -/
def Successive (source : String) : Position → List Located → Prop
  | _, [] => True
  | start, ⟨_, span⟩ :: rest =>
    span.source = source ∧ start ≤ span.start ∧ span.start < span.stop ∧
      Successive source span.stop rest

/-- The elements that a text is cut into stand one behind the other. -/
theorem successive_of_cut {fuel : Nat} {located : List Located}
    (h : cutWith source fuel start chars = some located) : Successive source start located := by
  fun_induction cutWith source fuel start chars generalizing located with
  | case1 =>
    cases h
    trivial
  | case2 => cases h
  | case3 _ _ _ hread =>
    rw [hread] at h
    cases h
  | case4 start chars fuel element rest hread =>
    rename_i ih
    rw [hread] at h
    obtain ⟨more, hmore, rfl⟩ := Option.map_eq_some_iff.mp h
    have htaken : takenBefore chars rest ≠ [] := by
      have := length_lt_of_readElement hread
      rw [ne_eq, ← List.length_eq_zero_iff, takenBefore, List.length_take]
      omega
    exact ⟨rfl, le_rfl, Position.lt_after htaken, ih hmore⟩

/-! ### Trees -/

/-- The tree is a comma. -/
def Tree.IsComma (t : Tree) : Prop := ∃ spacing place, t = .punct ',' spacing place

/-- The first tree stands in front of the second one. Two trees that are no commas may also stand at
the same place. -/
def Tree.Precedes (t u : Tree) : Prop :=
  ∃ a b, t.place = some a ∧ u.place = some b ∧
    (a.stop ≤ b.start ∨ a = b ∧ ¬ t.IsComma ∧ ¬ u.IsComma)

/-- The trees stand in the text between two positions, in this order. -/
structure Stretch (source : String) (start stop : Position) (trees : List Tree) : Prop where
  le : start ≤ stop
  placed : ∀ t ∈ trees, ∃ span, t.place = some span ∧ span.source = source ∧
    start ≤ span.start ∧ span.start < span.stop ∧ span.stop ≤ stop
  ordered : trees.Pairwise Tree.Precedes

namespace Stretch

theorem nil (h : start ≤ stop) : Stretch source start stop [] := ⟨h, by simp, .nil⟩

theorem singleton {span : Span} (hplace : t.place = some span) (hsource : span.source = source)
    (hlt : span.start < span.stop) : Stretch source span.start span.stop [t] :=
  ⟨hlt.le, by simpa [hplace, hsource] using hlt, by simp⟩

theorem append (hfront : Stretch source start mid front) (hback : Stretch source mid stop back) :
    Stretch source start stop (front ++ back) := by
  refine ⟨hfront.le.trans hback.le, fun t ht => ?_, ?_⟩
  · rcases List.mem_append.mp ht with ht | ht
    · obtain ⟨span, hplace, hsource, hstart, hlt, hstop⟩ := hfront.placed t ht
      exact ⟨span, hplace, hsource, hstart, hlt, hstop.trans hback.le⟩
    · obtain ⟨span, hplace, hsource, hstart, hlt, hstop⟩ := hback.placed t ht
      exact ⟨span, hplace, hsource, hfront.le.trans hstart, hlt, hstop⟩
  · refine List.pairwise_append.mpr ⟨hfront.ordered, hback.ordered, fun t ht u hu => ?_⟩
    obtain ⟨a, ha, -, -, -, hstop⟩ := hfront.placed t ht
    obtain ⟨b, hb, -, hstart, -, -⟩ := hback.placed u hu
    exact ⟨a, b, ha, hb, .inl (hstop.trans hstart)⟩

/-- The stretch may end later. -/
theorem mono (h : Stretch source start mid trees) (hle : mid ≤ stop) :
    Stretch source start stop trees := by
  simpa using h.append (nil hle)

/-- A tree stands at the end of the stretch. -/
theorem snoc {span : Span} (h : Stretch source start mid trees) (hplace : t.place = some span)
    (hsource : span.source = source) (hle : mid ≤ span.start) (hlt : span.start < span.stop) :
    Stretch source start span.stop (trees ++ [t]) :=
  (h.mono hle).append (singleton hplace hsource hlt)

/-- All trees for a documentation comment stand where the comment does. -/
theorem docAttribute (inner : Bool) (comment : List Char) {span : Span}
    (hsource : span.source = source) (hlt : span.start < span.stop) :
    Stretch source span.start span.stop (docAttribute inner comment (some span)) := by
  have hplace : ∀ t ∈ Token.docAttribute inner comment (some span),
      t.place = some span ∧ ¬ t.IsComma := by
    cases inner <;> simp [Token.docAttribute, Tree.place, Place.to, Tree.IsComma]
  refine ⟨hlt.le, fun t ht => ?_, List.pairwise_of_forall_mem_list fun t ht u hu => ?_⟩
  · exact ⟨span, (hplace t ht).1, hsource, le_rfl, hlt, le_rfl⟩
  · exact ⟨span, span, (hplace t ht).1, (hplace u hu).1, .inr ⟨rfl, (hplace t ht).2, (hplace u hu).2⟩⟩

/-- A part of a stretch is one. -/
theorem of_sublist (h : Stretch source start stop trees) (hsub : front.Sublist trees) :
    Stretch source start stop front :=
  ⟨h.le, fun t ht => h.placed t (hsub.subset ht), h.ordered.sublist hsub⟩

/-- A comma stands between the trees in front of it and those behind it. -/
theorem split_comma (h : Stretch source start stop (front ++ t :: back)) (hcomma : t.IsComma) :
    ∃ span : Span, Stretch source start span.start front ∧ span.start < span.stop ∧
      Stretch source span.stop stop back := by
  obtain ⟨span, hplace, hsource, hstart, hlt, hstop⟩ := h.placed t (by simp)
  obtain ⟨hfront, hback, hcross⟩ := List.pairwise_append.mp h.ordered
  obtain ⟨hbehind, hback⟩ := List.pairwise_cons.mp hback
  have hbefore {u : Tree} {a : Span} (hu : u ∈ front) (ha : u.place = some a) :
      a.stop ≤ span.start := by
    obtain ⟨b, c, hb, hc, hle | ⟨-, -, hnot⟩⟩ := hcross u hu t List.mem_cons_self
    · obtain rfl : a = b := Option.some.inj (ha.symm.trans hb)
      obtain rfl : span = c := Option.some.inj (hplace.symm.trans hc)
      exact hle
    · exact absurd hcomma hnot
  have hafter {u : Tree} {a : Span} (hu : u ∈ back) (ha : u.place = some a) :
      span.stop ≤ a.start := by
    obtain ⟨b, c, hb, hc, hle | ⟨-, hnot, -⟩⟩ := hbehind u hu
    · obtain rfl : span = b := Option.some.inj (hplace.symm.trans hb)
      obtain rfl : a = c := Option.some.inj (ha.symm.trans hc)
      exact hle
    · exact absurd hcomma hnot
  refine ⟨span, ⟨hstart, fun u hu => ?_, hfront⟩, hlt, ⟨hstop, fun u hu => ?_, hback⟩⟩
  · obtain ⟨a, ha, hsame, hfirst, hlength, -⟩ := h.placed u (by simp [hu])
    exact ⟨a, ha, hsame, hfirst, hlength, hbefore hu ha⟩
  · obtain ⟨a, ha, hsame, -, hlength, hlast⟩ := h.placed u (by simp [hu])
    exact ⟨a, ha, hsame, hafter hu ha, hlength, hlast⟩

end Stretch

/-- A group was opened in front of the position, behind the trees in front of it. -/
def OpenGroup.OpenedBefore (source : String) (start stop : Position) (g : OpenGroup) : Prop :=
  ∃ span, g.place = some span ∧ span.source = source ∧ span.start < span.stop ∧ span.stop ≤ stop ∧
    Stretch source start span.start g.before.reverse

/-- Nesting elements that stand one behind the other gives trees that do. -/
theorem stretch_of_nest {located : List Located} {stack : List OpenGroup} {done : List Tree}
    (hnest : nest stack done located = some trees) (hlocated : Successive source mid located)
    (hstack : ∀ g ∈ stack, g.OpenedBefore source start mid)
    (hdone : Stretch source start mid done.reverse) : ∃ stop, Stretch source start stop trees := by
  induction located generalizing stack done mid with
  | nil =>
    simp only [nest] at hnest
    split at hnest
    · cases hnest
      exact ⟨mid, hdone⟩
    · cases hnest
  | cons l rest ih =>
    obtain ⟨element, span⟩ := l
    obtain ⟨hsource, hle, hlt, hrest⟩ := hlocated
    have hopened : ∀ g ∈ stack, g.OpenedBefore source start span.stop := fun g hg => by
      obtain ⟨place, hplace, hsame, hlength, hbefore, hfront⟩ := hstack g hg
      exact ⟨place, hplace, hsame, hlength, hbefore.trans (hle.trans hlt.le), hfront⟩
    cases element with
    | blank => exact ih hnest hrest hopened (hdone.mono (hle.trans hlt.le))
    | doc inner comment =>
      refine ih hnest hrest hopened ?_
      rw [List.reverse_append, List.reverse_reverse]
      exact (hdone.mono hle).append (.docAttribute inner comment hsource hlt)
    | leaf leaf =>
      refine ih hnest hrest hopened ?_
      rw [List.reverse_cons]
      have hplace : (leaf.at (some span)).place = some span := by cases leaf <;> rfl
      exact hdone.snoc hplace hsource hle hlt
    | opening delimiter =>
      have hnow : start ≤ span.stop := hdone.le.trans (hle.trans hlt.le)
      refine ih hnest hrest (fun g hg => ?_) (.nil hnow)
      rcases List.mem_cons.mp hg with rfl | hg
      · exact ⟨span, rfl, hsource, hlt, le_rfl, hdone.mono hle⟩
      · exact hopened g hg
    | closing delimiter =>
      cases stack with
      | nil => cases hnest
      | cons top stack =>
        simp only [nest] at hnest
        split at hnest
        · obtain ⟨place, hplace, hsame, hlength, hbefore, hfront⟩ := hstack top List.mem_cons_self
          refine ih hnest hrest (fun g hg => hopened g (List.mem_cons_of_mem _ hg)) ?_
          rw [List.reverse_cons]
          -- The group reaches from its opening to its closing delimiter.
          have hgroup : (Tree.group delimiter top.place done.reverse (some span)).place =
              some ⟨place.source, place.start, span.stop⟩ := by
            rw [Tree.place, hplace, Place.to]
          have hstretch := hfront.snoc hgroup hsame le_rfl
            (hlength.trans_le (hbefore.trans (hle.trans hlt.le)))
          exact hstretch
        · cases hnest

/-- The trees of a text stand in it, in their order. -/
theorem stretch_of_lex {text : String} (h : lex source text = some trees) :
    ∃ start stop, Stretch source start stop trees := by
  obtain ⟨start, hlex⟩ := lex_eq source text
  obtain ⟨located, hcut, hnest⟩ := Option.bind_eq_some_iff.mp (hlex.symm.trans h)
  exact ⟨start, stretch_of_nest hnest (successive_of_cut hcut) (by simp) (.nil le_rfl)⟩

end KeyedModel.Token
