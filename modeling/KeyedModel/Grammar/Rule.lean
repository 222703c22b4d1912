import KeyedModel.Grammar.Terminal

/-!
# Rules of the grammar

A rule is a program over the remaining tokens. It looks at what comes, takes terminals, enters
groups and calls other rules; everything that it takes it also prints, in the spacing of its own.
`Rule.run` gives a rule its meaning, given the meaning of the rules that it may call, so that a
property of every step holds of every rule.

A group that is entered need not be used up: what is left over in it is remembered, and spoils the
parse only if nothing else does.
-/

namespace KeyedModel.Grammar

open Token

/-- How tightly an operator binds, from loosest to tightest. -/
inductive Precedence where
  | jump
  | assign
  | range
  | or
  | and
  | binding
  | compare
  | bitOr
  | bitXor
  | bitAnd
  | shift
  | sum
  | product
  | cast
  deriving DecidableEq, Repr

/-- The rank of a precedence; a higher one binds tighter. -/
def Precedence.rank : Precedence → Nat
  | jump => 0
  | assign => 1
  | range => 2
  | or => 3
  | and => 4
  | binding => 5
  | compare => 6
  | bitOr => 7
  | bitXor => 8
  | bitAnd => 9
  | shift => 10
  | sum => 11
  | product => 12
  | cast => 13

/-- What a caller needs to know of a phrase that was read. -/
inductive Shape where
  /-- Nothing in particular. -/
  | plain
  /-- An expression that is one literal. -/
  | literal
  /-- A comparison. -/
  | comparison
  /-- A range expression with a start. -/
  | range
  /-- An expression that ends a statement by its block. -/
  | blockLike
  /-- A macro call, with braces or with other delimiters. -/
  | macroCall (braced : Bool)
  /-- A phrase that is kept as it was written. -/
  | asWritten
  /-- A range expression without a start or a range pattern with one end, and where its dots are. -/
  | openRange (dots : Place)
  /-- A type that is a single path segment. -/
  | segment
  /-- A type that is a path. -/
  | path
  /-- A type in parentheses. -/
  | parenType
  /-- A type that is a single bound. -/
  | bound
  /-- A type that is a single bound in parentheses of its own. -/
  | parenBound
  deriving DecidableEq, Repr

/-- The phrases that rules call each other for. -/
inductive Nonterminal where
  /-- A type; `plus` if further bounds may follow. -/
  | type (plus : Bool)
  /-- The generic arguments of a path segment. -/
  | genericArguments
  /-- A pattern without alternatives. -/
  | pattern
  /-- A pattern with alternatives. -/
  | patterns
  /-- An expression; `braces` if a path may be followed by a struct body. -/
  | expr (braces : Bool)
  /-- An operand with its prefix operators and what follows it directly. -/
  | operand (braces : Bool)
  /-- What follows a left operand, down to a precedence. -/
  | exprFrom (left : Shape) (base : Precedence) (braces : Bool)
  /-- The right operand of an operator. -/
  | rightOperand (precedence : Precedence) (braces : Bool)
  /-- An expression where a statement may end after a block. -/
  | statementExpr
  /-- The statements of a block, up to its end. -/
  | statements
  /-- An item within a block, a module or the text. -/
  | item
  /-- The fields of a struct in braces. -/
  | fields
  /-- An import tree; `roots` if it may start at the crate root. -/
  | useTree (roots : Bool)
  deriving DecidableEq, Repr

/-- A program over the remaining tokens of a group. -/
inductive Rule : Type → Type 1 where
  /-- Nothing more to read. -/
  | done {α : Type} (value : α) : Rule α
  /-- An error at the next token. -/
  | fail {α : Type} (cause : Cause) : Rule α
  /-- An error at a given place. -/
  | failAt {α : Type} (spot : Place) (cause : Cause) : Rule α
  /-- Whether a sight comes after some tokens. -/
  | sees {α : Type} (sight : Sight) (after : Nat) (next : Bool → Rule α) : Rule α
  /-- Takes a terminal. -/
  | take {α : Type} (terminal : Terminal) (next : List Tree → Rule α) : Rule α
  /-- Takes a group with whatever is in it. -/
  | takeGroup {α : Type} (next : Delimiter → Rule α) : Rule α
  /-- Takes everything that remains. -/
  | takeRest {α : Type} (next : Rule α) : Rule α
  /-- Enters a group. -/
  | inside {α β : Type} (delimiter : Delimiter) (body : Rule β) (next : β → Rule α) : Rule α
  /-- Calls another rule. -/
  | call {α : Type} (phrase : Nonterminal) (next : Shape → Rule α) : Rule α
  /-- Reads on behind `body` if that succeeds, and in front of it otherwise. -/
  | attempt {α β : Type} (body : Rule β) (next : Option β → Rule α) : Rule α
  /-- Reads on in front of `body`, knowing whether it would succeed. -/
  | foresee {α β : Type} (body : Rule β) (next : Option β → Rule α) : Rule α
  /-- Keeps back what `body` prints. -/
  | hold {α β : Type} (body : Rule β) (next : β → List Tree → Rule α) : Rule α
  /-- Prints what `body` takes as it was written, if `keep` says so. -/
  | asWritten {α β : Type} (body : Rule β) (keep : β → Bool) (next : β → Rule α) : Rule α
  /-- Prints tokens. -/
  | print {α : Type} (trees : List Tree) (next : Rule α) : Rule α
  /-- Where the next token is. -/
  | place {α : Type} (next : Place → Rule α) : Rule α
  /-- How many trees remain. -/
  | remaining {α : Type} (next : Nat → Rule α) : Rule α

namespace Rule

/-- One rule after another. -/
def bind {α β : Type} : Rule α → (α → Rule β) → Rule β
  | done a, f => f a
  | fail cause, _ => fail cause
  | failAt spot cause, _ => failAt spot cause
  | sees sight after next, f => sees sight after fun b => (next b).bind f
  | take t next, f => take t fun ts => (next ts).bind f
  | takeGroup next, f => takeGroup fun d => (next d).bind f
  | takeRest next, f => takeRest (next.bind f)
  | inside d body next, f => inside d body fun b => (next b).bind f
  | call n next, f => call n fun s => (next s).bind f
  | attempt body next, f => attempt body fun b => (next b).bind f
  | foresee body next, f => foresee body fun b => (next b).bind f
  | hold body next, f => hold body fun b ts => (next b ts).bind f
  | asWritten body keep next, f => asWritten body keep fun b => (next b).bind f
  | print ts next, f => print ts (next.bind f)
  | place next, f => place fun p => (next p).bind f
  | remaining next, f => remaining fun n => (next n).bind f

instance : Monad Rule where
  pure := done
  bind := bind

end Rule

/-- What a successful rule leaves behind. -/
structure Reply (α : Type) where
  value : α
  printed : List Tree
  rest : List Tree
  /-- The first token that was left over in a group. -/
  stray : Option SyntaxError

/-- What reading gives. -/
abbrev Outcome (α : Type) := Except SyntaxError (Reply α)

namespace Reply

/-- The reply of two rules in a row. -/
def after {α β : Type} (first : Reply α) (second : Reply β) : Reply β :=
  ⟨second.value, first.printed ++ second.printed, second.rest, first.stray.or second.stray⟩

end Reply

/-- The error for tokens that are left over. -/
def leftover (delimiter : Option Delimiter) : List Tree → Option SyntaxError
  | [] => none
  | t :: _ => some ⟨t.place, false, .leftover delimiter⟩

/-- The trees in front of `rest`, a tail of `trees`. -/
def writtenBefore (trees rest : List Tree) : List Tree := trees.take (trees.length - rest.length)

/-- The meaning of a nonterminal: what reading it gives, for tokens whose group ends at a place. -/
abbrev Meaning := Nonterminal → Place → List Tree → Outcome Shape

/-- What a rule reads from the trees of a group that ends at `closing`. -/
def Rule.run (meaning : Meaning) {α : Type} : Rule α → Place → List Tree → Outcome α
  | .done value, _, trees => .ok ⟨value, [], trees, none⟩
  | .fail cause, closing, trees => .error (errorAt closing trees cause)
  | .failAt spot cause, _, _ => .error ⟨spot, false, cause⟩
  | .sees sight after next, closing, trees =>
    (next (sight.seesAfter after trees)).run meaning closing trees
  | .take t next, closing, trees =>
    match t.match? trees with
    | none => .error (t.failure closing trees)
    | some (taken, rest) =>
      match (next taken).run meaning closing rest with
      | .error e => .error e
      | .ok r => .ok ⟨r.value, taken ++ r.printed, r.rest, r.stray⟩
  | .takeGroup next, closing, trees =>
    match trees with
    | .group d opening inner closed :: rest =>
      match (next d).run meaning closing rest with
      | .error e => .error e
      | .ok r => .ok ⟨r.value, .group d opening inner closed :: r.printed, r.rest, r.stray⟩
    | _ => .error (errorAt closing trees (.expected [.phrase "delimiter"]))
  | .takeRest next, closing, trees =>
    match next.run meaning closing [] with
    | .error e => .error e
    | .ok r => .ok ⟨r.value, trees ++ r.printed, r.rest, r.stray⟩
  | .inside d body next, closing, trees =>
    match trees with
    | .group e opening inner closed :: rest =>
      if d == e then
        match body.run meaning closed inner with
        | .error e => .error e
        | .ok r =>
          match (next r.value).run meaning closing rest with
          | .error e => .error e
          | .ok s =>
            .ok ⟨s.value, .group d opening r.printed closed :: s.printed, s.rest,
              (r.stray.or (leftover (some d) r.rest)).or s.stray⟩
      else .error (errorAt closing trees (.expected [(Sight.group d).expected]))
    | _ => .error (errorAt closing trees (.expected [(Sight.group d).expected]))
  | .call n next, closing, trees =>
    match meaning n closing trees with
    | .error e => .error e
    | .ok r =>
      match (next r.value).run meaning closing r.rest with
      | .error e => .error e
      | .ok s => .ok (r.after s)
  | .attempt body next, closing, trees =>
    match body.run meaning closing trees with
    | .error _ => (next none).run meaning closing trees
    | .ok r =>
      match (next (some r.value)).run meaning closing r.rest with
      | .error e => .error e
      | .ok s => .ok (r.after s)
  | .foresee body next, closing, trees =>
    match body.run meaning closing trees with
    | .error _ => (next none).run meaning closing trees
    | .ok r => (next (some r.value)).run meaning closing trees
  | .hold body next, closing, trees =>
    match body.run meaning closing trees with
    | .error e => .error e
    | .ok r =>
      match (next r.value r.printed).run meaning closing r.rest with
      | .error e => .error e
      | .ok s => .ok ⟨s.value, s.printed, s.rest, r.stray.or s.stray⟩
  | .asWritten body keep next, closing, trees =>
    match body.run meaning closing trees with
    | .error e => .error e
    | .ok r =>
      let printed := if keep r.value then writtenBefore trees r.rest else r.printed
      match (next r.value).run meaning closing r.rest with
      | .error e => .error e
      | .ok s => .ok ⟨s.value, printed ++ s.printed, s.rest, r.stray.or s.stray⟩
  | .print ts next, closing, trees =>
    match next.run meaning closing trees with
    | .error e => .error e
    | .ok r => .ok ⟨r.value, ts ++ r.printed, r.rest, r.stray⟩
  | .place next, closing, trees => (next (frontPlace closing trees)).run meaning closing trees
  | .remaining next, closing, trees => (next trees.length).run meaning closing trees

/-- The meaning that a table of rules gives to the nonterminals when calls may be nested to the
given depth. -/
def meaningOf (rules : Nonterminal → Rule Shape) : Nat → Meaning
  | 0 => fun _ closing trees => .error (errorAt closing trees .exhausted)
  | depth + 1 => fun n => (rules n).run (meaningOf rules depth)

namespace Rule

/-! ### Reading single things -/

/-- Whether a sight comes next. -/
def next (sight : Sight) : Rule Bool := .sees sight 0 .done

/-- Whether a sight comes after the next token. -/
def second (sight : Sight) : Rule Bool := .sees sight 1 .done

/-- Whether a sight comes after the next two tokens. -/
def third (sight : Sight) : Rule Bool := .sees sight 2 .done

/-- Whether one of several sights comes next. -/
def nextAny : List Sight → Rule Bool
  | [] => pure false
  | s :: rest => do
    if ← next s then return true
    nextAny rest

/-- Whether a sight comes next that is not the beginning of another one. -/
def nextBut (sight other : Sight) : Rule Bool := do
  return (← next sight) && !(← next other)

/-- Takes a terminal and gives it as it prints. -/
def token (t : Terminal) : Rule (List Tree) := .take t .done

/-- Takes an operator. -/
def op (chars : String) : Rule Unit := .take (.op chars) fun _ => .done ()

/-- Takes one particular word. -/
def word (w : String) : Rule Unit := .take (.word w) fun _ => .done ()

/-- Takes a name. -/
def name : Rule Unit := .take .name fun _ => .done ()

/-- Takes any word. -/
def anyWord : Rule Unit := .take .anyWord fun _ => .done ()

/-- Takes a lifetime. -/
def lifetime : Rule Unit := .take .lifetime fun _ => .done ()

/-- Takes a literal. -/
def literal : Rule Unit := .take .literal fun _ => .done ()

/-- Takes a terminal if it comes next, and says whether it did. -/
def accept (t : Terminal) : Rule Bool := do
  if ← next (.terminal t) then
    .take t fun _ => .done true
  else return false

/-- Takes an operator if it comes next. -/
def acceptOp (chars : String) : Rule Bool := accept (.op chars)

/-- Takes the first of several operators that comes next, and says whether there is one. -/
def acceptAny : List String → Rule Bool
  | [] => pure false
  | chars :: rest => do
    if ← acceptOp chars then return true
    acceptAny rest

/-- Takes a word if it comes next. -/
def acceptWord (w : String) : Rule Bool := accept (.word w)

/-- Calls another rule. -/
def phrase (n : Nonterminal) : Rule Shape := .call n .done

/-- Reads the inside of a group. -/
def within {α : Type} (d : Delimiter) (body : Rule α) : Rule α := .inside d body .done

/-- Reads without printing, and gives what would have been printed. -/
def held {α : Type} (body : Rule α) : Rule (α × List Tree) := .hold body fun a ts => .done (a, ts)

/-- Reads without printing. -/
def silently {α : Type} (body : Rule α) : Rule α := .hold body fun a _ => .done a

/-- Reads, and prints what was written if `keep` says so. -/
def writtenIf {α : Type} (keep : α → Bool) (body : Rule α) : Rule α := .asWritten body keep .done

/-- Reads, and prints what was written. -/
def written {α : Type} (body : Rule α) : Rule α := writtenIf (fun _ => true) body

/-- Prints tokens. -/
def emit (trees : List Tree) : Rule Unit := .print trees (.done ())

/-- Where the next token is. -/
def here : Rule Place := .place .done

/-- Fails because none of these may come here. One that does come, but is not followed by what it
needs, is not mentioned. -/
def expectingFrom {α : Type} (known : List Expected) : List Sight → Rule α
  | [] => .fail (.expected known)
  | s :: rest => do
    if ← next s then expectingFrom known rest
    else expectingFrom (known ++ [s.expected]) rest

/-- Fails because none of these may come here. -/
def expecting {α : Type} (sights : List Sight) : Rule α := expectingFrom [] sights

/-- Fails because a phrase of this name had to come. -/
def expectingPhrase {α : Type} (text : String) : Rule α := .fail (.expected [.phrase text])

/-- Takes a group with whatever is in it. -/
def anyGroup : Rule Delimiter := .takeGroup .done

/-- Takes everything that remains. -/
def everything : Rule Unit := .takeRest (.done ())

/-- Calls another rule and forgets what was read. -/
def phrase_ (n : Nonterminal) : Rule Unit := .call n fun _ => .done ()

/-- From the first to the last of some tokens. -/
def extent (trees : List Tree) : Place :=
  Place.to (trees.head?.bind Tree.place) (trees.getLast?.bind Tree.place)

/-- Fails at the next tree, a group as a whole. -/
def unfit {α : Type} : Rule α := do
  if ← next .nothing then .failAt (← here) .textEnded
  else
    match ← (.foresee (held anyGroup) .done : Rule _) with
    | some (_, trees) => .failAt (extent trees) (.leftover none)
    | none => .failAt (← here) (.leftover none)

/-! ### Repetition -/

/-- Repeats a rule as long as it says so, at most `limit` times. -/
def repeatUpTo : Nat → Rule Bool → Rule Unit
  | 0, _ => .fail .exhausted
  | limit + 1, body => do
    if ← body then repeatUpTo limit body

/-- Repeats a rule as long as it says so. Every repetition takes a token, so the number of tokens
bounds them. -/
def repeatWhile (body : Rule Bool) : Rule Unit :=
  .remaining fun n => repeatUpTo (n + 1) body

/-- Passes a state through repetitions of a rule, at most `limit` of them, until it gives a
result. -/
def iterateUpTo {σ α : Type} : Nat → (σ → Rule (σ ⊕ α)) → σ → Rule α
  | 0, _, _ => .fail .exhausted
  | limit + 1, body, state => do
    match ← body state with
    | .inl state => iterateUpTo limit body state
    | .inr result => return result

/-- Passes a state through repetitions of a rule until it gives a result. Every repetition takes a
token, so the number of tokens bounds them. -/
def iterate {σ α : Type} (body : σ → Rule (σ ⊕ α)) (state : σ) : Rule α :=
  .remaining fun n => iterateUpTo (n + 1) body state

/-- An element of a list, and the comma behind it. -/
structure Listed (α : Type) where
  element : α
  comma : List Tree
  deriving Repr

/-- Reads elements up to a sight, with a comma between them and perhaps after the last, and gives
them without printing. -/
def listUntil {α : Type} (stop : Sight) (element : Rule α) : Rule (List (Listed α)) :=
  iterate (fun found => do
    if ← next stop then return .inr found
    let value ← element
    if ← next stop then return .inr (found ++ [⟨value, []⟩])
    let (_, comma) ← held (op ",")
    return .inl (found ++ [⟨value, comma⟩])) []

/-- Reads elements up to the end, with a comma between them and perhaps after the last. -/
def commaList (element : Rule Unit) : Rule Unit :=
  repeatWhile do
    if ← next .nothing then return false
    element
    if ← next .nothing then return false
    op ","
    return true

end Rule

end KeyedModel.Grammar
