import KeyedModel.Grammar.Attribute

/-!
# Paths, generic arguments and bounds

A path segment may carry generic arguments, in expressions only behind `::`. Lifetimes are printed
in front of all other arguments. An empty list of arguments is kept back until it is known that no
parenthesized arguments take its place.
-/

namespace KeyedModel.Grammar

open Token (Tree Place sign)

/-- The arguments of a path segment. -/
inductive Arguments where
  | none
  /-- An empty list, not printed yet. -/
  | empty (written : List Tree)
  | angled
  | parenthesized
  deriving Inhabited

/-- What is known of a path that was read. -/
structure PathForm where
  /-- Whether it starts at a type. -/
  qualified : Bool
  /-- Whether it has one segment only and nothing in front of it. -/
  single : Bool
  /-- Whether no segment has arguments. -/
  bare : Bool
  /-- The arguments of the last segment. -/
  last : Arguments

namespace PathForm

/-- Whether the last segment has no arguments that count. -/
def isOpen (form : PathForm) : Bool :=
  match form.last with
  | .none | .empty _ => true
  | _ => false

/-- The form of a path whose first segment has the given arguments. -/
def start (qualified absolute : Bool) (first : Arguments) : PathForm :=
  ⟨qualified, !qualified && !absolute, first matches .none, first⟩

/-- The form after one more segment. -/
def extend (form : PathForm) (next : Arguments) : PathForm :=
  ⟨form.qualified, false, form.bare && next matches .none, next⟩

/-- The form after parenthesized arguments of the last segment. -/
def applied (form : PathForm) : PathForm := { form with bare := false, last := .parenthesized }

/-- The path as a type. -/
def shape (form : PathForm) : Shape :=
  if form.qualified then .plain
  else if form.single && !(form.last matches .parenthesized) then .segment
  else .path

end PathForm

/-- An element of a list of generic parameters or arguments as it prints. -/
structure Printed where
  isLifetime : Bool
  trees : List Tree

namespace Rule

/-- The elements of a list with their commas, lifetimes first. The last lifetime gets a comma if
something follows it. -/
def lifetimesFirst (elements : List (Listed Printed)) : List Tree :=
  let print := List.flatMap fun e : Listed Printed => e.element.trees ++ e.comma
  let lifetimes := elements.filter (·.element.isLifetime)
  let others := elements.filter (!·.element.isLifetime)
  let missing := !others.isEmpty && lifetimes.getLast?.any (·.comma.isEmpty)
  print lifetimes ++ (if missing then [sign ','] else []) ++ print others

/-- Prints an empty list of arguments that was kept back. -/
def finish (form : PathForm) : Rule Unit :=
  match form.last with
  | .empty written => emit written
  | _ => pure ()

/-- A path segment. -/
def segment (inExpr : Bool) : Rule Arguments := do
  if ← nextAny [.word "super", .word "self", .word "crate", .word "try"] then
    anyWord
    return .none
  if ← next (.word "Self") then anyWord else name
  let direct := !inExpr && (← nextBut (.op "<") (.op "<="))
  let marked := (← next (.op "::")) && (← third (.op "<"))
  if direct || marked then
    if ← .sees (.op ">") (if marked then 3 else 1) .done then
      let (_, written) ← held (phrase_ .genericArguments)
      return .empty written
    phrase_ .genericArguments
    return .angled
  return .none

/-- The segments that follow, as long as no parenthesized arguments come. -/
def moreSegments (inExpr : Bool) (form : PathForm) : Rule PathForm :=
  iterate (fun form => do
    if (← next (.op "::")) && !(← third .paren) then
      finish form
      op "::"
      return .inl (form.extend (← segment inExpr))
    else return .inr form) form

/-- A path that starts with a segment. -/
def path (inExpr : Bool) : Rule PathForm := do
  let absolute ← acceptOp "::"
  moreSegments inExpr (.start false absolute (← segment inExpr))

/-- A path that may start at a type. -/
def qualifiedPath (inExpr : Bool) : Rule PathForm := do
  if ← acceptOp "<" then
    phrase_ (.type true)
    if ← acceptWord "as" then finish (← path false)
    op ">"
    op "::"
    iterate (fun form => do
      if ← next (.op "::") then
        finish form
        op "::"
        return .inl (form.extend (← segment inExpr))
      else return .inr form) (.start true false (← segment inExpr))
  else path inExpr

/-- A path in an expression or a pattern. -/
def valuePath : Rule PathForm := do
  let form ← qualifiedPath true
  finish form
  return form

/-! ### Types that paths and bounds need -/

/-- What a function gives, if it says so. -/
def returnType (plus : Bool) : Rule (Option Shape) := do
  if ← acceptOp "->" then return some (← phrase (.type plus))
  return none

/-- The parameter types of a function in a path, and what it gives. -/
def parenArguments : Rule (Option Shape) := do
  within .paren (commaList (phrase_ (.type true)))
  returnType false

/-- Whether parenthesized arguments come next, perhaps behind a separator. -/
def parensFollow : Rule Bool := do
  if ← next .paren then return true
  return (← next (.op "::")) && (← third .paren)

/-- The parenthesized arguments of a path; the separator in front of them is not printed. -/
def parenTail : Rule (Option Shape) := do
  let _ ← silently (acceptOp "::")
  parenArguments

/-! ### Bounds -/

/-- The lifetimes that a lifetime outlives; the colon is printed only if there are any. -/
def lifetimeBounds : Rule Unit := do
  if ← next (.op ":") then
    let (_, colon) ← held (op ":")
    let (_, bounds) ← held (repeatWhile do
      if ← nextAny [.op ",", .op ">"] then return false
      lifetime
      acceptOp "+")
    if !bounds.isEmpty then
      emit colon
      emit bounds

/-- Lifetimes that are bound for a type. -/
def binder : Rule Unit := do
  word "for"
  op "<"
  let lifetimes ← listUntil (.op ">") (held do
    attributes
    lifetime
    lifetimeBounds)
  emit (lifetimesFirst (lifetimes.map fun l => ⟨⟨true, l.element.2⟩, l.comma⟩))
  op ">"

/-- Bound lifetimes, if there are any. -/
def acceptBinder : Rule Bool := do
  if ← next (.word "for") then
    binder
    return true
  return false

/-- The captured parameters of a type that is known only by its bounds. -/
def captures : Rule Unit := do
  word "use"
  op "<"
  let found ← iterate (fun found => do
    if ← next (.op ">") then return .inr found
    let isLifetime ← next .lifetime
    let (_, trees) ← held (do
      if isLifetime then lifetime
      else if ← nextAny [.name, .word "Self"] then anyWord
      else expecting [.lifetime, .name, .op ">"])
    if ← next (.op ">") then return .inr (found ++ [⟨⟨isLifetime, trees⟩, []⟩])
    if ← next (.op ",") then
      let (_, comma) ← held (op ",")
      return .inl (found ++ [⟨⟨isLifetime, trees⟩, comma⟩])
    expecting [.op ",", .op ">"]) ([] : List (Listed Printed))
  emit (lifetimesFirst found)
  op ">"

end Rule

/-- What kind of bound was read. -/
inductive BoundForm where
  | trait
  /-- A trait behind the word for constant evaluation, which is kept as it was written. -/
  | constant
  /-- A lifetime or a list of captures, and where it ends. -/
  | other (last : Place)
  deriving DecidableEq

namespace Rule

/-- The path of a bound, with the arguments of a function trait. -/
def traitPath : Rule Unit := do
  let form ← path false
  if form.isOpen && (← parensFollow) then
    let _ ← parenTail
  else finish form

/-- A trait as a bound. -/
def traitBound (constants : Bool) : Rule BoundForm := do
  let bound ← acceptBinder
  let mut form := BoundForm.trait
  if ← next .bracket then
    let (_, trees) ← held (within .bracket (word "const"))
    if !constants then .failAt (extent trees) (.constNotAllowed true)
    emit trees
    form := .constant
  else if ← next (.word "const") then
    let spot ← here
    word "const"
    if !constants then .failAt spot (.constNotAllowed false)
    form := .constant
  let spot ← here
  let relaxed ← acceptOp "?"
  let boundLate ← if !bound && relaxed then acceptBinder else pure false
  traitPath
  if (bound || boundLate) && relaxed then .failAt spot .binderOnRelaxed
  return form

/-- A bound. -/
def bound (capturing constants : Bool) : Rule BoundForm := do
  if ← next .lifetime then
    let trees ← token .lifetime
    return .other (trees.getLast?.bind (·.place))
  if ← next (.word "use") then
    let (_, trees) ← held captures
    if !capturing then .failAt (extent trees) .captureNotAllowed
    emit trees
    return .other (trees.getLast?.bind (·.place))
  writtenIf (· == .constant) do
    if ← next .paren then within .paren (traitBound constants)
    else traitBound constants

/-- Bounds with `+` between them and perhaps after the last, up to one of several sights. Says
whether there is any. -/
def boundsUntil (stops : Rule Bool) : Rule Bool :=
  iterate (fun filled => do
    if ← stops then return .inr filled
    let _ ← bound false true
    if ← acceptOp "+" then return .inl true
    return .inr true) false

/-- Bounds with `+` between them, up to one of several sights. Says whether there is any. -/
def boundsFilling (stops : Rule Bool) : Rule Bool :=
  iterate (fun filled => do
    if ← stops then return .inr filled
    let _ ← bound false true
    if ← stops then return .inr true
    op "+"
    return .inl true) false

/-- What may follow `+` if the bounds go on. -/
def boundsGoOn (constants : Bool) : Rule Bool := do
  if ← nextAny [.anyWord, .op "::", .op "?", .lifetime, .paren] then return true
  if constants then nextAny [.bracket, .word "const"] else return false

/-- Bounds that make a type of their own; one of them must be a trait. -/
def objectBounds (start : Place) (plus capturing constants : Bool) (missing : Cause) :
    Rule Unit := do
  let withoutTrait ← iterate (fun state : Option Place => do
    let state :=
      match state, ← bound capturing constants with
      | some _, .other last => some last
      | _, _ => none
    if !(plus && (← next (.op "+"))) then return .inr state
    op "+"
    if ← boundsGoOn constants then return .inl state
    return .inr state) (some none)
  match withoutTrait with
  | some last => .failAt (Token.Place.to start last) missing
  | none => pure ()

/-! ### Generic arguments -/

/-- A constant as a generic argument. -/
def constArgument : Rule Unit := do
  if ← next .literal then literal
  else if ← next .name then name
  else if ← next .brace then attributedBlock
  else unfit

/-- A generic argument. -/
def genericArgument : Rule Unit := do
  if (← next .lifetime) && !(← second (.op "+")) then lifetime
  else if ← nextAny [.literal, .brace] then constArgument
  else
    let shape ← phrase (.type true)
    if shape == .segment then
      if ← acceptOp "=" then
        if ← nextAny [.literal, .brace] then constArgument else phrase_ (.type true)
      else if ← acceptOp ":" then
        let _ ← boundsUntil (nextAny [.op ",", .op ">"])

/-- The generic arguments of a path segment. -/
def genericArguments : Rule Unit := do
  let _ ← acceptOp "::"
  op "<"
  let found ← listUntil (.op ">") do
    let isLifetime := (← next .lifetime) && !(← second (.op "+"))
    let (_, trees) ← held genericArgument
    return (⟨isLifetime, trees⟩ : Printed)
  emit (lifetimesFirst found)
  op ">"

end Rule

end KeyedModel.Grammar
