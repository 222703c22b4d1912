import KeyedModel.Grammar.Path

/-!
# Types

The rule for types looks at one token to choose the kind of type. Where a bound may be followed by
further bounds, a type that begins like one goes on as a list of bounds.
-/

namespace KeyedModel.Grammar

open Token (Tree Place)

namespace Rule

/-! ### Function pointers -/

/-- The calling convention of a function, if it is given. -/
def convention : Rule Unit := do
  if ← acceptWord "extern" then let _ ← accept .textLiteral

/-- A parameter of a function pointer. In the first one `mut self` may stand for or before a name;
such a parameter is kept as it was written. -/
def pointerParameter (first : Bool) : Rule Unit :=
  writtenIf (fun kept : Bool => kept) (do
    let mutable := first && (← next (.word "mut")) && (← second (.word "self"))
    if mutable then word "mut"
    let receiver := first && (← next (.word "self"))
    let named := (receiver || (← nextAny [.name, .word "_"])) && (← second (.op ":")) &&
      !(← second (.op "::"))
    if named then
      anyWord
      op ":"
    let repeated := first && !(named && receiver) && (← next (.word "mut")) &&
      (← second (.word "self"))
    if repeated then
      word "mut"
      word "self"
      return true
    if mutable && !named then
      word "self"
      return true
    phrase_ (.type true)
    return mutable) >>= fun _ => pure ()

/-- Whether the mark of further arguments comes next, perhaps behind a name. -/
def variadicFollows : Rule Bool := do
  if ← next (.op "...") then return true
  return (← nextAny [.name, .word "_"]) && (← second (.op ":")) && (← third (.op "..."))

/-- The parameters of a function pointer. -/
def pointerParameters : Rule Unit :=
  iterate (fun first => do
    if ← next .nothing then return .inr ()
    attributes
    if ← variadicFollows then
      if ← nextAny [.name, .word "_"] then
        anyWord
        op ":"
      op "..."
      let _ ← acceptOp ","
      return .inr ()
    pointerParameter first
    if ← next .nothing then return .inr ()
    op ","
    return .inl false) true

/-- A function pointer. -/
def functionPointer : Rule Unit := do
  let _ ← acceptWord "unsafe"
  convention
  word "fn"
  within .paren pointerParameters
  let _ ← returnType false

/-! ### Types in parentheses -/

/-- What was found between parentheses. -/
inductive Enclosed where
  /-- Something that is a type together with its parentheses. -/
  | whole
  /-- Bounds that begin with a lifetime. -/
  | object
  /-- A relaxed bound. -/
  | relaxed
  /-- One type. -/
  | one (shape : Shape)

/-- What stands between the parentheses of a type. -/
def enclosedType : Rule Enclosed := do
  if ← next .nothing then return .whole
  if ← next .lifetime then
    objectBounds (← here) true false false .objectWithoutTrait
    return .object
  if ← next (.op "?") then
    let _ ← traitBound false
    return .relaxed
  let shape ← phrase (.type true)
  if ← acceptOp "," then
    commaList (phrase_ (.type true))
    return .whole
  return .one shape

/-- Further bounds, each behind a `+`. Says whether there are any. -/
def furtherBounds : Rule Bool :=
  iterate (fun filled => do
    if ← acceptOp "+" then
      let _ ← bound false false
      return .inl true
    return .inr filled) false

/-- The trees between the delimiters, if the trees are one group. -/
def unwrapped : List Tree → List Tree
  | [.group _ _ inner _] => inner
  | trees => trees

/-- A type that begins with parentheses. Around a single bound that has parentheses of its own they
are printed once. -/
def parenType (plus : Bool) : Rule Shape := do
  let (enclosed, trees) ← held (within .paren enclosedType)
  match enclosed with
  | .whole =>
    emit trees
    return .plain
  | .object =>
    emit trees
    return .parenType
  | .relaxed =>
    emit trees
    return if ← furtherBounds then .plain else .parenBound
  | .one shape =>
    let isBound := [.segment, .path, .bound, .parenBound].contains shape
    if plus && isBound && (← next (.op "+")) then
      emit (if shape == .parenBound then unwrapped trees else trees)
      let _ ← furtherBounds
      return .plain
    emit trees
    return .parenType

/-! ### Types that begin with a path -/

/-- A path in a type. Parenthesized arguments may be followed by further segments if nothing or a
type in parentheses is given back. -/
def typePath : Rule PathForm := do
  let form ← iterate (fun form : PathForm => do
    if form.isOpen && (← parensFollow) then
      match ← parenTail with
      | none | some .parenType => return .inl (← moreSegments false form.applied)
      | some _ => return .inl form.applied
    return .inr form) (← qualifiedPath false)
  finish form
  return form

/-- A type that begins with a path, behind the lifetimes that are bound for it. A macro call does
not keep them. -/
def pathType (bound? : Option (List Tree)) (plus : Bool) : Rule Shape := do
  let (form, trees) ← held typePath
  if form.qualified then
    emit trees
    return .plain
  if form.bare && (← callsMacro) then
    emit trees
    let _ ← macroArguments
    return .plain
  emit (bound?.getD [])
  emit trees
  if bound?.isNone && !(plus && (← next (.op "+"))) then return form.shape
  iterate (fun alone => do
    if plus && (← next (.op "+")) then
      op "+"
      if ← boundsGoOn false then
        let _ ← bound false false
        return .inl false
      return .inr Shape.plain
    return .inr (if alone then .bound else .plain)) true

/-- What may follow bound lifetimes in a type. -/
def bindingHeads : List Sight :=
  [.name, .word "fn", .word "unsafe", .word "extern", .word "super", .word "self", .word "Self",
    .word "crate"]

/-- A type behind bound lifetimes. -/
def boundType (plus : Bool) : Rule Shape := do
  let (_, lifetimes) ← held binder
  if ← nextAny [.word "fn", .word "unsafe", .word "extern"] then
    emit lifetimes
    functionPointer
    return .plain
  if ← nextAny bindingHeads then pathType (some lifetimes) plus
  else expecting bindingHeads

/-! ### All types -/

/-- A trait object. With a star it is kept as it was written. -/
def objectType (plus : Bool) : Rule Shape :=
  writtenIf (· == .asWritten) do
    let start ← here
    word "dyn"
    let starred ← acceptOp "*"
    objectBounds start plus false false .objectWithoutTrait
    return if starred then .asWritten else .plain

/-- A slice or an array. -/
def bracketType : Rule Unit :=
  within .bracket do
    phrase_ (.type true)
    if ← acceptOp ";" then phrase_ (.expr true)

/-- What a type may begin with. -/
def typeHeads : List Sight :=
  [.word "for", .paren, .word "fn", .word "unsafe", .word "extern", .name, .op "::", .op "<",
    .word "dyn", .bracket, .op "*", .op "&", .op "!", .word "impl", .word "_", .lifetime]

/-- A type; `plus` if further bounds may follow. -/
def type (plus : Bool) : Rule Shape := do
  if ← next (.word "for") then boundType plus
  else if ← next .paren then parenType plus
  else if ← nextAny [.word "fn", .word "unsafe", .word "extern"] then
    functionPointer
    return .plain
  else if ← nextAny (.op "::" :: .op "<" :: .name :: pathWords) then pathType none plus
  else if ← next (.word "dyn") then objectType plus
  else if ← next .bracket then
    bracketType
    return .plain
  else if ← acceptOp "*" then
    if ← nextAny [.word "const", .word "mut"] then anyWord
    else expecting [.word "const", .word "mut"]
    phrase_ (.type false)
    return .plain
  else if ← acceptOp "&" then
    let _ ← accept .lifetime
    let _ ← acceptWord "mut"
    phrase_ (.type false)
    return .plain
  else if ← acceptOp "!" then return .plain
  else if ← next (.word "impl") then
    let start ← here
    word "impl"
    objectBounds start plus true true .implWithoutTrait
    return .plain
  else if ← acceptWord "_" then return .plain
  else if ← next .lifetime then
    objectBounds (← here) true false false .objectWithoutTrait
    return .plain
  else expecting typeHeads

end Rule

end KeyedModel.Grammar
