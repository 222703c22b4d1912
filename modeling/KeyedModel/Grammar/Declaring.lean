import KeyedModel.Grammar.Expression
import KeyedModel.Grammar.Item

/-!
# Rules for items

An item is chosen by its first words behind attributes and a visibility. The parts of a struct are
kept; of everything else only the kind and the name are. Some items are read but not understood in
full, and those are kept as they were written.
-/

namespace KeyedModel.Grammar

open Token (Tree Place sign)

namespace Rule

/-! ### Visibility -/

/-- A visibility, if there is one. Parentheses belong to it only if they hold a single word of a
path or a path behind `in`. -/
def visibility : Rule Unit := do
  if ← acceptWord "pub" then
    if ← next .paren then
      let single ← .foresee (within .paren do
        if ← nextAny [.word "crate", .word "self", .word "super"] then
          anyWord
          next .nothing
        else return false) .done
      let located ← .foresee (within .paren (next (.word "in"))) .done
      if single == some true then within .paren anyWord
      else if located == some true then
        within .paren do
          word "in"
          plainPath

/-! ### Structs -/

/-- The name in a declaration, not printed. -/
def declaredName (terminal : Terminal) : Rule String := do
  match ← held (token terminal) with
  | (_, [.ident name _]) => return name
  | _ => return ""

/-- The name in a declaration, printed. -/
def printedName (terminal : Terminal) : Rule String := do
  let name ← declaredName terminal
  emit [Token.word name]
  return name

/-- The type of a field. A field without a name may have one that declares fields in place, which is
kept as it was written. -/
def fieldType (unnamed : Bool) : Rule Unit := do
  let inPlace := unnamed &&
    ((← next (.word "struct")) || ((← next (.word "union")) && (← second .brace)))
  if inPlace then
    written do
      anyWord
      phrase_ .fields
  else phrase_ (.type true)

/-- A field of a struct in braces, not printed. -/
def namedField : Rule OwnField :=
  silently do
    let (_, attributes) ← held attributes
    let (_, visibility) ← held visibility
    let unnamed ← next (.word "_")
    let ident ← declaredName (if unnamed then .anyWord else .name)
    let (_, typed) ← held do
      op ":"
      fieldType unnamed
    return ⟨attributes, visibility, ident, typed⟩

/-- The fields of a struct in braces, not printed. -/
def namedFields : Rule (List (Listed OwnField)) :=
  silently (within .brace (listUntil .nothing namedField))

/-- The fields of a struct in braces. -/
def fields : Rule Shape := do
  within .brace do
    let found ← listUntil .nothing namedField
    emit (found.flatMap fun f => f.element.trees ++ f.comma)
  return .plain

/-- The fields of a tuple struct. -/
def tupleFields : Rule Unit :=
  within .paren (commaList do
    attributes
    visibility
    phrase_ (.type true))

/-- A where clause, if there is one, not printed. -/
def keptWhere : Rule (List Tree) := do
  if ← next (.word "where") then whereClause else return []

/-- A struct behind its attributes and its visibility, not printed. -/
def structItem (attributes visibility : List Tree) : Rule StructItem := do
  let _ ← silently (word "struct")
  let name ← declaredName .name
  let generics ← genericParams
  let item := StructItem.mk attributes visibility name generics
  if ← next .paren then
    let (_, fields) ← held tupleFields
    let clauses ← next (.word "where")
    let whereClause ← keptWhere
    if ← next (.op ";") then
      let _ ← silently (op ";")
      return item whereClause (.tuple (unwrapped fields))
    expecting (if clauses then [.op ";"] else [.word "where", .op ";"])
  let clauses ← next (.word "where")
  let whereClause ← keptWhere
  if ← next .brace then return item whereClause (.named (← namedFields))
  if ← next (.op ";") then
    let _ ← silently (op ";")
    return item whereClause .unit
  expecting (if clauses then [.brace, .op ";"] else [.word "where", .paren, .brace, .op ";"])

/-! ### Functions -/

/-- Whether the signature of a function comes. -/
def signatureFollows (safety : List String) : Rule Bool := do
  let found ← .foresee (do
    let _ ← acceptWord "const"
    let _ ← acceptWord "async"
    let _ ← acceptOne safety
    convention
    next (.word "fn")) .done
  return found == some true
where
  /-- Takes the first of several words that comes next. -/
  acceptOne : List String → Rule Bool
    | [] => return false
    | w :: rest => do
      if ← acceptWord w then return true
      acceptOne rest

/-- What kind of parameter was read. -/
inductive ParameterForm where
  /-- The receiver of a method, and where its word is. -/
  | receiver (place : Place)
  | typed
  | variadic

/-- The receiver of a method. -/
def receiver : Rule Place := do
  let borrowed ← acceptOp "&"
  if borrowed then let _ ← accept .lifetime
  let _ ← acceptWord "mut"
  let spot ← here
  word "self"
  if !borrowed then
    if ← acceptOp ":" then phrase_ (.type true)
  return spot

/-- A parameter of a function. A type with arguments may stand alone; it gets a pattern that binds
nothing. -/
def parameter : Rule ParameterForm := do
  if let some spot ← (.attempt receiver .done : Rule _) then return .receiver spot
  if (← next .name) && (← second (.op "<")) then
    emit [Token.word "_", sign ':']
    phrase_ (.type true)
    return .typed
  phrase_ .pattern
  op ":"
  if ← acceptOp "..." then return .variadic
  phrase_ (.type true)
  return .typed

/-- The parameters of a function. A receiver comes first. -/
def parameters : Rule Unit :=
  iterate (fun received? : Option Bool => do
    if ← next .nothing then return .inr ()
    attributes
    let form ← if ← acceptOp "..." then pure .variadic else parameter
    match form, received? with
    | .variadic, _ =>
      if !(← next .nothing) then op ","
      return .inr ()
    | .receiver spot, some true => .failAt spot .secondReceiver
    | .receiver spot, some false => .failAt spot .lateReceiver
    | _, _ => pure ()
    if ← next .nothing then return .inr ()
    op ","
    return .inl (some (form matches .receiver _ || received? == some true))) none

/-- The signature of a function, and its name. Says whether it is marked as safe. -/
def signature (safe : Bool) : Rule (String × Bool) := do
  let _ ← acceptWord "const"
  let _ ← acceptWord "async"
  let marked ← if ← acceptWord "unsafe" then pure false
    else if safe then acceptWord "safe" else pure false
  convention
  word "fn"
  let name ← printedName .name
  let _ ← printedGenerics
  within .paren parameters
  let _ ← returnType true
  let _ ← acceptWhere
  return (name, marked)

/-! ### Other parts -/

/-- A macro call as an item: anything but braces ends with a semicolon. -/
def macroItem : Rule Unit := do
  plainPath
  if (← macroArguments) != .brace then op ";"

/-- What a macro call may begin with. -/
def macroHeads : List Sight :=
  [.name, .word "self", .word "super", .word "crate", .op "::"]

/-- What is known of the declaration of a type. -/
structure TypeForm where
  name : String
  bounded : Bool
  defined : Bool

/-- The declaration of a type, with a where clause in front of its definition, behind it or in
either place. The colon is printed only in front of bounds. -/
def typeDeclaration (whereBefore whereAfter : Bool) : Rule TypeForm := do
  word "type"
  let name ← printedName .name
  let _ ← printedGenerics
  let bounded ← next (.op ":")
  if bounded then
    let (_, colon) ← held (op ":")
    let (filled, bounds) ← held (boundsFilling (nextAny [.word "where", .op "=", .op ";"]))
    if filled then
      emit colon
      emit bounds
  let early ← if whereBefore then acceptWhere else pure false
  let defined ← acceptOp "="
  if defined then phrase_ (.type true)
  if whereAfter && !early then let _ ← acceptWhere
  op ";"
  return ⟨name, bounded, defined⟩

/-- The name of a constant, which may be missing. -/
def constantName : Rule String := do
  if ← nextAny [.name, .word "_"] then printedName .anyWord
  else expecting [.name, .word "_"]

/-- A constant behind its word: its name, whether it has a value, and whether it is generic. -/
def constantBody : Rule (String × Bool × Bool) := do
  let name ← constantName
  let listed ← printedGenerics
  op ":"
  phrase_ (.type true)
  let valued ← acceptOp "="
  if valued then phrase_ (.expr true)
  let clauses ← acceptWhere
  op ";"
  return (name, valued, listed || clauses)

/-! ### Items of traits, implementations and foreign blocks -/

/-- The body of a function, or a semicolon. -/
def bodyOrEnd : Rule Unit := do
  if ← next .brace then attributedBlock
  else if ← acceptOp ";" then return
  else expecting [.brace, .op ";"]

/-- An item of a trait. -/
def traitItem : Rule Unit :=
  writtenIf (fun kept : Bool => kept) (do
    attributes
    let (_, visibility) ← held visibility
    emit visibility
    let marked := (← acceptWord "default") || !visibility.isEmpty
    if ← signatureFollows ["unsafe"] then
      let _ ← signature false
      bodyOrEnd
      return marked
    if ← acceptWord "const" then
      if ← nextAny [.name, .word "_"] then
        let (_, _, generic) ← constantBody
        return marked || generic
      if !(← nextAny functionWords) then expecting (.name :: .word "_" :: functionWords)
      let _ ← signature false
      bodyOrEnd
      return marked
    if ← next (.word "type") then
      let _ ← typeDeclaration false true
      return marked
    if marked then expecting [.word "fn", .word "const", .word "type"]
    if ← nextAny macroHeads then
      macroItem
      return false
    expecting (.word "fn" :: .word "const" :: .word "type" :: macroHeads)) >>= fun _ => pure ()
where
  /-- What may follow the word for constant evaluation in front of a function. -/
  functionWords : List Sight := [.word "async", .word "unsafe", .word "extern", .word "fn"]

/-- An item of an implementation. -/
def implItem : Rule Unit :=
  writtenIf (fun kept : Bool => kept) (do
    attributes
    let (_, visibility) ← held visibility
    emit visibility
    let default := (← next (.word "default")) && !(← second (.op "!"))
    if default then word "default"
    if ← signatureFollows ["unsafe"] then
      let _ ← signature false
      if ← acceptOp ";" then return true
      attributedBlock
      return false
    if ← acceptWord "const" then
      let (_, valued, generic) ← constantBody
      return !valued || generic
    if ← next (.word "type") then
      let form ← typeDeclaration false true
      return form.bounded || !form.defined
    let heads : List Sight := [.word "fn", .word "const", .word "type"]
    if default then expecting heads
    if !visibility.isEmpty then expecting (.word "default" :: heads)
    if ← nextAny macroHeads then
      macroItem
      return false
    expecting (.word "default" :: heads ++ macroHeads)) >>= fun _ => pure ()

/-- A static item of a foreign block. Says whether it is kept as it was written. -/
def foreignStatic : Rule Bool := do
  let marked ← if ← acceptWord "unsafe" then pure true else acceptWord "safe"
  word "static"
  let _ ← acceptWord "mut"
  name
  op ":"
  phrase_ (.type true)
  let valued ← acceptOp "="
  if valued then phrase_ (.expr true)
  op ";"
  return marked || valued

/-- An item of a foreign block. -/
def foreignItem : Rule Unit :=
  writtenIf (fun kept : Bool => kept) (do
    attributes
    let (_, visibility) ← held visibility
    emit visibility
    if ← signatureFollows ["safe", "unsafe"] then
      let (_, safe) ← signature true
      if ← next .brace then
        attributedBlock
        return true
      op ";"
      return safe
    if (← next (.word "static")) ||
        ((← nextAny [.word "unsafe", .word "safe"]) && (← second (.word "static"))) then
      return ← foreignStatic
    if ← next (.word "type") then
      let form ← typeDeclaration true true
      return form.bounded || form.defined
    let heads : List Sight := [.word "fn", .word "static", .word "type"]
    if !visibility.isEmpty then expecting heads
    if ← nextAny macroHeads then
      macroItem
      return false
    expecting (heads ++ macroHeads)) >>= fun _ => pure ()

/-- Items in braces, behind attributes of the block. -/
def itemBlock (item : Rule Unit) : Rule Unit :=
  within .brace do
    innerAttributes
    repeatWhile do
      if ← next .nothing then return false
      item
      return true

/-! ### Items -/

/-- A variant of an enumeration. A visibility is read and dropped. -/
def variant : Rule Unit := do
  attributes
  silently visibility
  name
  if ← next .brace then phrase_ .fields
  else if ← next .paren then tupleFields
  if ← acceptOp "=" then phrase_ (.expr true)

/-- A function with a body; without one it is kept as it was written. -/
def functionItem : Rule Item := do
  let (name, _) ← signature false
  if ← acceptOp ";" then return .other .asWritten ""
  attributedBlock
  return .other .function name

/-- An external crate. -/
def foreignCrate : Rule Item := do
  word "extern"
  word "crate"
  if ← next (.word "self") then anyWord else name
  if ← acceptWord "as" then
    if ← next (.word "_") then anyWord else name
  op ";"
  return .other .foreignCrate ""

/-- A block of foreign items. It has no visibility. -/
def foreignBlock (start : Place) (inherited : Bool) : Rule Item := do
  if !inherited then .failAt start (.expected [.token "extern"])
  let _ ← acceptWord "unsafe"
  word "extern"
  let _ ← accept .textLiteral
  itemBlock foreignItem
  return .other .foreignBlock ""

/-- An item that begins with the word for foreign things but is no function. -/
def foreignItems (start : Place) (inherited : Bool) : Rule Item := do
  if ← second (.word "crate") then return ← foreignCrate
  if ← second .brace then return ← foreignBlock start inherited
  if ← second (.terminal .textLiteral) then
    if ← third .brace then return ← foreignBlock start inherited
    word "extern"
    let _ ← token .textLiteral
    expecting [.brace]
  word "extern"
  expecting [.word "crate", .brace, .terminal .textLiteral]

/-- What an import tree may begin with. -/
def useHeads : List Sight :=
  [.name, .word "self", .word "super", .word "crate", .word "try", .op "*", .brace]

/-- An import tree. Where one within braces starts at the crate root, the whole is kept as it was
written. -/
def useTree (roots : Bool) : Rule Shape := do
  if ← acceptOp "*" then return .plain
  if ← next .brace then
    return ← within .brace (iterate (fun rooted : Bool => do
      let shape := if rooted then Shape.asWritten else .plain
      if ← next .nothing then return .inr shape
      let root ← if roots then acceptOp "::" else pure false
      let inner ← phrase (.useTree (roots && !root))
      let rooted := rooted || root || inner == .asWritten
      if ← next .nothing then return .inr (if rooted then .asWritten else .plain)
      op ","
      return .inl rooted) false)
  if ← nextAny useHeads then
    anyWord
    if ← acceptOp "::" then return ← phrase (.useTree false)
    if ← acceptWord "as" then
      if ← nextAny [.name, .word "_"] then anyWord
      else expectingPhrase "identifier or underscore"
    return .plain
  expecting useHeads

/-- An import. -/
def useItem : Rule Item := do
  word "use"
  let absolute ← acceptOp "::"
  let shape ← phrase (.useTree (!absolute))
  op ";"
  return .other (if shape == .asWritten then .asWritten else .importing) ""

/-- A static item. Without a type or a value it is kept as it was written. -/
def staticItem : Rule Item := do
  word "static"
  let _ ← acceptWord "mut"
  let name ← printedName .name
  if ← acceptOp "=" then
    phrase_ (.expr true)
    op ";"
    return .other .asWritten ""
  op ":"
  phrase_ (.type true)
  if ← acceptOp ";" then return .other .asWritten ""
  op "="
  phrase_ (.expr true)
  op ";"
  return .other .static name

/-- A module, inline or not. -/
def moduleItem : Rule Item := do
  let _ ← acceptWord "unsafe"
  word "mod"
  let name ← printedName (if ← next (.word "try") then .anyWord else .name)
  if ← acceptOp ";" then return .other .module name
  if ← next .brace then
    itemBlock (phrase_ .item)
    return .other .module name
  expecting [.op ";", .brace]

/-- A trait behind its parameters. The colon is printed only in front of bounds. -/
def traitBody : Rule Unit := do
  if ← next (.op ":") then
    let (_, colon) ← held (op ":")
    let (filled, bounds) ← held (boundsFilling (nextAny [.word "where", .brace]))
    if filled then
      emit colon
      emit bounds
  let _ ← acceptWhere
  itemBlock traitItem

/-- A trait with marks in front of its word. -/
def markedTrait : Rule Item := do
  let _ ← acceptWord "unsafe"
  let _ ← acceptWord "auto"
  word "trait"
  let name ← printedName .name
  let _ ← printedGenerics
  traitBody
  return .other .trait name

/-- A trait or a trait alias. -/
def traitOrAlias : Rule Item := do
  word "trait"
  let name ← printedName .name
  let _ ← printedGenerics
  if ← nextAny [.brace, .op ":", .word "where"] then
    traitBody
    return .other .trait name
  if ← acceptOp "=" then
    let _ ← boundsFilling (nextAny [.word "where", .op ";"])
    let _ ← acceptWhere
    op ";"
    return .other .traitAlias name
  expecting [.brace, .op ":", .word "where", .op "="]

/-- An implementation. One with a visibility, a constant one, and one for a type by something that
is no trait are kept as they were written; so is the type of a negative one without a trait. -/
def implementation (inherited : Bool) : Rule Item := do
  let _ ← acceptWord "default"
  let _ ← acceptWord "unsafe"
  word "impl"
  if ← opensGenerics 0 then let _ ← printedGenerics
  let constant := (← next (.word "const")) || ((← next (.op "?")) && (← second (.word "const")))
  if constant then
    let _ ← acceptOp "?"
    word "const"
  let negative := (← next (.op "!")) && !(← second .brace)
  let (shape, applied) ← writtenIf (fun form : Shape × Bool => negative && !form.2) do
    if negative then op "!"
    let shape ← phrase (.type true)
    return (shape, ← next (.word "for"))
  if applied then
    word "for"
    phrase_ (.type true)
  let _ ← acceptWhere
  itemBlock implItem
  let odd := applied && !(shape == .path || shape == .segment)
  return .other (if !inherited || constant || odd then .asWritten else .implementation) ""

/-- An item whose first word is the mark of unsafe code and that is no function. -/
def unsafeItem (start : Place) (inherited : Bool) : Rule Item := do
  if (← second (.word "trait")) || ((← second (.word "auto")) && (← third (.word "trait"))) then
    markedTrait
  else if ← second (.word "impl") then implementation inherited
  else if ← second (.word "extern") then foreignBlock start inherited
  else if ← second (.word "mod") then moduleItem
  else
    word "unsafe"
    expecting [.word "trait", .word "auto", .word "impl", .word "extern", .word "mod"]

/-- A declaration of a macro by its own word, which is kept as it was written. -/
def macroDeclaration : Rule Item := do
  word "macro"
  name
  let applied ← next .paren
  if applied then let _ ← anyGroup
  if ← next .brace then
    let _ ← anyGroup
    return .other .asWritten ""
  expecting (if applied then [.brace] else [.paren, .brace])

/-- A macro call as an item, perhaps with a name behind its mark. -/
def macroCall : Rule Item := do
  plainPath
  op "!"
  let name ← if ← nextAny [.name, .word "try"] then printedName .anyWord else pure ""
  if (← anyGroup) != .brace then op ";"
  return .other .macroCall name

/-- What an item may begin with. -/
def itemHeads : List Sight :=
  ["fn", "extern", "use", "static", "const", "unsafe", "mod", "type", "struct", "enum", "union",
    "trait", "auto", "impl", "default", "macro"].map .word

/-- An item that is no struct, behind its attributes and its visibility. -/
def otherItem (start : Place) (inherited : Bool) : Rule Item := do
  if ← signatureFollows ["unsafe"] then functionItem
  else if ← next (.word "extern") then foreignItems start inherited
  else if ← next (.word "use") then useItem
  else if ← next (.word "static") then staticItem
  else if ← acceptWord "const" then
    let (name, valued, generic) ← constantBody
    return if valued && !generic then .other .constant name else .other .asWritten ""
  else if ← next (.word "unsafe") then unsafeItem start inherited
  else if ← next (.word "mod") then moduleItem
  else if ← next (.word "type") then
    let form ← typeDeclaration true false
    return if form.defined && !form.bounded then .other .typeAlias form.name
      else .other .asWritten ""
  else if ← acceptWord "enum" then
    let name ← printedName .name
    let _ ← printedGenerics
    let _ ← acceptWhere
    within .brace (commaList variant)
    return .other .enumeration name
  else if (← next (.word "union")) && (← second .name) then
    word "union"
    let name ← printedName .name
    let _ ← printedGenerics
    let _ ← acceptWhere
    phrase_ .fields
    return .other .union name
  else if ← next (.word "trait") then traitOrAlias
  else if (← next (.word "auto")) && (← second (.word "trait")) then markedTrait
  else if (← next (.word "impl")) || ((← next (.word "default")) && !(← second (.op "!"))) then
    implementation inherited
  else if ← next (.word "macro") then macroDeclaration
  else if !inherited then expecting itemHeads
  else if ← nextAny macroHeads then macroCall
  else expecting (itemHeads ++ macroHeads)

/-- An item behind its attributes. -/
def itemBehind (attributes : List Tree) : Rule Item := do
  let start ← here
  let (_, visibility) ← held visibility
  if ← next (.word "struct") then
    let item ← structItem attributes visibility
    emit item.trees
    return .struct item
  emit attributes
  emit visibility
  otherItem start visibility.isEmpty

/-- An item. -/
def item : Rule Item :=
  writtenIf Item.isAsWritten do
    let (_, attributes) ← held attributes
    itemBehind attributes

end Rule

end KeyedModel.Grammar
