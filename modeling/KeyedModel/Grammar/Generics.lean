import KeyedModel.Grammar.Type

/-!
# Generic parameters and where clauses

Parameters are read into values, since a declaration needs them in three forms: as they were
declared, declared without defaults, and as names alone. In every form the lifetimes come first.
-/

namespace KeyedModel.Grammar

open Token (Tree sign)

/-- A generic parameter: its name, its declaration without a default, and the default with the sign
in front of it. -/
structure GenericParam where
  isLifetime : Bool
  name : List Tree
  declaration : List Tree
  default : List Tree
  deriving Repr

/-- The generic parameters of an item, each with the comma behind it. -/
abbrev GenericParams := List (Rule.Listed GenericParam)

namespace GenericParams

/-- Every parameter in one of its forms between angle brackets; nothing if there is none. -/
def printWith (form : GenericParam → List Tree) (params : GenericParams) : List Tree :=
  if params.isEmpty then []
  else
    sign '<' ::
      (Rule.lifetimesFirst
        (params.map fun p => ⟨⟨p.element.isLifetime, form p.element⟩, p.comma⟩) ++ [sign '>'])

/-- The parameters as they were declared. -/
def declared : GenericParams → List Tree := printWith fun p => p.declaration ++ p.default

/-- The parameters as they are declared where defaults are not allowed. -/
def withoutDefaults : GenericParams → List Tree := printWith (·.declaration)

/-- The parameters as arguments for themselves. -/
def asArguments : GenericParams → List Tree := printWith (·.name)

end GenericParams

namespace Rule

/-- A lifetime as a parameter, behind its attributes. -/
def lifetimeParam (attributes : List Tree) : Rule GenericParam := do
  let (_, name) ← held lifetime
  let (_, bounds) ← held lifetimeBounds
  return ⟨true, name, attributes ++ name ++ bounds, []⟩

/-- A type as a parameter, behind its attributes. -/
def typeParam (attributes : List Tree) : Rule GenericParam := do
  let (_, name) ← held name
  let mut bounds : List Tree := []
  if ← next (.op ":") then
    let (_, colon) ← held (op ":")
    let (_, trees) ← held (boundsUntil (nextAny [.op ",", .op ">", .op "="]))
    bounds := if trees.isEmpty then [] else colon ++ trees
  let (_, default) ← held do
    if ← acceptOp "=" then phrase_ (.type true)
  return ⟨false, name, attributes ++ name ++ bounds, default⟩

/-- A constant as a parameter, behind its attributes. -/
def constParam (attributes : List Tree) : Rule GenericParam := do
  let (_, constant) ← held (word "const")
  let (_, name) ← held name
  let (_, typed) ← held do
    op ":"
    phrase_ (.type true)
  let (_, default) ← held do
    if ← acceptOp "=" then constArgument
  return ⟨false, name, attributes ++ constant ++ name ++ typed, default⟩

/-- A generic parameter. -/
def genericParam : Rule GenericParam := do
  let (_, attributes) ← held attributes
  if ← next .lifetime then lifetimeParam attributes
  else if ← next .name then typeParam attributes
  else if ← next (.word "const") then constParam attributes
  else if ← next (.word "_") then
    let (_, name) ← held anyWord
    return ⟨false, name, attributes ++ name, []⟩
  else expecting [.lifetime, .name, .word "const"]

/-- The generic parameters of an item, not printed. -/
def genericParams : Rule GenericParams := do
  if ← next (.op "<") then
    silently do
      op "<"
      let params ← listUntil (.op ">") genericParam
      op ">"
      return params
  else return []

/-- The generic parameters of an item. Says whether there was a list of them, if only an empty
one. -/
def printedGenerics : Rule Bool := do
  let listed ← next (.op "<")
  emit (← genericParams).declared
  return listed

/-- Whether what comes behind some tokens can only be generic parameters, not a path that starts at
a type. -/
def opensGenerics (after : Nat) : Rule Bool := do
  let sees (sight : Sight) (more : Nat) : Rule Bool := .sees sight (after + more) .done
  if !(← sees (.op "<") 0) then return false
  if (← sees (.op ">") 1) || (← sees (.op "#") 1) || (← sees (.word "const") 1) then return true
  if !((← sees .lifetime 1) || (← sees .name 1)) then return false
  if (← sees (.op ">") 2) || (← sees (.op ",") 2) || (← sees (.op "=") 2) then return true
  return (← sees (.op ":") 2) && !(← sees (.op "::") 2)

/-- Where the predicates of a where clause end. -/
def predicatesEnd : Rule Bool := do
  if ← nextAny [.nothing, .brace, .op ",", .op ";", .op "="] then return true
  nextBut (.op ":") (.op "::")

/-- A predicate of a where clause. -/
def predicate : Rule Unit := do
  if (← next .lifetime) && (← second (.op ":")) then
    lifetime
    op ":"
    repeatWhile do
      if ← nextAny [.nothing, .brace, .op ",", .op ";", .op ":", .op "="] then return false
      lifetime
      acceptOp "+"
  else
    let _ ← acceptBinder
    phrase_ (.type true)
    op ":"
    let _ ← boundsUntil predicatesEnd

/-- The predicates of a where clause. Says whether there is any. -/
def predicates : Rule Bool :=
  iterate (fun filled => do
    if ← predicatesEnd then return .inr filled
    predicate
    if ← acceptOp "," then return .inl true
    return .inr true) false

/-- A where clause, not printed. Without predicates it leaves nothing. -/
def whereClause : Rule (List Tree) := do
  let (filled, trees) ← held do
    word "where"
    if ← opensGenerics 0 then .fail .whereParameters
    predicates
  return if filled then trees else []

/-- A where clause, if there is one. Says whether there was, if only an empty one. -/
def acceptWhere : Rule Bool := do
  if ← next (.word "where") then
    emit (← whereClause)
    return true
  return false

end Rule

end KeyedModel.Grammar
