import ComponentRegistry.Grammar.Path

/-! Generic parameters, binders of lifetimes, and `where` clauses. -/

namespace ComponentRegistry.Grammar

/-- A colon that does not start a path. -/
def Look.colon : Look := Look.but (Look.op ":") (Look.op "::")

/-- Generic parameters as they are written, and whether there are any. -/
structure Generics where
  text : Spelling
  /-- There were angle brackets, maybe empty ones. -/
  bracketed : Bool
  some : Bool
  deriving Repr

/-- The start of generic parameters where a type in angle brackets might stand, too. -/
def Look.generics : Look :=
  Look.both (Look.op "<") <| Look.any [
    Look.second (Look.any [Look.op ">", Look.op "#", Look.word "const"]),
    Look.both (Look.second (Look.either Look.lifetime Look.name))
      (Look.third (Look.any [Look.op ">", Look.op ",", Look.colon, Look.op "="]))]

namespace Reader

/-- A part after a colon, both left out if it is empty. -/
def afterColon (part : Reader Spelling) : Reader Spelling :=
  optional (Look.op ":") do
    let colon ← op ":"
    let text ← part
    return if text.isEmpty then [] else colon ++ text

def lifetimeParam : Reader Spelling := do
  let name ← lifetime
  let bounds ← afterColon (joined (Look.any [Look.nothing, Look.op ",", Look.op ">"]) lifetime "+")
  return name ++ bounds

def typeParam (r : Rules) : Reader Spelling := do
  let name ← ident
  let stop := Look.any [Look.nothing, Look.op ",", Look.op ">", Look.op "="]
  let bounds ← afterColon (openBounds r stop true)
  let default ← optional (Look.op "=") (cat [op "=", r.typeText])
  return name ++ bounds ++ default

def constParam (r : Rules) : Reader Spelling :=
  cat [word "const", ident, op ":", r.typeText, optional (Look.op "=") (cat [op "=", constant r])]

/-- A parameter, and whether it is a lifetime. -/
def genericParam (r : Rules) (underscore : Bool) : Reader (Bool × Spelling) := do
  let attributes ← outer r
  if ← peek Look.lifetime then return (true, attributes ++ (← lifetimeParam))
  if ← peek Look.name then return (false, attributes ++ (← typeParam r))
  if ← peek (Look.word "const") then return (false, attributes ++ (← constParam r))
  if underscore && (← peek (Look.word "_")) then return (false, attributes ++ (← anyIdent))
  expected ["lifetime", "identifier", quoted "const"]

/-- Generic parameters, if there are any. Empty brackets are not written. -/
def generics (r : Rules) : Reader Generics := do
  if !(← peek (Look.op "<")) then return ⟨[], false, false⟩
  let parts ← angled (genericParam r true)
  if parts.isEmpty then return ⟨[], true, false⟩
  return ⟨inAngles (AnglePart.spelling parts), true, true⟩

/-- The lifetimes that a bound is meant for, in their order. -/
def binder (r : Rules) : Reader Spelling := do
  let keyword ← word "for"
  let parts ← angled (genericParam r false)
  return keyword ++ inAngles (AnglePart.listed parts)

def optBinder (r : Rules) : Reader Spelling := optional (Look.word "for") (binder r)

def predicateEnd : Look :=
  Look.any [Look.nothing, Look.group .brace, Look.op ",", Look.op ";", Look.colon, Look.op "="]

def wherePredicate (r : Rules) : Reader Spelling := do
  if ← peek (Look.both Look.lifetime (Look.second (Look.op ":"))) then
    let stop := Look.any [Look.nothing, Look.group .brace, Look.op ",", Look.op ";", Look.op ":",
      Look.op "="]
    cat [lifetime, op ":", joined stop lifetime "+"]
  else
    cat [optBinder r, r.typeText, op ":", openBounds r predicateEnd true]

/-- A `where` clause, if there is one. Without predicates it is not written. The flag tells whether
it was there. -/
def whereClause (r : Rules) : Reader (Spelling × Bool) := do
  if !(← peek (Look.word "where")) then return ([], false)
  let keyword ← word "where"
  let predicates ← joined predicateEnd (wherePredicate r) ","
  return (if predicates.isEmpty then [] else keyword ++ predicates, true)

def whereText (r : Rules) : Reader Spelling := return (← whereClause r).1

end Reader

end ComponentRegistry.Grammar
