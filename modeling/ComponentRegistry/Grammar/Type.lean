import ComponentRegistry.Grammar.Generics

/-! Types and the bounds of types. -/

namespace ComponentRegistry.Grammar

namespace Reader

def returnType (r : Rules) : Reader Spelling :=
  optional (Look.op "->") (cat [op "->", r.typeText])

def boundlessReturnType (r : Rules) : Reader Spelling :=
  optional (Look.op "->") (cat [op "->", r.boundlessType])

/-- Argument types in parentheses, and the type of the result. -/
def callArguments (r : Rules) : Reader Spelling :=
  cat [enclosed .paren (commaList r.typeText), boundlessReturnType r]

/-- The path of a trait; arguments in parentheses may follow its last name. -/
def traitPath (r : Rules) : Reader Spelling := do
  let path ← path r false
  let call := Look.either (Look.group .paren)
    (Look.both (Look.op "::") (Look.third (Look.group .paren)))
  if path.endsBare && (← peek call) then
    let _ ← optOp "::"
    return path.dropBrackets.spelling ++ (← callArguments r)
  return path.spelling

/-- The names that a type captures. -/
def captures : Reader Spelling := do
  let keyword ← word "use"
  let parts ← angled do
    if ← peek Look.lifetime then return (true, ← lifetime)
    if ← peek (Look.either Look.name (Look.word "Self")) then return (false, ← anyIdent)
    expected ["lifetime", "identifier", quoted ">"]
  return keyword ++ inAngles (AnglePart.spelling parts)

/-- What marks a trait for constant evaluation. -/
def constMark (allowed : Bool) : Reader Bool := do
  if ← peek (Look.group .bracket) then
    let _ ← enclosed .bracket (word "const")
    if !allowed then refuse "`[const]` is not allowed here"
    return true
  if ← peek (Look.word "const") then
    let _ ← word "const"
    if !allowed then refuse "`const` is not allowed here"
    return true
  return false

/-- A trait as a bound, and whether it is marked for constant evaluation. -/
def traitBound (r : Rules) (conditional : Bool) : Reader (Spelling × Bool) := do
  let lifetimes ← optBinder r
  let const ← constMark conditional
  let maybe ← optOp "?"
  let lifetimes ← if lifetimes.isEmpty && !maybe.isEmpty then optBinder r else pure lifetimes
  let path ← traitPath r
  if !lifetimes.isEmpty && !maybe.isEmpty then
    refuse "`for<...>` binder not allowed with `?` trait polarity modifier"
  return (maybe ++ lifetimes ++ path, const)

/-- One bound. A trait marked for constant evaluation is kept as it was written. -/
def bound (r : Rules) (capture conditional : Bool) : Reader Bound := do
  if ← peek Look.lifetime then
    let text ← lifetime
    return ⟨text, text, .lifetime⟩
  if ← peek (Look.word "use") then
    let text ← captures
    if !capture then refuse "`use<...>` precise capturing syntax is not allowed here"
    return ⟨text, text, .capture⟩
  let start ← get
  let enclosing ← peek (Look.group .paren)
  let (bare, const) ←
    if enclosing then inside .paren (traitBound r conditional) else traitBound r conditional
  if const then
    let text ← since start
    return ⟨text, text, .trait⟩
  return ⟨if enclosing then [.group .paren bare] else bare, bare, .trait⟩

/-- The start of a further bound after a plus sign. -/
def startsBound : Look :=
  Look.any [Look.anyWord, Look.op "::", Look.op "?", Look.lifetime, Look.group .paren]

/-- Bounds of a type without name; one of them has to be a trait. -/
def boundList (r : Rules) (plus capture conditional : Bool) (what : String) :
    Reader (List Bound × Spelling) := do
  let starts := if conditional then
      Look.any [startsBound, Look.group .bracket, Look.word "const"]
    else startsBound
  let (found, text) ← loop (fun (found, text) => do
    let bound ← r.bound capture conditional
    let found := found ++ [bound]
    let text := text ++ bound.text
    if !(plus && (← peek (Look.op "+"))) then return .inr (found, text)
    let text := text ++ (← op "+")
    if ← peek starts then return .inl (found, text)
    return .inr (found, text)) (([] : List Bound), ([] : Spelling))
  if found.all (·.form != .trait) then
    refuse ("at least one trait " ++ what)
  return (found, text)

def objectBounds (r : Rules) (plus : Bool) : Reader Spelling :=
  return (← boundList r plus false false "is required for an object type").2

/-- Further bounds of a trait object whose first one has been read. -/
def moreBounds (r : Rules) (first : Spelling) : Reader Spelling :=
  loop (fun text => do
    if ← peek (Look.op "+") then
      return .inl (text ++ (← op "+") ++ (← r.bound false false).text)
    return .inr text) first

def other (text : Spelling) : TypePhrase := ⟨text, .other⟩

/-- A trait object without keyword, of a first bound and those after it. -/
def traitObject (bare text : Spelling) (single : Bool) : TypePhrase :=
  ⟨text, if single then .bound bare else .other⟩

/-- What stands in the parentheses that a type starts with. -/
inductive Parenthesized where
  /-- Nothing, several types, or bounds that start with a lifetime. -/
  | closed (text : Spelling)
  /-- A bound with a question mark. -/
  | bound (bare : Spelling)
  | single (type : TypePhrase)

def parenthesized (r : Rules) : Reader Parenthesized :=
  inside .paren do
    if ← atEnd then return .closed []
    if ← peek Look.lifetime then return .closed (← objectBounds r true)
    if ← peek (Look.op "?") then return .bound (← traitBound r false).1
    let first ← r.type true
    if ← peek (Look.op ",") then
      return .closed (first.text ++ (← op ",") ++ (← commaList r.typeText))
    return .single first

def parenType (r : Rules) (plus : Bool) : Reader TypePhrase := do
  let enclose (text : Spelling) : Spelling := [.group .paren text]
  let objectFrom (bare : Spelling) : Reader TypePhrase := do
    let first := enclose bare
    let text ← moreBounds r first
    return traitObject bare text (text.length == first.length)
  match ← parenthesized r with
  | .closed text => return other (enclose text)
  | .bound bare => objectFrom bare
  | .single type =>
    match type.form, plus && (← peek (Look.op "+")) with
    | .path _, true => objectFrom type.text
    | .bound bare, true => objectFrom bare
    | _, _ => return other (enclose type.text)

/-- The last argument of a function pointer that takes any number of them. -/
def variadicArgument : Reader Spelling := do
  let name ← optional (Look.either Look.name (Look.word "_")) (cat [anyIdent, op ":"])
  cat [pure name, op "...", optOp ","]

/-- One argument of a function pointer. The first one may be `self`, and is kept as it was written
if that is to be changed. -/
def pointerArgument (r : Rules) (first : Bool) : Reader Spelling := do
  let start ← get
  let mutSelf := Look.both (Look.word "mut") (Look.second (Look.word "self"))
  let self := Look.word "self"
  let plain := Look.either Look.name (Look.word "_")
  if first && (← peek mutSelf) then
    let _ ← word "mut"
    let _ ← if ← peek (Look.second Look.colon) then cat [word "self", op ":", r.typeText]
      else word "self"
    since start
  else if ← peek (Look.both (if first then Look.either plain self else plain)
      (Look.second Look.colon)) then
    let isSelf ← peek self
    let name ← cat [anyIdent, op ":"]
    if first && !isSelf && (← peek mutSelf) then
      let _ ← cat [word "mut", word "self"]
      since start
    else return name ++ (← r.typeText)
  else r.typeText

def pointerArguments (r : Rules) : Reader Spelling :=
  loop (fun (text, first) => do
    if ← atEnd then return .inr text
    let text := text ++ (← outer r)
    let variadic := Look.either (Look.op "...") <|
      Look.both (Look.either Look.name (Look.word "_"))
        (Look.both (Look.second (Look.op ":")) (Look.third (Look.op "...")))
    if ← peek variadic then return .inr (text ++ (← variadicArgument))
    let text := text ++ (← pointerArgument r first)
    if ← atEnd then return .inr text
    return .inl (text ++ (← op ","), false)) (([] : Spelling), true)

/-- The name of a calling convention. -/
def abi : Reader Spelling := cat [word "extern", optional Look.string string]

def optAbi : Reader Spelling := optional (Look.word "extern") abi

def functionPointer (r : Rules) : Reader Spelling :=
  cat [optWord "unsafe", optAbi, word "fn", enclosed .paren (pointerArguments r),
    boundlessReturnType r]

/-- A type that starts with a path, maybe after a binder. -/
def pathType (r : Rules) (plus : Bool) (lifetimes : Spelling) : Reader TypePhrase := do
  match ← anyPath r false with
  | .inl text => return other text
  | .inr path =>
    if path.isPlain && (← peek (Look.but (Look.op "!") (Look.op "!="))) then
      let bang ← op "!"
      let (_, arguments) ← macroArguments
      return other (path.spelling ++ bang ++ arguments)
    let more ← peek (Look.op "+")
    if lifetimes.isEmpty && !(plus && more) then return ⟨path.spelling, .path path.isLone⟩
    let first := lifetimes ++ path.spelling
    if !plus then return ⟨first, .bound first⟩
    let text ← loop (fun text => do
      if !(← peek (Look.op "+")) then return .inr text
      let text := text ++ (← op "+")
      if !(← peek startsBound) then return .inr text
      return .inl (text ++ (← r.bound false false).text)) first
    return traitObject first text (text.length == first.length)

def dynType (r : Rules) (plus : Bool) : Reader TypePhrase := do
  let start ← get
  let keyword ← word "dyn"
  let star ← optOp "*"
  let bounds ← objectBounds r plus
  if star.isEmpty then return other (keyword ++ bounds)
  return other (← since start)

def bracketType (r : Rules) : Reader TypePhrase :=
  return other (← enclosed .bracket (cat [r.typeText,
    optional (Look.op ";") (cat [op ";", r.exprText])]))

def pointerType (r : Rules) : Reader TypePhrase := do
  let star ← op "*"
  let kind ← if ← peek (Look.words ["const", "mut"]) then anyIdent
    else expected [quoted "const", quoted "mut"]
  return other (star ++ kind ++ (← r.boundlessType))

def referenceType (r : Rules) : Reader TypePhrase :=
  return other (← cat [op "&", optional Look.lifetime lifetime, optWord "mut", r.boundlessType])

def implType (r : Rules) (plus : Bool) : Reader TypePhrase := do
  let keyword ← word "impl"
  return other (keyword ++ (← boundList r plus true true "must be specified").2)

def typeStarts : List String :=
  ["`for`", "parentheses", "`fn`", "`unsafe`", "`extern`", "identifier", "`::`", "`<`", "`dyn`",
    "square brackets", "`*`", "`&`", "`!`", "`impl`", "`_`", "lifetime"]

/-- A type; `plus` tells whether plus signs at its top are a part of it. -/
def type (r : Rules) (plus : Bool) : Reader TypePhrase := do
  let isPointer := Look.words ["fn", "unsafe", "extern"]
  let isPath := Look.any [Look.name, Look.words ["super", "self", "Self", "crate"], Look.op "::",
    Look.op "<"]
  if ← peek (Look.word "for") then
    let lifetimes ← binder r
    if ← peek isPointer then return other (lifetimes ++ (← functionPointer r))
    if ← peek (Look.either Look.name (Look.words ["super", "self", "Self", "crate"])) then
      return ← pathType r plus lifetimes
    expected ["identifier", "`fn`", "`unsafe`", "`extern`", "`super`", "`self`", "`Self`",
      "`crate`"]
  else if ← peek (Look.group .paren) then parenType r plus
  else if ← peek isPointer then return other (← functionPointer r)
  else if ← peek isPath then pathType r plus []
  else if ← peek (Look.word "dyn") then dynType r plus
  else if ← peek (Look.group .bracket) then bracketType r
  else if ← peek (Look.op "*") then pointerType r
  else if ← peek (Look.op "&") then referenceType r
  else if ← peek (Look.op "!") then return other (← op "!")
  else if ← peek (Look.word "impl") then implType r plus
  else if ← peek (Look.word "_") then return other (← anyIdent)
  else if ← peek Look.lifetime then return other (← objectBounds r true)
  else expected typeStarts

end Reader

end ComponentRegistry.Grammar
