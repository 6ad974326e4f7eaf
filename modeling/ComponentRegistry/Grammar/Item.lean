import ComponentRegistry.Grammar.Statement

/-! Items: types, functions, modules and all else that stands in a file or body. A form that has no
canonical spelling is kept as it was written, with its attributes. -/

namespace ComponentRegistry.Grammar

namespace Look

/-- The trees without a word at their front. -/
def dropWord (name : String) (trees : List Tree) : List Tree :=
  if word name trees then trees.drop 1 else trees

/-- The head of a function. A foreign one may be `safe`. -/
def signature (foreign : Bool) : Look := fun trees =>
  let trees := dropWord "async" (dropWord "const" trees)
  let trees := if foreign && word "safe" trees then trees.drop 1 else dropWord "unsafe" trees
  let trees := if word "extern" trees then
      if string (trees.drop 1) then trees.drop 2 else trees.drop 1
    else trees
  word "fn" trees

/-- The path of a macro call starts here. -/
def macroPath : Look := any [name, words ["self", "super", "crate"], op "::"]

/-- The receiver of a method. -/
def receiver : Look := fun trees =>
  if op "&" trees then
    let trees := trees.drop 1
    let trees := if lifetime trees then trees.drop 1 else trees
    word "self" (dropWord "mut" trees)
  else if word "mut" trees then word "self" (trees.drop 1)
  else but (word "self") (either (second (op "::"))
    (both (second (op ":")) (third (op "...")))) trees

end Look

namespace Reader

/-- The alternatives are named that do not stand here. -/
def expectedOf {α : Type} (alternatives : List (Look × String)) : Reader α := do
  let trees ← get
  expected ((alternatives.filter fun (look, _) => !look trees).map (·.2))

/-- Words and marks as alternatives. -/
def wordChoices (names : List String) : List (Look × String) :=
  names.map fun name => (Look.word name, quoted name)

def opChoice (marks : String) : Look × String := (Look.op marks, quoted marks)

def groupChoice (delimiter : Delimiter) : Look × String :=
  (Look.group delimiter, groupName delimiter)

/-- Who may see an item; empty if nothing is said. -/
def visibility : Reader Spelling := do
  if !(← peek (Look.word "pub")) then return []
  let keyword ← word "pub"
  match ← get with
  | .group .paren inner :: _ =>
    let lone := Look.both (Look.words ["crate", "self", "super"]) (Look.second Look.nothing)
    if lone inner then return keyword ++ (← enclosed .paren anyIdent)
    if Look.word "in" inner then
      return keyword ++ (← enclosed .paren (cat [word "in", return (← namePath).spelling]))
    return keyword
  | _ => return keyword

/-- The type of a field without name. -/
def nestedFields (r : Rules) : Reader Spelling := do
  let start ← get
  let _ ← cat [anyIdent, r.fields]
  since start

/-- A field with a name, or with an underscore for one. -/
def namedField (r : Rules) : Reader Spelling := do
  let head ← cat [outer r, visibility]
  let unnamed ← peek (Look.word "_")
  let name ← if unnamed then anyIdent else ident
  let colon ← op ":"
  let nested := Look.either (Look.word "struct")
    (Look.both (Look.word "union") (Look.second (Look.group .brace)))
  let type ← if unnamed && (← peek nested) then nestedFields r else r.typeText
  return head ++ name ++ colon ++ type

def namedFields (r : Rules) : Reader Spelling := enclosed .brace (commaList (namedField r))

def unnamedFields (r : Rules) : Reader Spelling :=
  enclosed .paren (commaList (cat [outer r, visibility, r.typeText]))

/-- What follows the generic parameters of a structure. -/
def structBody (r : Rules) : Reader Spelling := do
  let semicolon := opChoice ";"
  let brace := groupChoice .brace
  let (clause, clauseGiven) ← whereClause r
  if !clauseGiven && (← peek (Look.group .paren)) then
    let fields ← unnamedFields r
    let (clause, clauseGiven) ← whereClause r
    if ← peek semicolon.1 then return fields ++ clause ++ (← op ";")
    expectedOf (if clauseGiven then [semicolon] else wordChoices ["where"] ++ [semicolon])
  if ← peek brace.1 then return clause ++ (← namedFields r)
  if ← peek semicolon.1 then return clause ++ (← op ";")
  expectedOf (if clauseGiven then [brace, semicolon]
    else wordChoices ["where"] ++ [groupChoice .paren, brace, semicolon])

/-- A variant; its visibility is not written. -/
def variant (r : Rules) : Reader Spelling := do
  let attributes ← outer r
  let _ ← visibility
  let name ← ident
  let fields ← if ← peek (Look.group .brace) then namedFields r
    else optional (Look.group .paren) (unnamedFields r)
  return attributes ++ name ++ fields ++ (← optional (Look.op "=") (cat [op "=", r.exprText]))

/-- A declared type, from its keyword on. -/
def declaration (r : Rules) (attributes : List Attribute) (visible : Spelling) (kind : TypeKind) :
    Reader Item := do
  let keyword ← anyIdent
  let name ← name
  let generics ← generics r
  let body ← match kind with
    | .struct => structBody r
    | .enumeration => cat [whereText r, enclosed .brace (commaList (variant r))]
    | .union => cat [whereText r, namedFields r]
  return .declaration attributes kind name generics.some
    (outerSpelling attributes ++ visible ++ keyword ++ name.spelling ++ generics.text ++ body)

/-- `self` with its sign and type. -/
def receiver (r : Rules) : Reader Spelling := do
  if ← peek (Look.op "&") then
    cat [op "&", optional Look.lifetime lifetime, optWord "mut", word "self"]
  else cat [optWord "mut", word "self", optional (Look.op ":") (cat [op ":", r.typeText])]

/-- The parameters of a function. Only the first one may be a receiver, and only the last one may
stand for any number of arguments. -/
def functionParameters (r : Rules) : Reader Spelling :=
  loop (fun (text, first) => do
    if ← atEnd then return .inr text
    let text := text ++ (← outer r)
    let last (head : Spelling) : Reader ((Spelling × Bool) ⊕ Spelling) :=
      return .inr (text ++ head ++ (← op "...") ++ (← optional (Look.not Look.nothing) (op ",")))
    let next (parameter : Spelling) : Reader ((Spelling × Bool) ⊕ Spelling) := do
      if ← atEnd then return .inr (text ++ parameter)
      return .inl (text ++ parameter ++ (← op ","), false)
    if ← peek (Look.op "...") then last []
    else if ← peek Look.receiver then
      let receiver ← receiver r
      if !first then refuse "unexpected method receiver"
      next receiver
    else if ← peek (Look.both Look.name (Look.second (Look.op "<"))) then
      next (Tree.word "_" :: Tree.operator [':'] ++ (← r.typeText))
    else
      let head := (← r.pattern).text ++ (← op ":")
      if ← peek (Look.op "...") then last head else next (head ++ (← r.typeText)))
    (([] : Spelling), true)

/-- The head of a function, and whether it is declared `safe`. -/
def signature (r : Rules) (foreign : Bool) : Reader (Spelling × Bool) := do
  let start ← cat [optWord "const", optWord "async"]
  let safe ← if foreign then optWord "safe" else pure []
  let unsafety ← if safe.isEmpty then optWord "unsafe" else pure []
  let head ← cat [optAbi, word "fn", ident, return (← generics r).text,
    enclosed .paren (functionParameters r), returnType r, whereText r]
  return (start ++ safe ++ unsafety ++ head, !safe.isEmpty)

/-- A form without canonical spelling: what has been taken of `start`. -/
def verbatim (start : List Tree) : Reader Item := return .other (← since start)

/-- An item of a spelling with these attributes before it. -/
def spelled (attributes : List Attribute) (parts : List (Reader Spelling)) : Reader Item :=
  return .other (outerSpelling attributes ++ (← cat parts))

def functionItem (r : Rules) (start : List Tree) (attributes : List Attribute)
    (visible : Spelling) : Reader Item := do
  let (head, _) ← signature r false
  if ← peek (Look.op ";") then
    let _ ← op ";"
    verbatim start
  else spelled attributes [pure (visible ++ head), body r r.statements]

def externCrate : Reader Spelling :=
  cat [word "extern", word "crate", do if ← peek (Look.word "self") then anyIdent else ident,
    optional (Look.word "as") (cat [word "as", do
      if ← peek (Look.word "_") then anyIdent else ident]),
    op ";"]

/-- A tree of imports. `rooted` allows a group to have paths that start at the root of all crates;
the flag tells whether it has. -/
def imports (r : Rules) (rooted : Bool) : Reader (Spelling × Bool) := do
  let name := Look.either Look.name (Look.words ["self", "super", "crate", "try"])
  if ← peek name then
    let name ← anyIdent
    if ← peek (Look.op "::") then
      let colons ← op "::"
      return (name ++ colons ++ (← r.imports false).1, false)
    let rename ← optional (Look.word "as") (cat [word "as", do
      if ← peek (Look.either Look.name (Look.word "_")) then anyIdent
      else refuse "expected identifier or underscore"])
    return (name ++ rename, false)
  if ← peek (Look.op "*") then return (← op "*", false)
  if ← peek (Look.group .brace) then
    let (text, fromRoot) ← inside .brace <| loop (fun (text, fromRoot) => do
      if ← atEnd then return .inr (text, fromRoot)
      let root ← if rooted then optOp "::" else pure []
      let (part, partFromRoot) ← r.imports (rooted && root.isEmpty)
      let found := (text ++ root ++ part, fromRoot || !root.isEmpty || partFromRoot)
      if ← atEnd then return .inr found
      return .inl (found.1 ++ (← op ","), found.2)) (([] : Spelling), false)
    return ([.group .brace text], fromRoot)
  expectedOf ([(Look.name, "identifier")] ++ wordChoices ["self", "super", "crate", "try"] ++
    [opChoice "*", groupChoice .brace])

def importItem (r : Rules) (start : List Tree) (attributes : List Attribute) (visible : Spelling) :
    Reader Item := do
  let keyword ← word "use"
  let leading ← optOp "::"
  let (tree, fromRoot) ← r.imports leading.isEmpty
  let semicolon ← op ";"
  if fromRoot then verbatim start
  else spelled attributes [pure (visible ++ keyword ++ leading ++ tree ++ semicolon)]

def staticItem (r : Rules) (start : List Tree) (attributes : List Attribute) (visible : Spelling) :
    Reader Item := do
  let head ← cat [word "static", optWord "mut", ident]
  if ← peek (Look.op "=") then
    let _ ← cat [op "=", r.exprText, op ";"]
    return ← verbatim start
  let type ← cat [op ":", r.typeText]
  if ← peek (Look.op ";") then
    let _ ← op ";"
    return ← verbatim start
  spelled attributes [pure (visible ++ head ++ type), op "=", r.exprText, op ";"]

/-- A constant, whether it has a value, and whether it is generic. -/
def constant? (r : Rules) : Reader (Spelling × Bool × Bool) := do
  let keyword ← word "const"
  let name ← if ← peek (Look.either Look.name (Look.word "_")) then anyIdent
    else expected ["identifier", "`_`"]
  let generics ← generics r
  let type ← cat [op ":", r.typeText]
  let value ← optional (Look.op "=") (cat [op "=", r.exprText])
  let (clause, clauseGiven) ← whereClause r
  let semicolon ← op ";"
  return (keyword ++ name ++ generics.text ++ type ++ value ++ clause ++ semicolon,
    !value.isEmpty, generics.bracketed || clauseGiven)

def constItem (r : Rules) (start : List Tree) (attributes : List Attribute) (visible : Spelling) :
    Reader Item := do
  let (text, valued, generic) ← constant? r
  if valued && !generic then spelled attributes [pure (visible ++ text)] else verbatim start

/-- A type alias or associated type, whether it has a colon, and whether it has a definition. A
`where` clause may stand before or after the definition. -/
def typeAlias (r : Rules) (whereBefore whereAfter : Bool) : Reader (Spelling × Bool × Bool) := do
  let head ← cat [word "type", ident, return (← generics r).text]
  let colon ← peek (Look.op ":")
  let stop := Look.any [Look.word "where", Look.op "=", Look.op ";"]
  let bounds ← afterColon (bounds r stop true)
  let (clause, clauseGiven) ← if whereBefore then whereClause r else pure ([], false)
  let definition ← optional (Look.op "=") (cat [op "=", r.typeText])
  let later ← if whereAfter && !clauseGiven then whereText r else pure []
  let semicolon ← op ";"
  return (head ++ bounds ++ clause ++ definition ++ later ++ semicolon, colon,
    !definition.isEmpty)

def typeItem (r : Rules) (start : List Tree) (attributes : List Attribute) (visible : Spelling) :
    Reader Item := do
  let (text, colon, defined) ← typeAlias r true false
  if defined && !colon then spelled attributes [pure (visible ++ text)] else verbatim start

/-- A macro call; a macro that is defined has its name after the exclamation mark. -/
def macroCall (named : Bool) : Reader Spelling := do
  let path ← namePath
  let bang ← op "!"
  let name ← if named then optional (Look.either Look.name (Look.word "try")) anyIdent
    else pure []
  let (delimiter, arguments) ← macroArguments
  let semicolon ← if delimiter = .brace then pure [] else op ";"
  return path.spelling ++ bang ++ name ++ arguments ++ semicolon

def submodule (r : Rules) (attributes : List Attribute) (visible : Spelling) : Reader Item := do
  let head ← cat [optWord "unsafe", word "mod"]
  let name ← if ← peek (Look.word "try") then anyName else name
  let head := outerSpelling attributes ++ visible ++ head ++ name.spelling
  if ← peek (Look.op ";") then
    return .submodule attributes name none (head ++ (← op ";"))
  if !(← peek (Look.group .brace)) then expectedOf [opChoice ";", groupChoice .brace]
  let (inner, items) ← inside .brace do
    let inner ← innerAttributes r
    let items ← loop (fun items => do
      if ← atEnd then return .inr items
      return .inl (items ++ [← r.item])) []
    return (inner, items)
  return .submodule (attributes ++ inner) name (some items)
    (head ++ [.group .brace (innerSpelling inner ++ items.flatMap Item.text)])

/-- A constant, function, type or macro call in a trait. -/
def traitMember (r : Rules) : Reader Spelling := do
  let start ← get
  let attributes ← outer r
  let visible ← visibility
  let default ← optWord "default"
  let plain := visible.isEmpty && default.isEmpty
  let finish (text : Spelling) : Reader Spelling :=
    if plain then return attributes ++ text else since start
  if ← peek (Look.signature false) then
    let (head, _) ← signature r false
    if ← peek (Look.group .brace) then finish (head ++ (← body r r.statements))
    else if ← peek (Look.op ";") then finish (head ++ (← op ";"))
    else expectedOf [groupChoice .brace, opChoice ";"]
  else if ← peek (Look.word "const") then
    let (text, _, generic) ← constant? r
    if generic then since start else finish text
  else if ← peek (Look.word "type") then finish (← typeAlias r false true).1
  else if plain && (← peek Look.macroPath) then finish (← macroCall false)
  else expectedOf (wordChoices ["fn", "const", "type"] ++ if !plain then [] else
    [(Look.name, "identifier")] ++ wordChoices ["self", "super", "crate"] ++ [opChoice "::"])

/-- What follows the name and parameters of a trait. -/
def traitBody (r : Rules) : Reader Spelling :=
  cat [afterColon (bounds r (Look.either (Look.word "where") (Look.group .brace)) true),
    whereText r, body r (many Look.nothing (traitMember r))]

def traitAlias (r : Rules) : Reader Spelling :=
  cat [op "=", bounds r (Look.either (Look.word "where") (Look.op ";")) true, whereText r, op ";"]

def traitItem (r : Rules) : Reader Spelling := do
  let modifiers ← cat [optWord "unsafe", optWord "auto"]
  let head ← cat [word "trait", ident, return (← generics r).text]
  let rest ←
    if !modifiers.isEmpty || (← peek (Look.any [Look.group .brace, Look.op ":",
        Look.word "where"])) then traitBody r
    else if ← peek (Look.op "=") then traitAlias r
    else expectedOf ([groupChoice .brace, opChoice ":"] ++ wordChoices ["where"] ++
      [opChoice "="])
  return modifiers ++ head ++ rest

/-- A constant, function, type or macro call in an implementation. -/
def implMember (r : Rules) : Reader Spelling := do
  let start ← get
  let attributes ← outer r
  let visible ← visibility
  let default ← optional (Look.but (Look.word "default") (Look.second (Look.op "!")))
    (word "default")
  let finish (text : Spelling) : Reader Spelling := return attributes ++ visible ++ default ++ text
  if ← peek (Look.signature false) then
    let (head, _) ← signature r false
    if ← peek (Look.op ";") then
      let _ ← op ";"
      since start
    else finish (head ++ (← body r r.statements))
  else if ← peek (Look.word "const") then
    let (text, valued, generic) ← constant? r
    if valued && !generic then finish text else since start
  else if ← peek (Look.word "type") then
    let (text, colon, defined) ← typeAlias r false true
    if defined && !colon then finish text else since start
  else if visible.isEmpty && default.isEmpty && (← peek Look.macroPath) then
    finish (← macroCall false)
  else expectedOf (wordChoices ["fn", "const", "type"])

/-- An implementation, whether it is meant for constant evaluation, and whether what it implements
is no plain path. -/
def implementation (r : Rules) : Reader (Spelling × Bool) := do
  let head ← cat [optWord "default", optWord "unsafe", word "impl"]
  let generics ← if ← peek Look.generics then generics r else pure ⟨[], false, false⟩
  let isConst := Look.either (Look.word "const")
    (Look.both (Look.op "?") (Look.second (Look.word "const")))
  let constant ← optional isConst (cat [optOp "?", word "const"])
  let negative ← optional (Look.but (Look.op "!") (Look.second (Look.group .brace))) (op "!")
  let first ← r.type true
  let forTrait ← peek (Look.word "for")
  if !forTrait && !negative.isEmpty then refuse "inherent impls cannot be negative"
  let target ← optional (Look.word "for") (cat [word "for", r.typeText])
  let rest ← cat [whereText r, body r (many Look.nothing (implMember r))]
  let isPath := match first.form with
    | .path _ => true
    | _ => false
  return (head ++ generics.text ++ negative ++ first.text ++ target ++ rest,
    constant.isEmpty && (!forTrait || isPath))

def implItem (r : Rules) (start : List Tree) (attributes : List Attribute) (visible : Spelling) :
    Reader Item := do
  let (text, regular) ← implementation r
  if regular && visible.isEmpty then spelled attributes [pure text] else verbatim start

/-- A function, variable, type or macro call in an `extern` block. -/
def foreignMember (r : Rules) : Reader Spelling := do
  let start ← get
  let attributes ← outer r
  let visible ← visibility
  let finish (text : Spelling) : Reader Spelling := return attributes ++ visible ++ text
  let isStatic := Look.either (Look.word "static")
    (Look.both (Look.words ["unsafe", "safe"]) (Look.second (Look.word "static")))
  if ← peek (Look.signature true) then
    let (head, safe) ← signature r true
    if ← peek (Look.group .brace) then
      let _ ← body r r.statements
      since start
    else
      let semicolon ← op ";"
      if safe then since start else finish (head ++ semicolon)
  else if ← peek isStatic then
    let marked ← optional (Look.words ["unsafe", "safe"]) anyIdent
    let head ← cat [word "static", optWord "mut", ident, op ":", r.typeText]
    let value ← optional (Look.op "=") (cat [op "=", r.exprText])
    let semicolon ← op ";"
    if marked.isEmpty && value.isEmpty then finish (head ++ semicolon) else since start
  else if ← peek (Look.word "type") then
    let (text, colon, defined) ← typeAlias r true true
    if colon || defined then since start else finish text
  else if visible.isEmpty && (← peek Look.macroPath) then finish (← macroCall false)
  else expectedOf (wordChoices ["fn", "static", "type"])

def foreignModule (r : Rules) : Reader Spelling :=
  cat [optWord "unsafe", abi, body r (many Look.nothing (foreignMember r))]

/-- A macro by the keyword. -/
def macroDefinition (start : List Tree) : Reader Item := do
  let _ ← cat [word "macro", ident]
  if ← peek (Look.group .paren) then
    let _ ← inside .paren remaining
    if !(← peek (Look.group .brace)) then expected ["curly braces"]
  if !(← peek (Look.group .brace)) then expected ["parentheses", "curly braces"]
  let _ ← inside .brace remaining
  verbatim start

/-- What an item may start with; without visibility also what a macro call starts with. -/
def itemChoices (visible : Bool) : List (Look × String) :=
  wordChoices ["fn", "extern", "use", "static", "const", "unsafe", "mod", "type", "struct", "enum",
    "union", "trait", "auto", "impl", "default", "macro"] ++ if visible then [] else
  [(Look.name, "identifier")] ++ wordChoices ["self", "super", "crate"] ++ [opChoice "::"]

/-- An item that starts with `extern` and is no function. -/
def externItem (r : Rules) (attributes : List Attribute) (visible : Spelling) : Reader Item := do
  let trees ← get
  if Look.second (Look.word "crate") trees then
    spelled attributes [pure visible, externCrate]
  else if Look.second (Look.group .brace) trees ||
      (Look.second Look.string trees && Look.third (Look.group .brace) trees) then
    if visible.isEmpty then spelled attributes [foreignModule r]
    else fail (.expected [quoted "extern"] false)
  else
    let _ ← word "extern"
    if ← peek Look.string then
      let _ ← string
      expected ["curly braces"]
    expected ["`crate`", "curly braces", "string literal"]

/-- An item that starts with `unsafe` and is no function. -/
def unsafeItem (r : Rules) (start : List Tree) (attributes : List Attribute) (visible : Spelling) :
    Reader Item := do
  let trees ← get
  if Look.second (Look.word "trait") trees ||
      (Look.second (Look.word "auto") trees && Look.third (Look.word "trait") trees) then
    spelled attributes [pure visible, traitItem r]
  else if Look.second (Look.word "impl") trees then implItem r start attributes visible
  else if Look.second (Look.word "extern") trees then
    if visible.isEmpty then spelled attributes [foreignModule r]
    else fail (.expected [quoted "extern"] false)
  else if Look.second (Look.word "mod") trees then submodule r attributes visible
  else
    let _ ← word "unsafe"
    expectedOf (wordChoices ["trait", "auto", "impl", "extern", "mod"])

/-- An item with its attributes. -/
def item (r : Rules) : Reader Item := do
  let start ← get
  let attributes ← outerAttributes r
  let visible ← visibility
  let union := Look.both (Look.word "union") (Look.second Look.name)
  let auto := Look.both (Look.word "auto") (Look.second (Look.word "trait"))
  let implements := Look.either (Look.word "impl")
    (Look.but (Look.word "default") (Look.second (Look.op "!")))
  if ← peek (Look.signature false) then functionItem r start attributes visible
  else if ← peek (Look.word "extern") then externItem r attributes visible
  else if ← peek (Look.word "use") then importItem r start attributes visible
  else if ← peek (Look.word "static") then staticItem r start attributes visible
  else if ← peek (Look.word "const") then constItem r start attributes visible
  else if ← peek (Look.word "unsafe") then unsafeItem r start attributes visible
  else if ← peek (Look.word "mod") then submodule r attributes visible
  else if ← peek (Look.word "type") then typeItem r start attributes visible
  else if ← peek (Look.word "struct") then declaration r attributes visible .struct
  else if ← peek (Look.word "enum") then declaration r attributes visible .enumeration
  else if ← peek union then declaration r attributes visible .union
  else if ← peek (Look.either (Look.word "trait") auto) then
    spelled attributes [pure visible, traitItem r]
  else if ← peek implements then implItem r start attributes visible
  else if ← peek (Look.word "macro") then macroDefinition start
  else if visible.isEmpty && (← peek Look.macroPath) then
    spelled attributes [macroCall true]
  else expectedOf (itemChoices !visible.isEmpty)

end Reader

end ComponentRegistry.Grammar
