import ComponentRegistry.Text.Blank
import ComponentRegistry.Text.Quoted
import ComponentRegistry.Token.Basic
import ComponentRegistry.Token.Literal

/-! Reading a text into token trees. A text is first cut into lexemes, which are tokens and single
brackets; the brackets are then matched. Blanks and comments are dropped, doc comments become
attributes. -/

namespace ComponentRegistry

inductive Lexeme where
  | opening (delimiter : Delimiter)
  | closing (delimiter : Delimiter)
  | token (token : Token)
  deriving DecidableEq, Repr

namespace Lexer

open Text

def isMark (c : Char) : Bool :=
  ['~', '!', '@', '#', '$', '%', '^', '&', '*', '-', '=', '+', '|', ';', ':', ',', '<', '.', '>',
    '/', '?', '\x27'].contains c

/-- A punctuation mark stands here: a slash that opens a comment is none. -/
def startsMark : List Char → Bool
  | '/' :: '/' :: _ => false
  | '/' :: '*' :: _ => false
  | c :: _ => isMark c
  | [] => false

/-- The text of a block comment from its opening on, and what follows it. Comments nest; `depth` is
the number of those that are open. -/
def blockComment? (depth : Nat) : List Char → Option (List Char × List Char)
  | '/' :: '*' :: rest =>
    (blockComment? (depth + 1) rest).map fun (inside, rest) => ('/' :: '*' :: inside, rest)
  | '*' :: '/' :: rest =>
    if depth ≤ 1 then some (['*', '/'], rest)
    else (blockComment? (depth - 1) rest).map fun (inside, rest) => ('*' :: '/' :: inside, rest)
  | c :: rest => (blockComment? depth rest).map fun (inside, rest) => (c :: inside, rest)
  | [] => none

/-- The rest of a line without its carriage return, and the text from the line feed on. -/
def line : List Char → List Char × List Char
  | [] => ([], [])
  | '\n' :: rest => ([], '\n' :: rest)
  | '\r' :: '\n' :: rest => ([], '\n' :: rest)
  | c :: rest => (c :: (line rest).1, (line rest).2)

def afterBlockComment? (cs : List Char) : Option (List Char) := (blockComment? 0 cs).map (·.2)

/-- What a comment that is no doc comment leaves of the text. -/
def comment? (cs : List Char) : Option (List Char) :=
  match cs with
  | '/' :: '/' :: '/' :: '/' :: rest => some (line rest).2
  | '/' :: '/' :: '/' :: _ => none
  | '/' :: '/' :: '!' :: _ => none
  | '/' :: '/' :: rest => some (line rest).2
  | '/' :: '*' :: '*' :: '/' :: rest => some rest
  | '/' :: '*' :: '*' :: '*' :: _ => afterBlockComment? cs
  | '/' :: '*' :: '*' :: _ => none
  | '/' :: '*' :: '!' :: _ => none
  | '/' :: '*' :: _ => afterBlockComment? cs
  | _ => none

/-- One blank or comment less. -/
def blank? : List Char → Option (List Char)
  | [] => none
  | c :: rest => if isBlank c then some rest else comment? (c :: rest)

/-- The inside of a block comment: all but its first three and its last two characters. -/
def blockInside (comment : List Char) : List Char := (comment.drop 3).dropLast.dropLast

def docBlock? (inner : Bool) (cs : List Char) : Option (List Char × Bool × List Char) :=
  (blockComment? 0 cs).map fun (comment, rest) => (blockInside comment, inner, rest)

/-- The content of a doc comment, whether it is an inner one, and what follows. -/
def docComment? (cs : List Char) : Option (List Char × Bool × List Char) :=
  match cs with
  | '/' :: '/' :: '!' :: rest => some ((line rest).1, true, (line rest).2)
  | '/' :: '*' :: '!' :: _ => docBlock? true cs
  | '/' :: '/' :: '/' :: '/' :: _ => none
  | '/' :: '/' :: '/' :: rest => some ((line rest).1, false, (line rest).2)
  | '/' :: '*' :: '*' :: '*' :: _ => none
  | '/' :: '*' :: '*' :: _ => docBlock? false cs
  | _ => none

/-- Every carriage return stands before a line feed. -/
def noBareReturn : List Char → Bool
  | [] => true
  | '\r' :: '\n' :: rest => noBareReturn rest
  | '\r' :: _ => false
  | _ :: rest => noBareReturn rest

/-- The attribute that a doc comment stands for. -/
def docLexemes (content : List Char) (inner : Bool) : List Lexeme :=
  [.token (.mark '#' false)] ++ (if inner then [.token (.mark '!' false)] else []) ++
  [.opening .bracket, .token (.word false "doc"), .token (.mark '=' false),
    .token (.literal (String.ofList (literal content))), .closing .bracket]

def doc? (cs : List Char) : Option (List Lexeme × List Char) := do
  let (content, inner, rest) ← docComment? cs
  if noBareReturn content then some (docLexemes content inner, rest) else none

/-- The start of a literal whose quote is missing or wrong, and no identifier. -/
def spoiledLiteral : List Char → Bool
  | 'r' :: '\x22' :: _ | 'r' :: '#' :: '\x22' :: _ | 'r' :: '#' :: '#' :: _ => true
  | 'b' :: '\x22' :: _ | 'b' :: '\x27' :: _ | 'b' :: 'r' :: '\x22' :: _
  | 'b' :: 'r' :: '#' :: _ => true
  | 'c' :: '\x22' :: _ | 'c' :: 'r' :: '\x22' :: _ | 'c' :: 'r' :: '#' :: _ => true
  | _ => false

/-- An identifier or keyword; the path keywords and the underscore have no raw form. -/
def anyWord? : List Char → Option (Bool × List Char × List Char)
  | 'r' :: '#' :: rest => do
    let (name, rest) ← Literal.identifier? rest
    if ["_", "super", "self", "Self", "crate"].contains (String.ofList name) then none
    else some (true, name, rest)
  | cs => (Literal.identifier? cs).map fun (name, rest) => (false, name, rest)

def word? (cs : List Char) : Option (Bool × List Char × List Char) :=
  if spoiledLiteral cs then none else anyWord? cs

/-- What a literal failed to be written as. -/
def errorLiteral : List Char := ['(', '/', '*', 'E', 'R', 'R', 'O', 'R', '*', '/', ')']

def literal? (cs : List Char) : Option (Token × List Char) :=
  (Literal.end? cs).map fun rest =>
    (.literal (String.ofList (cs.take (cs.length - rest.length))), rest)

/-- An apostrophe that starts no character: a lifetime, unless another apostrophe or a number sign
ends the name. A lone mark remains only where a literal follows. -/
def lifetime? (cs : List Char) : Option (Token × List Char) := do
  let (raw, _, after) ← anyWord? cs
  match after with
  | '\x27' :: _ => none
  | '#' :: _ => if raw then pure () else none
  | _ => pure ()
  match Literal.end? cs, word? cs with
  | none, some (raw, name, rest) =>
    some (.lifetime (String.ofList (if raw then 'r' :: '#' :: name else name)), rest)
  | _, _ => some (.mark '\x27' true, cs)

def mark? (cs : List Char) : Option (Token × List Char) :=
  match cs with
  | [] => none
  | c :: rest =>
    if !startsMark cs then none
    else if c = '\x27' then lifetime? rest
    else some (.mark c (startsMark rest), rest)

def token? (cs : List Char) : Option (Token × List Char) :=
  literal? cs <|> mark? cs <|>
    (word? cs).map fun (raw, name, rest) => (.word raw (String.ofList name), rest)

def bracket? : Char → Option Lexeme
  | '(' => some (.opening .paren)
  | '[' => some (.opening .bracket)
  | '\x7b' => some (.opening .brace)
  | ')' => some (.closing .paren)
  | ']' => some (.closing .bracket)
  | '\x7d' => some (.closing .brace)
  | _ => none

/-- The lexemes that start a text, none for a blank or a comment. -/
def step? (cs : List Char) : Option (List Lexeme × List Char) :=
  match blank? cs with
  | some rest => some ([], rest)
  | none => doc? cs <|>
    if errorLiteral.isPrefixOf cs then
      some ([.token (.literal (String.ofList errorLiteral))], cs.drop errorLiteral.length)
    else match cs with
      | [] => none
      | c :: rest => match bracket? c with
        | some bracket => some ([bracket], rest)
        | none => (token? cs).map fun (token, rest) => ([.token token], rest)

/-- The lexemes of a text; every step takes at least one of its `fuel` many characters. -/
def lexemesIn? (fuel : Nat) (cs : List Char) : Option (List Lexeme) :=
  match cs, fuel with
  | [], _ => some []
  | _ :: _, 0 => none
  | _ :: _, fuel + 1 => do
    let (lexemes, rest) ← step? cs
    return lexemes ++ (← lexemesIn? fuel rest)

def lexemes? (cs : List Char) : Option (List Lexeme) := lexemesIn? cs.length cs

/-- Match the brackets. `outer` holds the groups that are open, the innermost first, each with the
trees before it in reverse; `inner` holds those of the current one. -/
def nest? (outer : List (Delimiter × List Tree)) (inner : List Tree) :
    List Lexeme → Option (List Tree)
  | [] => if outer.isEmpty then some inner.reverse else none
  | .token token :: rest => nest? outer (.leaf token :: inner) rest
  | .opening delimiter :: rest => nest? ((delimiter, inner) :: outer) [] rest
  | .closing delimiter :: rest =>
    match outer with
    | [] => none
    | (opened, before) :: outer =>
      if opened = delimiter then nest? outer (.group delimiter inner.reverse :: before) rest
      else none

/-- The trees of a text without byte order mark. -/
def treesOf? (cs : List Char) : Option (List Tree) := lexemes? cs >>= nest? [] []

def dropByteOrderMark : List Char → List Char
  | '\ufeff' :: rest => rest
  | cs => cs

end Lexer

/-- The token trees of a text; nothing if it has a stray character, an unfinished literal or
comment, or brackets that do not match. -/
def Tree.ofText? (text : String) : Option (List Tree) :=
  Lexer.treesOf? (Lexer.dropByteOrderMark text.toList)

end ComponentRegistry
