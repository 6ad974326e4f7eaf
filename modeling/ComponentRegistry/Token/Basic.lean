/-! Tokens of a source text, and the trees that its brackets make of them.

Punctuation is kept character by character. A mark that is joint stands directly before another
mark in the text, so that the two may be read as one operator. -/

namespace ComponentRegistry

inductive Delimiter where
  | paren | bracket | brace
  deriving DecidableEq, Repr

inductive Token where
  /-- An identifier or a keyword; a raw one is written after `r#` and is never a keyword. -/
  | word (raw : Bool) (name : String)
  /-- A lifetime, as it stands after its apostrophe. -/
  | lifetime (name : String)
  | mark (char : Char) (joint : Bool)
  /-- A literal with its suffix, as it stands in the text. -/
  | literal (text : String)
  deriving DecidableEq, Repr

inductive Tree where
  | leaf (token : Token)
  | group (delimiter : Delimiter) (inner : List Tree)
  deriving Repr

namespace Tree

mutual

/-- The number of tokens and groups in a tree. -/
def size : Tree → Nat
  | leaf _ => 1
  | group _ inner => 1 + sizeAll inner

def sizeAll : List Tree → Nat
  | [] => 0
  | tree :: rest => size tree + sizeAll rest

end

def word (name : String) : Tree := leaf (.word false name)

def mark (char : Char) (joint : Bool) : Tree := leaf (.mark char joint)

/-- The next tree follows without a space. -/
def isJoint : Tree → Bool
  | leaf (.mark _ joint) => joint
  | _ => false

/-- A punctuation operator: its marks stick together, and the last one is free. -/
def operator (chars : List Char) : List Tree :=
  match chars with
  | [] => []
  | [c] => [mark c false]
  | c :: rest => mark c true :: operator rest

end Tree

namespace Delimiter

/-- What stands before and after the trees of a group; only braces keep a distance. -/
def opening : Delimiter → List Char
  | paren => ['(']
  | bracket => ['[']
  | brace => ['\x7b', ' ']

def closing : Delimiter → List Char
  | paren => [')']
  | bracket => [']']
  | brace => ['\x7d']

end Delimiter

def Token.chars : Token → List Char
  | word raw name => (if raw then ['r', '#'] else []) ++ name.toList
  | lifetime name => '\x27' :: name.toList
  | mark char _ => [char]
  | literal text => text.toList

namespace Tree

mutual

/-- The text of a tree. -/
def chars : Tree → List Char
  | leaf token => token.chars
  | group delimiter inner =>
    delimiter.opening ++ charsAll inner ++
      (if delimiter = .brace && !inner.isEmpty then [' '] else []) ++ delimiter.closing

/-- The text of a list of trees: one space between two of them, none after a joint mark. -/
def charsAll : List Tree → List Char
  | [] => []
  | tree :: rest =>
    chars tree ++ (if rest.isEmpty || tree.isJoint then [] else [' ']) ++ charsAll rest

end

def text (trees : List Tree) : String := String.ofList (charsAll trees)

end Tree

end ComponentRegistry
