import ComponentRegistry.Token.Basic

/-! Why a list of token trees is not what was to be read. -/

namespace ComponentRegistry.Grammar

inductive Failure where
  /-- None of the wanted alternatives stands here; at the end of the input this is said, too. -/
  | expected (wanted : List String) (atEnd : Bool)
  /-- A keyword in the place of an identifier. -/
  | keyword (name : String)
  /-- Trees are left over; inside a group its closing bracket was due. -/
  | leftover (within : Option Delimiter)
  /-- A form that can be read but is not allowed. -/
  | refused (reason : String) (atEnd : Bool)
  /-- Deeper nesting than the reader was made for. -/
  | tooDeep
  deriving DecidableEq, Repr

def Delimiter.closer : Delimiter → String
  | .paren => ")"
  | .bracket => "]"
  | .brace => "\x7d"

/-- How an alternative list is put into words. -/
def Failure.choice : List String → String
  | [] => ""
  | [a] => "expected " ++ a
  | [a, b] => "expected " ++ a ++ " or " ++ b
  | wanted => "expected one of: " ++ ", ".intercalate wanted

def Failure.message : Failure → String
  | expected [] true => "unexpected end of input"
  | expected [] false => "unexpected token"
  | expected wanted atEnd =>
    (if atEnd then "unexpected end of input, " else "") ++ choice wanted
  | keyword name => "expected identifier, found keyword `" ++ name ++ "`"
  | leftover none => "unexpected token"
  | leftover (some delimiter) => "unexpected token, expected `" ++ Delimiter.closer delimiter ++ "`"
  | refused reason atEnd => (if atEnd then "unexpected end of input, " else "") ++ reason
  | tooDeep => "nesting too deep"

end ComponentRegistry.Grammar
