import ComponentRegistry.Text.LetterCase

/-! Snake case: a name is cut into words, the words are lowered and joined by underscores. A name is
cut at every character that is no letter or digit, between a lower-case and an upper-case letter,
and before the last of several upper-case letters if a lower-case one follows. -/

namespace ComponentRegistry.Text

/-- The case that the letters of the current word have last shown. -/
inductive WordCase where
  | boundary | lower | upper
  deriving DecidableEq

def WordCase.after (mode : WordCase) (c : Char) : WordCase :=
  if isLowercase c then .lower else if isUppercase c then .upper else mode

/-- Words of a piece of letters and digits; `word` holds the current word, last character first. -/
def wordsFrom (mode : WordCase) (word : List Char) : List Char → List (List Char)
  | [] => []
  | [c] => [(c :: word).reverse]
  | c :: d :: rest =>
    if mode.after c == .lower && isUppercase d then
      (c :: word).reverse :: wordsFrom .boundary [] (d :: rest)
    else if mode == .upper && isUppercase c && isLowercase d then
      word.reverse :: wordsFrom .boundary [c] (d :: rest)
    else wordsFrom (mode.after c) (c :: word) (d :: rest)

/-- Maximal pieces of letters and digits, with empty ones between two neighbouring separators. -/
def pieces : List Char → List (List Char)
  | [] => [[]]
  | c :: rest =>
    if isAlphanumeric c then
      match pieces rest with
      | piece :: more => (c :: piece) :: more
      | [] => [[c]]
    else [] :: pieces rest

/-- A final capital sigma has a lower-case form of its own. -/
def lowerWord : List Char → List Char
  | [] => []
  | ['Σ'] => ['ς']
  | c :: rest => lowercase c ++ lowerWord rest

def snakeWords (s : List Char) : List (List Char) :=
  (pieces s).flatMap (wordsFrom .boundary []) |>.map lowerWord

def snakeCase (s : String) : String :=
  "_".intercalate ((snakeWords s.toList).map String.ofList)

end ComponentRegistry.Text
