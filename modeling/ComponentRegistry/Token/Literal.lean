import ComponentRegistry.Text.Identifier

/-! Literals: where one ends, and what a string literal stands for. Each reader takes the text from
the first character of its part on and gives what is left after it, or nothing if the text is no
such part. -/

namespace ComponentRegistry.Literal

open Text

/-- What the characters of a quoted literal make up. -/
inductive Content where
  | text | bytes | cString
  deriving DecidableEq

/-- A character that may stand for itself between quotes. -/
def Content.admits : Content → Char → Bool
  | text, _ => true
  | bytes, c => isAscii c
  | cString, c => c != '\x00'

def hexDigit? (c : Char) : Option Nat :=
  if c.isDigit then some (c.toNat - '0'.toNat)
  else if 'a' ≤ c && c ≤ 'f' then some (c.toNat - 'a'.toNat + 10)
  else if 'A' ≤ c && c ≤ 'F' then some (c.toNat - 'A'.toNat + 10)
  else none

/-- Two hexadecimal digits: an ASCII character in a text, any byte but zero in a C string. -/
def hexEscape? (content : Content) : List Char → Option (Char × List Char)
  | a :: b :: rest => do
    let high ← hexDigit? a
    let low ← hexDigit? b
    let value := 16 * high + low
    if (content = .text && 8 ≤ high) || (content = .cString && value = 0) then none
    else some (Char.ofNat value, rest)
  | _ => none

/-- One to six hexadecimal digits up to the closing brace, with underscores after the first. -/
def codePoint? (value digits : Nat) : List Char → Option (Nat × List Char)
  | [] => none
  | c :: rest =>
    if c = '\x7d' then if 0 < digits then some (value, rest) else none
    else if c = '_' then if 0 < digits then codePoint? value digits rest else none
    else match hexDigit? c with
      | none => none
      | some digit => if digits = 6 then none else codePoint? (16 * value + digit) (digits + 1) rest

/-- A code point in braces; it has to be a character, and not NUL in a C string. -/
def unicodeEscape? (content : Content) : List Char → Option (Char × List Char)
  | '\x7b' :: rest => do
    let (value, rest) ← codePoint? 0 0 rest
    if content = .bytes || (content = .cString && value = 0) then none
    else if value.isValidChar then some (Char.ofNat value, rest) else none
  | _ => none

/-- What follows a backslash, a line break apart. -/
def escape? (content : Content) : List Char → Option (Char × List Char)
  | [] => none
  | c :: rest =>
    if c = 'n' then some ('\n', rest)
    else if c = 'r' then some ('\r', rest)
    else if c = 't' then some ('\t', rest)
    else if c = '\\' || c = '\x27' || c = '\x22' then some (c, rest)
    else if c = '0' then if content = .cString then none else some ('\x00', rest)
    else if c = 'x' then hexEscape? content rest
    else if c = 'u' then unicodeEscape? content rest
    else none

/-- A backslash at the end of a line joins it to the first character of the next one that is no
blank. -/
def joinLines? : List Char → Option (List Char)
  | [] => none
  | c :: rest =>
    if c = ' ' || c = '\t' || c = '\n' then joinLines? rest
    else if c = '\r' then match rest with
      | '\n' :: rest => joinLines? rest
      | _ => none
    else some (c :: rest)

/-- A line break, with or without carriage return. -/
def lineBreak? : List Char → Option (List Char)
  | '\n' :: rest => some rest
  | '\r' :: '\n' :: rest => some rest
  | _ => none

theorem hexEscape?_length {content cs c rest} (h : hexEscape? content cs = some (c, rest)) :
    rest.length < cs.length := by
  unfold hexEscape? at h
  split at h
  · simp only [Option.bind_eq_bind, Option.bind_eq_some_iff] at h
    obtain ⟨_, _, _, _, h⟩ := h
    split at h
    · cases h
    · simp only [Option.some.injEq, Prod.mk.injEq] at h
      rw [← h.2, List.length_cons, List.length_cons]
      omega
  · cases h

theorem codePoint?_length {value digits cs n rest} (h : codePoint? value digits cs = some (n, rest)) :
    rest.length < cs.length := by
  induction cs generalizing value digits with
  | nil => simp [codePoint?] at h
  | cons c cs ih =>
    simp only [codePoint?] at h
    repeat' split at h
    all_goals first
      | simp only [Option.some.injEq, Prod.mk.injEq] at h; simp [← h.2]
      | exact Nat.lt_succ_of_lt (ih h)
      | simp at h

theorem unicodeEscape?_length {content cs c rest}
    (h : unicodeEscape? content cs = some (c, rest)) : rest.length < cs.length := by
  unfold unicodeEscape? at h
  split at h
  · simp only [Option.bind_eq_bind, Option.bind_eq_some_iff] at h
    obtain ⟨⟨n, r⟩, hn, h⟩ := h
    have := codePoint?_length hn
    simp only [List.length_cons]
    repeat' split at h
    all_goals first
      | simp only [Option.some.injEq, Prod.mk.injEq] at h; rw [← h.2]; omega
      | cases h
  · cases h

theorem escape?_length {content cs c rest} (h : escape? content cs = some (c, rest)) :
    rest.length < cs.length := by
  cases cs with
  | nil => simp [escape?] at h
  | cons e cs =>
    simp only [escape?] at h
    repeat' split at h
    all_goals first
      | simp only [Option.some.injEq, Prod.mk.injEq] at h; simp [← h.2]
      | exact Nat.lt_succ_of_lt (hexEscape?_length h)
      | exact Nat.lt_succ_of_lt (unicodeEscape?_length h)
      | simp at h

theorem joinLines?_length {cs rest} (h : joinLines? cs = some rest) :
    rest.length ≤ cs.length := by
  fun_induction joinLines? cs with
  | case1 => cases h
  | case2 c cs _ ih => exact Nat.le_succ_of_le (ih h)
  | case3 cs _ ih =>
    have := ih h
    simp only [List.length_cons]
    omega
  | case4 => cases h
  | case5 => exact Nat.le_of_eq (by rw [← Option.some.inj h])

theorem lineBreak?_length {cs rest} (h : lineBreak? cs = some rest) :
    rest.length < cs.length := by
  unfold lineBreak? at h
  split at h
  · rw [← Option.some.inj h]; exact Nat.lt_succ_self _
  · rw [← Option.some.inj h, List.length_cons, List.length_cons]; omega
  · cases h

/-- The inside of a quoted literal: what it stands for, and what follows the closing quote. -/
def quoted? (content : Content) (cs : List Char) : Option (List Char × List Char) :=
  match cs with
  | [] => none
  | c :: rest =>
    if c = '\x22' then some ([], rest)
    else if c = '\\' then
      match hb : lineBreak? rest with
      | some after =>
        match hj : joinLines? after with
        | some next =>
          have := lineBreak?_length hb
          have := joinLines?_length hj
          quoted? content next
        | none => none
      | none =>
        match he : escape? content rest with
        | some (char, next) =>
          have := escape?_length he
          (quoted? content next).map fun (value, rest) => (char :: value, rest)
        | none => none
    else if c = '\r' then
      match rest with
      | '\n' :: next => (quoted? content next).map fun (value, rest) => ('\n' :: value, rest)
      | _ => none
    else if content.admits c then
      (quoted? content rest).map fun (value, rest) => (c :: value, rest)
    else none
  termination_by cs.length
  decreasing_by all_goals simp only [List.length_cons]; omega

/-- The inside of a raw literal, up to a quote with `hashes` number signs behind it. -/
def rawQuoted? (content : Content) (hashes : Nat) : List Char → Option (List Char × List Char)
  | [] => none
  | c :: rest =>
    if c = '\x22' && rest.take hashes == List.replicate hashes '#' then
      some ([], rest.drop hashes)
    else if c = '\r' then
      match rest with
      | '\n' :: next =>
        (rawQuoted? content hashes next).map fun (value, rest) => ('\r' :: '\n' :: value, rest)
      | _ => none
    else if content.admits c then
      (rawQuoted? content hashes rest).map fun (value, rest) => (c :: value, rest)
    else none

/-- A raw literal from after its letters on: at most 255 number signs, then the quote. -/
def raw? (content : Content) (cs : List Char) : Option (List Char × List Char) :=
  let hashes := (cs.takeWhile (· = '#')).length
  match cs.drop hashes with
  | '\x22' :: rest => if hashes ≤ 255 then rawQuoted? content hashes rest else none
  | _ => none

/-- A text literal: its value and what follows its closing quote. -/
def string? : List Char → Option (List Char × List Char)
  | '\x22' :: rest => quoted? .text rest
  | 'r' :: rest => raw? .text rest
  | _ => none

def byteString? : List Char → Option (List Char × List Char)
  | 'b' :: '\x22' :: rest => quoted? .bytes rest
  | 'b' :: 'r' :: rest => raw? .bytes rest
  | _ => none

def cString? : List Char → Option (List Char × List Char)
  | 'c' :: '\x22' :: rest => quoted? .cString rest
  | 'c' :: 'r' :: rest => raw? .cString rest
  | _ => none

/-- One character or escape and the closing apostrophe. -/
def charEnd? (content : Content) : List Char → Option (List Char)
  | [] => none
  | c :: rest => do
    let rest ← if c = '\\' then (escape? content rest).map (·.2)
      else if content.admits c then some rest else none
    match rest with
    | '\x27' :: rest => some rest
    | _ => none

def character? : List Char → Option (List Char)
  | '\x27' :: rest => charEnd? .text rest
  | 'b' :: '\x27' :: rest => charEnd? .bytes rest
  | _ => none

/-- The identifier at the start of a text, without a raw mark, and what follows it. -/
def identifier? : List Char → Option (List Char × List Char)
  | c :: rest =>
    if isIdentStart c then some (c :: rest.takeWhile isIdentContinue, rest.dropWhile isIdentContinue)
    else none
  | [] => none

/-- Any identifier may stand directly after a literal. -/
def dropSuffix (cs : List Char) : List Char :=
  match identifier? cs with
  | some (_, rest) => rest
  | none => cs

def isDigitOrUnderscore (c : Char) : Bool := c.isDigit || c = '_'

/-- What follows the `e` of a float, once a digit of the exponent has been seen. The sign comes
before the digits and only once. -/
def exponentEnd? (signed valued : Bool) : List Char → Option (List Char)
  | [] => if valued then some [] else none
  | c :: rest =>
    if c = '+' || c = '-' then
      if valued then some (c :: rest) else if signed then none else exponentEnd? true valued rest
    else if c.isDigit then exponentEnd? signed true rest
    else if c = '_' then exponentEnd? signed valued rest
    else if valued then some (c :: rest) else none

/-- The digits of a float: it has a point that neither a second point nor a letter follows, or an
exponent. An `e` without a value after a point belongs to the suffix. -/
def floatDigits? (cs : List Char) : Option (List Char) :=
  match cs with
  | [] => none
  | c :: _ =>
    if !c.isDigit then none
    else match cs.dropWhile isDigitOrUnderscore with
      | '.' :: rest =>
        if rest.head?.any fun d => d = '.' || isIdentStart d then none
        else
          let rest := rest.dropWhile isDigitOrUnderscore
          match rest with
          | e :: after =>
            if e = 'e' || e = 'E' then some ((exponentEnd? false false after).getD rest)
            else some rest
          | [] => some rest
      | e :: after => if e = 'e' || e = 'E' then exponentEnd? false false after else none
      | [] => none

/-- The base of an integer, and its digits. -/
def intBase : List Char → Nat × List Char
  | '0' :: 'x' :: rest => (16, rest)
  | '0' :: 'o' :: rest => (8, rest)
  | '0' :: 'b' :: rest => (2, rest)
  | cs => (10, cs)

/-- The digits of an integer: a decimal digit that is too large for the base spoils it, a letter
that is ends it. -/
def intDigits? (base : Nat) (empty : Bool) : List Char → Option (List Char)
  | [] => if empty then none else some []
  | c :: rest =>
    if c = '_' then
      if empty && base = 10 then none else intDigits? base empty rest
    else match hexDigit? c with
      | some digit =>
        if digit < base then intDigits? base false rest
        else if c.isDigit || empty then none else some (c :: rest)
      | none => if empty then none else some (c :: rest)

/-- A number ends where no identifier could go on. -/
def numberEnd? (cs : List Char) : Option (List Char) :=
  let rest := dropSuffix cs
  if rest.head?.any isIdentContinue then none else some rest

def float? (cs : List Char) : Option (List Char) := floatDigits? cs >>= numberEnd?

def int? (cs : List Char) : Option (List Char) :=
  intDigits? (intBase cs).1 true (intBase cs).2 >>= numberEnd?

/-- What follows the literal at the start of a text. -/
def end? (cs : List Char) : Option (List Char) :=
  ((string? cs).map (dropSuffix ·.2)) <|> ((byteString? cs).map (dropSuffix ·.2)) <|>
  ((cString? cs).map (dropSuffix ·.2)) <|> ((character? cs).map dropSuffix) <|>
  float? cs <|> int? cs

/-- The value of a text literal. -/
def stringValue? (literal : String) : Option String :=
  (string? literal.toList).map fun (value, _) => String.ofList value

def isNumber (literal : String) : Bool := literal.toList.head?.any Char.isDigit

def isFloat (literal : String) : Bool := (float? literal.toList).isSome

def intValue? (base : Nat) : List Char → Option Nat :=
  List.foldl (fun value c => do
    let value ← value
    if c = '_' then some value
    else
      let digit ← hexDigit? c
      if digit < base then some (base * value + digit) else none) (some 0)

/-- The position in a tuple that an integer without suffix names. -/
def tupleIndex? (digits : List Char) : Option Nat := do
  let _ ← int? digits
  let value ← intValue? (intBase digits).1 (intBase digits).2
  if value < 0x100000000 then some value else none

end ComponentRegistry.Literal
