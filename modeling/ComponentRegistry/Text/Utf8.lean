/-! Reading bytes as text when some of them may be no UTF-8. -/

namespace ComponentRegistry.Text

/-- What stands for bytes that are no text. -/
def replacement : Char := '\ufffd'

/-- For a first byte the number of bytes that follow, the least and the greatest value of the first
of them, and the bits that it gives. This leaves out long forms and surrogates. -/
def firstByte? (b : UInt8) : Option (Nat × UInt8 × UInt8 × Nat) :=
  if b < 0x80 then some (0, 0, 0, b.toNat)
  else if b < 0xC2 then none
  else if b < 0xE0 then some (1, 0x80, 0xBF, b.toNat - 0xC0)
  else if b == 0xE0 then some (2, 0xA0, 0xBF, 0)
  else if b == 0xED then some (2, 0x80, 0x9F, 0xD)
  else if b < 0xF0 then some (2, 0x80, 0xBF, b.toNat - 0xE0)
  else if b == 0xF0 then some (3, 0x90, 0xBF, 0)
  else if b < 0xF4 then some (3, 0x80, 0xBF, b.toNat - 0xF0)
  else if b == 0xF4 then some (3, 0x80, 0x8F, 4)
  else none

/-- Read the bytes that follow a first one, as far as they can follow it. -/
def followingBytes (bits : Nat) : Nat → UInt8 → UInt8 → List UInt8 → Option Nat × List UInt8
  | 0, _, _, rest => (some bits, rest)
  | _ + 1, _, _, [] => (none, [])
  | n + 1, least, greatest, b :: rest =>
    if least ≤ b && b ≤ greatest then
      followingBytes (bits * 64 + (b.toNat - 0x80)) n 0x80 0xBF rest
    else (none, b :: rest)

theorem length_followingBytes_le (bits n : Nat) (least greatest : UInt8) (bytes : List UInt8) :
    (followingBytes bits n least greatest bytes).2.length ≤ bytes.length := by
  fun_induction followingBytes with
  | case1 => exact Nat.le_refl _
  | case2 => exact Nat.le_refl _
  | case3 _ _ _ _ _ _ _ ih => exact Nat.le_succ_of_le ih
  | case4 => exact Nat.le_refl _

/-- The text of some bytes. Bytes that start a character and do not end it are replaced together,
all others that are no text one by one. -/
def ofBytes (bytes : List UInt8) : List Char :=
  match bytes with
  | [] => []
  | b :: rest =>
    match firstByte? b with
    | none => replacement :: ofBytes rest
    | some (n, least, greatest, bits) =>
      ((followingBytes bits n least greatest rest).1.elim replacement Char.ofNat) ::
        ofBytes (followingBytes bits n least greatest rest).2
termination_by bytes.length
decreasing_by
  · simp
  · have := length_followingBytes_le bits n least greatest rest
    simp only [List.length_cons]; omega

end ComponentRegistry.Text
