import ComponentRegistry.Text.CharRange

/-! White space between tokens. -/

namespace ComponentRegistry.Text

/-- `White_Space`, and the two marks that set the direction of writing. -/
def isBlank (c : Char) : Bool :=
  if isAscii c then c == ' ' || 0x09 ≤ c.toNat && c.toNat ≤ 0x0D
  else inRanges [(0x85, 0x85), (0xA0, 0xA0), (0x1680, 0x1680), (0x2000, 0x200A), (0x200E, 0x200F),
    (0x2028, 0x2029), (0x202F, 0x202F), (0x205F, 0x205F), (0x3000, 0x3000)] c

end ComponentRegistry.Text
