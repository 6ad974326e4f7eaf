/-! Sets of characters outside ASCII, given by runs of code points. -/

namespace ComponentRegistry.Text

/-- The code point of `c` lies in one of the closed ranges. -/
def inRanges (ranges : List (Nat × Nat)) (c : Char) : Bool :=
  ranges.any fun (first, last) => first ≤ c.toNat && c.toNat ≤ last

/-- The code point of `c` is one of every `step`-th ones from `first` to `last`. -/
def inStride (c : Char) (first last step : Nat) : Bool :=
  first ≤ c.toNat && c.toNat ≤ last && (c.toNat - first) % step == 0

def inStrides (strides : List (Nat × Nat × Nat)) (c : Char) : Bool :=
  strides.any fun (first, last, step) => inStride c first last step

/-- Below the first code point that the range tables speak of. -/
def isAscii (c : Char) : Bool := c.toNat < 0x80

end ComponentRegistry.Text
