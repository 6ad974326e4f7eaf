/-! Digests of texts: a fast hash of 64 bits that tells an edited declaration from an unedited one.
All arithmetic is modulo the word size. -/

namespace ComponentRegistry.Digest

/-- The number that bytes make up, the lowest one first. -/
def word (bytes : List UInt8) : UInt64 :=
  bytes.foldr (fun byte high => (high <<< 8) ||| byte.toUInt64) 0

/-- Both halves of the double product, one laid over the other. -/
def mix (x y : UInt64) : UInt64 :=
  let product := x.toNat * y.toNat
  UInt64.ofNat product ^^^ UInt64.ofNat (product >>> 64)

def seed0 : UInt64 := 0x243f6a8885a308d3

def seed1 : UInt64 := 0x13198a2e03707344

def blockSeed : UInt64 := 0xa4093822299f31d0

/-- Take in blocks of sixteen bytes, as long as more than one is left. -/
def blocks (length : Nat) (bytes : List UInt8) (s0 s1 : UInt64) : UInt64 × UInt64 :=
  if 16 < length then
    let t := mix (s0 ^^^ word (bytes.take 8)) (blockSeed ^^^ word ((bytes.drop 8).take 8))
    blocks (length - 16) (bytes.drop 16) s1 t
  else (s0, s1)
termination_by length

/-- The word at the front, and the one at the end. -/
def ends (width length : Nat) (bytes : List UInt8) : UInt64 × UInt64 :=
  (word (bytes.take width), word (bytes.drop (length - width)))

def ofBytes (bytes : List UInt8) : UInt64 :=
  let n := bytes.length
  let byte (i : Nat) : UInt64 := (bytes.getD i 0).toUInt64
  let (s0, s1) :=
    if n = 0 then (seed0, seed1)
    else if n < 4 then (seed0 ^^^ byte 0, seed1 ^^^ ((byte (n - 1) <<< 8) ||| byte (n / 2)))
    else if n < 8 then
      let (first, last) := ends 4 n bytes
      (seed0 ^^^ first, seed1 ^^^ last)
    else if n ≤ 16 then
      let (first, last) := ends 8 n bytes
      (seed0 ^^^ first, seed1 ^^^ last)
    else
      let (s0, s1) := blocks n bytes seed0 seed1
      let tail := bytes.drop (n - 16)
      (s0 ^^^ word (tail.take 8), s1 ^^^ word (tail.drop 8))
  mix s0 s1 ^^^ UInt64.ofNat n

/-- Take one more word into the state. -/
def add (state value : UInt64) : UInt64 := (state + value) * 0xf1357aea2e62a9c5

def addText (state : UInt64) (text : String) : UInt64 :=
  add (add state (ofBytes text.toUTF8.toList)) 0xff

def rotateLeft (value count : UInt64) : UInt64 :=
  (value <<< count) ||| (value >>> (64 - count))

/-- The digest of a list of names and a text. -/
def ofTexts (names : List String) (text : String) : UInt64 :=
  rotateLeft (addText (names.foldl addText (add 0 (UInt64.ofNat names.length))) text) 26

end ComponentRegistry.Digest
