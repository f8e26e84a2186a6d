/-!
Contract: ranges of characters as sequences of bytes.

Owns:
- the bytes of a character;
- the sequences of ranges of bytes that make up a range of characters.

Does not own: sets of characters.

A range is cut up until each piece is all the ways to take a byte of each of its
sequence's ranges: where the number of bytes changes, and where the bytes behind a
leading byte do not run through all of their values.
-/

namespace CanonicalLR

/-- The bytes from the first to the last one. -/
structure ByteRange where
  first : Nat
  last : Nat
deriving DecidableEq

namespace Encoding

/-- The byte with number `place` from the end; it carries six bits of the code. -/
def follower (code place : Nat) : Nat :=
  0x80 + (code >>> (6 * place)) % 0x40

/-- The bytes of the character with a code. -/
def bytes (code : Nat) : List Nat :=
  if code < 0x80 then [code]
  else if code < 0x800 then [0xc0 + code / 0x40, follower code 0]
  else if code < 0x10000 then [0xe0 + code / 0x1000, follower code 1, follower code 0]
  else [0xf0 + code / 0x40000, follower code 2, follower code 1, follower code 0]

/-- The codes with the same number of bytes, in runs, each with the sizes of the blocks
that share all bytes but the last one, the last two and the last three. -/
def zones : List (Nat × Nat × List Nat) :=
  [(0, 0x7f, []), (0x80, 0x7ff, [0x40]), (0x800, 0xd7ff, [0x40, 0x1000]),
    (0xe000, 0xffff, [0x40, 0x1000]), (0x10000, 0x10ffff, [0x40, 0x1000, 0x40000])]

/-- The pieces of a range that either lie within one block of each size or run through
whole blocks. -/
def cut : List Nat → Nat → Nat → List (Nat × Nat)
  | [], first, last => [(first, last)]
  | size :: sizes, first, last =>
      if first / size = last / size then
        cut sizes first last
      else
        let start := if first % size = 0 then first else (first / size + 1) * size
        let stop := if last % size = size - 1 then last + 1 else last / size * size
        let head := if first < start then [(first, start - 1)] else []
        let tail := if stop ≤ last then [(stop, last)] else []
        let middle := if start < stop then cut sizes start (stop - 1) else []
        head ++ middle ++ tail

/-- The sequence of a piece: it runs from the bytes of its first character to those of
its last one. -/
def sequence (first last : Nat) : List ByteRange :=
  List.zipWith ByteRange.mk (bytes first) (bytes last)

/-- The sequences that make up the characters from the first code to the last one. -/
def sequences (first last : Nat) : List (List ByteRange) :=
  zones.flatMap fun (low, high, sizes) =>
    let first := max first low
    let last := min last high
    if first ≤ last then (cut sizes first last).map fun (first, last) => sequence first last
    else []

end Encoding

end CanonicalLR
