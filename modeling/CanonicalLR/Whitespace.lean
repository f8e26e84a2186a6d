/-!
Contract: white space.

Owns:
- the characters that are white space;
- the text without the white space around it.

Does not own: the blanks between the tokens of a grammar, which are fewer.
-/

namespace CanonicalLR.Whitespace

/-- The characters with the property White_Space. -/
def contains (character : Char) : Bool :=
  let code := character.toNat
  (0x9 ≤ code && code ≤ 0xd) || code = 0x20 || code = 0x85 || code = 0xa0 || code = 0x1680 ||
    (0x2000 ≤ code && code ≤ 0x200a) || code = 0x2028 || code = 0x2029 || code = 0x202f ||
    code = 0x205f || code = 0x3000

/-- The text without the white space at its beginning and at its end. -/
def trim (text : String) : String :=
  String.ofList
    (((text.toList.dropWhile contains).reverse.dropWhile contains).reverse)

end CanonicalLR.Whitespace
