/-!
The Unicode property `White_Space`, and trimming by it.
-/

namespace ShapeRules.Text

/-- First and last code point of each run of characters with the property `White_Space`. -/
def spaceRanges : List (Nat × Nat) :=
  [(0x09, 0x0D), (0x20, 0x20), (0x85, 0x85), (0xA0, 0xA0), (0x1680, 0x1680), (0x2000, 0x200A),
    (0x2028, 0x2029), (0x202F, 0x202F), (0x205F, 0x205F), (0x3000, 0x3000)]

/-- The character has the property `White_Space`. -/
def isSpace (c : Char) : Bool :=
  spaceRanges.any fun (first, last) => first ≤ c.toNat && c.toNat ≤ last

/-- The text without the white space before and after it. -/
def trim (text : String) : String :=
  let front := text.toList.dropWhile isSpace
  String.ofList (front.reverse.dropWhile isSpace).reverse

/-- The text holds nothing but white space. -/
def isBlank (text : String) : Bool :=
  text.toList.all isSpace

end ShapeRules.Text
