set_option autoImplicit false

/-! Blank characters: those with the Unicode property White_Space. -/

namespace Leasehold.Text

/-- The code points with the property White_Space, as ranges with both ends. -/
def blankRanges : List (Nat × Nat) :=
  [(0x9, 0xd), (0x20, 0x20), (0x85, 0x85), (0xa0, 0xa0), (0x1680, 0x1680), (0x2000, 0x200a),
    (0x2028, 0x2029), (0x202f, 0x202f), (0x205f, 0x205f), (0x3000, 0x3000)]

def isBlank (character : Char) : Bool :=
  blankRanges.any fun (first, last) => first ≤ character.toNat && character.toNat ≤ last

example : (blankRanges.map fun (first, last) => last + 1 - first).sum = 25 := by decide

def trim (characters : List Char) : List Char :=
  ((characters.dropWhile isBlank).reverse.dropWhile isBlank).reverse

end Leasehold.Text
