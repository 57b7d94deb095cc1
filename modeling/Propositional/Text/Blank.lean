/-!
Blank characters, the twenty-five that have the Unicode property White_Space.
They separate the tokens of a formula and the names of a list, and carry no
meaning of their own.
-/

namespace Propositional

set_option autoImplicit false

/-- The scalar values with the property White_Space, as closed ranges in ascending order. -/
def blankRanges : List (Nat × Nat) :=
  [(0x9, 0xD), (0x20, 0x20), (0x85, 0x85), (0xA0, 0xA0), (0x1680, 0x1680), (0x2000, 0x200A),
    (0x2028, 0x2029), (0x202F, 0x202F), (0x205F, 0x205F), (0x3000, 0x3000)]

def isBlank (character : Char) : Bool :=
  blankRanges.any fun range => decide (range.1 ≤ character.toNat ∧ character.toNat ≤ range.2)

end Propositional
