/-!
Natural numbers in decimal digits, as they are accepted from a command line: one or more of
the ten ASCII digits, after a plus sign if there is one. Leading zeros do not matter.
-/

namespace Propositional

set_option autoImplicit false

def digitValue (digit : Char) : Nat := digit.toNat - '0'.toNat

def ofDigits (digits : List Char) : Nat :=
  digits.foldl (fun value digit => 10 * value + digitValue digit) 0

def ofUnsigned? (greatest : Nat) (digits : List Char) : Option Nat :=
  if digits ≠ [] ∧ digits.all Char.isDigit ∧ ofDigits digits ≤ greatest then
    some (ofDigits digits)
  else
    none

/-- The number that the characters write, unless it exceeds the greatest one allowed. -/
def ofDecimal? (greatest : Nat) : List Char → Option Nat
  | '+' :: digits => ofUnsigned? greatest digits
  | digits => ofUnsigned? greatest digits

theorem of_unsigned_eq_some_iff (greatest : Nat) (digits : List Char) (value : Nat) :
    ofUnsigned? greatest digits = some value ↔
      digits ≠ [] ∧ (∀ digit ∈ digits, digit.isDigit) ∧ ofDigits digits = value ∧
        value ≤ greatest := by
  rw [ofUnsigned?, Option.ite_none_right_eq_some, List.all_eq_true]
  constructor
  · rintro ⟨⟨nonempty, all, small⟩, same⟩
    cases same
    exact ⟨nonempty, all, rfl, small⟩
  · rintro ⟨nonempty, all, rfl, small⟩
    exact ⟨⟨nonempty, all, small⟩, rfl⟩

theorem of_decimal_eq_some_iff (greatest : Nat) (characters : List Char) (value : Nat) :
    ofDecimal? greatest characters = some value ↔
      ∃ digits, (characters = digits ∨ characters = '+' :: digits) ∧ digits ≠ [] ∧
        (∀ digit ∈ digits, digit.isDigit) ∧ ofDigits digits = value ∧ value ≤ greatest := by
  have sign : ('+').isDigit = false := by decide
  constructor
  · intro read
    unfold ofDecimal? at read
    split at read
    next digits => exact ⟨digits, .inr rfl, (of_unsigned_eq_some_iff _ _ _).1 read⟩
    next => exact ⟨characters, .inl rfl, (of_unsigned_eq_some_iff _ _ _).1 read⟩
  · rintro ⟨digits, written, writes⟩
    have accepted := (of_unsigned_eq_some_iff greatest digits value).2 writes
    rcases written with rfl | rfl
    · unfold ofDecimal?
      split
      next =>
        -- a sign is not a digit
        have digit := writes.2.1 '+' List.mem_cons_self
        rw [sign] at digit
        cases digit
      next => exact accepted
    · exact accepted

example : ofDecimal? 25 ['+', '0', '0', '7'] = some 7 := by decide

end Propositional
