set_option autoImplicit false

/-! Natural numbers in decimal digits. -/

namespace Leasehold.Text

def digit? (character : Char) : Option Nat :=
  if '0' ≤ character ∧ character ≤ '9' then some (character.toNat - '0'.toNat) else none

/-- The value of digits in a base, read after those already counted. -/
def valueAfter (base counted : Nat) (digits : List Nat) : Nat :=
  digits.foldl (fun value digit => value * base + digit) counted

def value (base : Nat) (digits : List Nat) : Nat := valueAfter base 0 digits

/-- A number up to a bound: at least one digit and nothing else. Leading zeros count for nothing. -/
def digits? (bound : Nat) (characters : List Char) : Option Nat := do
  if characters.isEmpty then none
  let number := value 10 (← characters.mapM digit?)
  if number ≤ bound then some number else none

/-- A number up to a bound, with one plus sign allowed in front. -/
def natural? (bound : Nat) : List Char → Option Nat
  | '+' :: digits => digits? bound digits
  | digits => digits? bound digits

end Leasehold.Text
