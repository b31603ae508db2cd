import Leasehold.Text.Decimal
import Leasehold.Toml.Quoted

set_option autoImplicit false

/-! Numbers of TOML: integers of 64 bits in four bases and floats. -/

namespace Leasehold.Toml

/-- The digits after a first one. Single underscores may stand between digits. -/
def moreDigits (isDigit : Char → Bool) : Reader (List Char)
  | '_' :: digit :: rest => do
      if !isDigit digit then none
      let (digits, rest) ← moreDigits isDigit rest
      some (digit :: digits, rest)
  | ['_'] => none
  | character :: rest => do
      if isDigit character then
        let (digits, rest) ← moreDigits isDigit rest
        some (character :: digits, rest)
      else some ([], character :: rest)
  | [] => some ([], [])

def digits (isDigit : Char → Bool) : Reader (List Char)
  | digit :: rest => do
      if !isDigit digit then none
      let (digits, rest) ← moreDigits isDigit rest
      some (digit :: digits, rest)
  | [] => none

def sign : List Char → Option Char × List Char
  | '+' :: rest => (some '+', rest)
  | '-' :: rest => (some '-', rest)
  | text => (none, text)

def plainDigits : Reader (List Char)
  | '0' :: rest => some (['0'], rest)
  | text => digits Char.isDigit text

def valueOf (base : Nat) (digits : List Char) : Nat :=
  Text.value base (digits.map fun digit => (hexValue? digit).getD 0)

def isBase (base : Nat) (character : Char) : Bool := (hexValue? character).any (· < base)

def inRange (value : Int) : Option Int :=
  if -0x8000000000000000 ≤ value ∧ value < 0x8000000000000000 then some value else none

def integerIn (base : Nat) (text : List Char) : Option (Int × List Char) := do
  let (digits, rest) ← digits (isBase base) text
  some (← inRange (valueOf base digits), rest)

def integer : Reader Int
  | '0' :: 'x' :: rest => integerIn 16 rest
  | '0' :: 'o' :: rest => integerIn 8 rest
  | '0' :: 'b' :: rest => integerIn 2 rest
  | text => do
      let (sign, rest) := sign text
      let (digits, rest) ← plainDigits rest
      let magnitude : Int := valueOf 10 digits
      some (← inRange (if sign = some '-' then -magnitude else magnitude), rest)

/-! ### Floats -/

/-- The smallest number that is rounded to infinity in 64 bits. -/
def overflow : Nat := Nat.pow 2 1024 - Nat.pow 2 970

/-- Whether a decimal number has a finite neighbour in 64 bits. Its size alone decides far away from
the limit, so that no huge power has to be computed. -/
def isFinite (mantissa : List Char) (exponent : Int) : Bool :=
  let digits := mantissa.dropWhile (· = '0')
  let number := valueOf 10 digits
  let size := digits.length + exponent
  if number = 0 || size < 300 then true
  else if 320 < size then false
  else if 0 ≤ exponent then number * Nat.pow 10 exponent.toNat < overflow
  else number < overflow * Nat.pow 10 (-exponent).toNat

def fraction : Reader (List Char)
  | '.' :: rest => digits Char.isDigit rest
  | text => some ([], text)

def exponent : Reader (Option Int)
  | character :: rest =>
      if character = 'e' || character = 'E' then do
        let (sign, rest) := sign rest
        let (digits, rest) ← digits Char.isDigit rest
        let magnitude : Int := valueOf 10 digits
        some (some (if sign = some '-' then -magnitude else magnitude), rest)
      else some (none, character :: rest)
  | [] => some (none, [])

def specialFloat : Reader Unit
  | 'i' :: 'n' :: 'f' :: rest => some ((), rest)
  | 'n' :: 'a' :: 'n' :: rest => some ((), rest)
  | _ => none

def readBefore (text rest : List Char) : String :=
  String.ofList (text.take (text.length - rest.length))

/-- A float has a fraction or an exponent or is a special one. Only numbers above all finite ones are
refused. -/
def float (text : List Char) : Option (String × List Char) :=
  let (sign, unsigned) := sign text
  let special := (specialFloat unsigned).map fun (_, rest) => (readBefore text rest, rest)
  special <|> do
    let (whole, afterWhole) ← plainDigits unsigned
    let (part, afterPart) ← fraction afterWhole
    let (power, rest) ← exponent afterPart
    if part = [] ∧ power = none then none
    if sign = some '-' ∨ isFinite (whole ++ part) (power.getD 0 - part.length) then
      some (readBefore text rest, rest)
    else none

end Leasehold.Toml
