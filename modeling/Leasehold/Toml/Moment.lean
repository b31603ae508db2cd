import Leasehold.Toml.Number

set_option autoImplicit false

/-! Dates and times of TOML. -/

namespace Leasehold.Toml

def fixedDigits (count : Nat) (text : List Char) : Option (Nat × List Char) := do
  let digits := text.take count
  if digits.length = count ∧ digits.all Char.isDigit then
    some (valueOf 10 digits, text.drop count)
  else none

def twoDigits (least greatest : Nat) (text : List Char) : Option (Nat × List Char) := do
  let (number, rest) ← fixedDigits 2 text
  if least ≤ number ∧ number ≤ greatest then some (number, rest) else none

def expect (character : Char) : List Char → Option (List Char)
  | first :: rest => if first = character then some rest else none
  | [] => none

def isLeapYear (year : Nat) : Bool := year % 4 = 0 && (year % 100 ≠ 0 || year % 400 = 0)

def daysIn (year month : Nat) : Nat :=
  if month = 2 then if isLeapYear year then 29 else 28
  else if month ∈ [4, 6, 9, 11] then 30
  else 31

def date? (text : List Char) : Option (List Char) := do
  let (year, rest) ← fixedDigits 4 text
  let (month, rest) ← twoDigits 1 12 (← expect '-' rest)
  let (_, rest) ← twoDigits 1 (daysIn year month) (← expect '-' rest)
  some rest

def secondFraction? : List Char → Option (List Char)
  | '.' :: rest =>
      if rest.head?.any Char.isDigit then some (rest.dropWhile Char.isDigit) else none
  | text => some text

/-- A minute may have a leap second. -/
def time? (text : List Char) : Option (List Char) := do
  let (_, rest) ← twoDigits 0 23 text
  let (_, rest) ← twoDigits 0 59 (← expect ':' rest)
  let (_, rest) ← twoDigits 0 60 (← expect ':' rest)
  secondFraction? rest

def offset? : List Char → Option (List Char)
  | 'Z' :: rest => some rest
  | 'z' :: rest => some rest
  | text => do
      let (sign, rest) := sign text
      if sign = none then none
      let (_, rest) ← twoDigits 0 23 rest
      let (_, rest) ← twoDigits 0 59 (← expect ':' rest)
      some rest

/-- The time of day after a date, with an offset if there is one. What does not begin a time is left
alone. -/
def timeAfterDate (text : List Char) : Option (List Char) :=
  match text with
  | delimiter :: rest =>
      if (delimiter = 'T' || delimiter = 't' || delimiter = ' ') && beginsTime rest then do
        let rest ← time? rest
        some ((offset? rest).getD rest)
      else some text
  | [] => some []
where
  beginsTime (text : List Char) : Bool :=
    match twoDigits 0 23 text with
    | some (_, ':' :: _) => true
    | _ => false

def moment (text : List Char) : Option (String × List Char) := do
  let rest ← (date? text >>= timeAfterDate) <|> time? text
  some (readBefore text rest, rest)

end Leasehold.Toml
