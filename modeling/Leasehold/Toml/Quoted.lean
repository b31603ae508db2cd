import Leasehold.Toml.Space
import Leasehold.Toml.Value

set_option autoImplicit false

/-! The four kinds of quoted text in TOML, and keys. -/

namespace Leasehold.Toml

def hexValue? (character : Char) : Option Nat :=
  if '0' ≤ character ∧ character ≤ '9' then some (character.toNat - '0'.toNat)
  else if 'a' ≤ character ∧ character ≤ 'f' then some (character.toNat - 'a'.toNat + 10)
  else if 'A' ≤ character ∧ character ≤ 'F' then some (character.toNat - 'A'.toNat + 10)
  else none

def codePoint? (digits : List Char) : Option Char := do
  let number := (← digits.mapM hexValue?).foldl (fun value digit => value * 16 + digit) 0
  if number < 0xd800 ∨ (0xdfff < number ∧ number < 0x110000) then some (Char.ofNat number) else none

def escape : Reader Char
  | 'b' :: rest => some ('\x08', rest)
  | 't' :: rest => some ('\t', rest)
  | 'n' :: rest => some ('\n', rest)
  | 'f' :: rest => some ('\x0c', rest)
  | 'r' :: rest => some ('\r', rest)
  | '"' :: rest => some ('"', rest)
  | '\\' :: rest => some ('\\', rest)
  | 'u' :: rest => do
      if rest.length < 4 then none
      some (← codePoint? (rest.take 4), rest.drop 4)
  | 'U' :: rest => do
      if rest.length < 8 then none
      some (← codePoint? (rest.take 8), rest.drop 8)
  | _ => none

/-! ### Texts on one line -/

/-- Read up to the closing quote. The first argument bounds the number of characters. -/
def basicWithin : Nat → Reader (List Char)
  | 0, _ => none
  | _ + 1, [] => none
  | _ + 1, '"' :: rest => some ([], rest)
  | bound + 1, '\\' :: rest => do
      let (character, rest) ← escape rest
      let (characters, rest) ← basicWithin bound rest
      some (character :: characters, rest)
  | bound + 1, character :: rest => do
      if !isPrintable character then none
      let (characters, rest) ← basicWithin bound rest
      some (character :: characters, rest)

def basic (text : List Char) : Option (List Char × List Char) := basicWithin (text.length + 1) text

def literal : Reader (List Char)
  | [] => none
  | '\'' :: rest => some ([], rest)
  | character :: rest => do
      if !isPrintable character then none
      let (characters, rest) ← literal rest
      some (character :: characters, rest)

/-! ### Texts on several lines

Such a text ends with three quotes, before which it may end in one or two quotes of its own. -/

/-- Three quotes close the text, and up to two more before them belong to it. -/
def closing? (quote : Char) : Reader (List Char)
  | first :: second :: third :: rest =>
      if first = quote ∧ second = quote ∧ third = quote then
        match rest with
        | fourth :: fifth :: more =>
            if fourth = quote ∧ fifth = quote then some ([quote, quote], more)
            else if fourth = quote then some ([quote], fifth :: more)
            else some ([], rest)
        | [fourth] => if fourth = quote then some ([quote], []) else some ([], rest)
        | [] => some ([], [])
      else none
  | _ => none

/-- A backslash before a line end drops it with all blanks and line ends that follow. -/
def foldedLine? (text : List Char) : Option (List Char) := do
  let rest ← newline? (skipBlanks text)
  some (skip rest)
where
  skip : List Char → List Char
    | '\n' :: rest => skip rest
    | '\r' :: '\n' :: rest => skip rest
    | ' ' :: rest => skip rest
    | '\t' :: rest => skip rest
    | text => text

def multiBasicWithin : Nat → Reader (List Char)
  | 0, _ => none
  | bound + 1, text =>
      match closing? '"' text with
      | some closed => some closed
      | none =>
          match newline? text with
          | some rest => do
              let (characters, rest) ← multiBasicWithin bound rest
              some ('\n' :: characters, rest)
          | none =>
              match text with
              | [] => none
              | '\\' :: rest =>
                  match foldedLine? rest with
                  | some rest => multiBasicWithin bound rest
                  | none => do
                      let (character, rest) ← escape rest
                      let (characters, rest) ← multiBasicWithin bound rest
                      some (character :: characters, rest)
              | character :: rest => do
                  if !isPrintable character then none
                  let (characters, rest) ← multiBasicWithin bound rest
                  some (character :: characters, rest)

def multiLiteralWithin : Nat → Reader (List Char)
  | 0, _ => none
  | bound + 1, text =>
      match closing? '\'' text with
      | some closed => some closed
      | none =>
          match newline? text with
          | some rest => do
              let (characters, rest) ← multiLiteralWithin bound rest
              some ('\n' :: characters, rest)
          | none =>
              match text with
              | [] => none
              | character :: rest => do
                  if !isPrintable character then none
                  let (characters, rest) ← multiLiteralWithin bound rest
                  some (character :: characters, rest)

/-- A line end right after the opening quotes does not belong to the text. -/
def afterOpening (text : List Char) : List Char := (newline? text).getD text

def quoted : Reader (List Char)
  | '"' :: '"' :: '"' :: rest => multiBasicWithin (rest.length + 1) (afterOpening rest)
  | '\'' :: '\'' :: '\'' :: rest => multiLiteralWithin (rest.length + 1) (afterOpening rest)
  | '"' :: rest => basic rest
  | '\'' :: rest => literal rest
  | _ => none

/-! ### Keys -/

def isBareKey (character : Char) : Bool :=
  character.isAlphanum || character = '-' || character = '_'

/-- One key between dots. A key is never written on several lines. -/
def simpleKey : Reader String
  | '"' :: rest => (basic rest).map fun (characters, rest) => (String.ofList characters, rest)
  | '\'' :: rest => (literal rest).map fun (characters, rest) => (String.ofList characters, rest)
  | text =>
      let characters := text.takeWhile isBareKey
      if characters = [] then none
      else some (String.ofList characters, text.dropWhile isBareKey)

def depthBound : Nat := 80

def keysWithin : Nat → Reader (List String)
  | 0, _ => none
  | bound + 1, text => do
      let (key, rest) ← simpleKey (skipBlanks text)
      match skipBlanks rest with
      | '.' :: rest => do
          let (keys, rest) ← keysWithin bound rest
          some (key :: keys, rest)
      | rest => some ([key], rest)

def dottedKey (text : List Char) : Option ((List String × String) × List Char) := do
  let (keys, rest) ← keysWithin (text.length + 1) text
  if depthBound ≤ keys.length then none
  let last ← keys.getLast?
  some ((keys.dropLast, last), rest)

end Leasehold.Toml
