set_option autoImplicit false

/-! Blanks, line ends and comments of TOML. -/

namespace Leasehold.Toml

def isBlank (character : Char) : Bool := character = ' ' || character = '\t'

/-- Tabs are the only control characters that a comment or a text on one line can hold. -/
def isPrintable (character : Char) : Bool :=
  character = '\t' || (' ' ≤ character && character ≠ '\x7f')

def skipBlanks (text : List Char) : List Char := text.dropWhile isBlank

/-- The rest after a line end. A carriage return alone ends no line. -/
def newline? : List Char → Option (List Char)
  | '\n' :: rest => some rest
  | '\r' :: '\n' :: rest => some rest
  | _ => none

def skipComment : List Char → List Char
  | '#' :: rest => rest.dropWhile isPrintable
  | text => text

def lineEnd? (text : List Char) : Option (List Char) :=
  match skipComment (skipBlanks text) with
  | [] => some []
  | rest => newline? rest

/-- Skip blanks, line ends and comments. A character that no comment can hold stops it. -/
def skipGap (inComment : Bool) : List Char → List Char
  | [] => []
  | '\n' :: rest => skipGap false rest
  | '\r' :: '\n' :: rest => skipGap false rest
  | character :: rest =>
      if inComment then
        if isPrintable character then skipGap true rest else character :: rest
      else if isBlank character then skipGap false rest
      else if character = '#' then skipGap true rest
      else character :: rest

end Leasehold.Toml
