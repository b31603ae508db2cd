import Leasehold.Toml.Moment
import Leasehold.Toml.Table

set_option autoImplicit false

/-! Reading a TOML document: its values, its statements, and the table that they make. -/

namespace Leasehold.Toml

/-! ### Values -/

def boolean : Reader Bool
  | 't' :: 'r' :: 'u' :: 'e' :: rest => some (true, rest)
  | 'f' :: 'a' :: 'l' :: 's' :: 'e' :: rest => some (false, rest)
  | _ => none

def scalar (text : List Char) : Option (Value × List Char) :=
  (quoted text).map (fun (characters, rest) => (.string (String.ofList characters), rest)) <|>
    (boolean text).map (fun (value, rest) => (.boolean value, rest)) <|>
    (moment text).map (fun (literal, rest) => (.moment literal, rest)) <|>
    (float text).map (fun (literal, rest) => (.float literal, rest)) <|>
    (integer text).map (fun (value, rest) => (.integer value, rest))

mutual

/-- A value at a depth of nesting. The first argument bounds the number of values and separators. -/
def valueWithin : Nat → Nat → Reader Value
  | 0, _, _ => none
  | bound + 1, depth, '[' :: rest => do
      if depthBound ≤ depth + 1 then none
      let (items, rest) ← itemsWithin bound (depth + 1) rest
      some (.array items, rest)
  | bound + 1, depth, '\x7b' :: rest => do
      if depthBound ≤ depth + 1 then none
      let (pairs, rest) ← match skipBlanks rest with
        | '\x7d' :: rest => some ([], rest)
        | rest => pairsWithin bound (depth + 1) rest
      some (.table .inline (← Entries.ofPairs pairs), rest)
  | _ + 1, _, text => scalar text

/-- The items of an array up to its closing bracket. A comma may follow the last item. -/
def itemsWithin : Nat → Nat → Reader (List Value)
  | 0, _, _ => none
  | bound + 1, depth, text =>
      match skipGap false text with
      | ']' :: rest => some ([], rest)
      | text => do
          let (item, rest) ← valueWithin bound depth text
          match skipGap false rest with
          | ']' :: rest => some ([item], rest)
          | ',' :: rest => do
              let (items, rest) ← itemsWithin bound depth rest
              some (item :: items, rest)
          | _ => none

/-- The pairs of a table between braces, all on one line. No comma follows the last pair. -/
def pairsWithin : Nat → Nat → Reader (List ((List String × String) × Value))
  | 0, _, _ => none
  | bound + 1, depth, text => do
      let (key, rest) ← dottedKey text
      match rest with
      | '=' :: rest => do
          let (value, rest) ← valueWithin bound depth (skipBlanks rest)
          match skipBlanks rest with
          | '\x7d' :: rest => some ([(key, value)], rest)
          | ',' :: rest => do
              let (pairs, rest) ← pairsWithin bound depth rest
              some ((key, value) :: pairs, rest)
          | _ => none
      | _ => none

end

def value (text : List Char) : Option (Value × List Char) := valueWithin (2 * text.length + 2) 0 text

/-! ### Statements -/

inductive Statement where
  | pair (path : List String) (key : String) (value : Value)
  | header (path : List String) (key : String)
  | element (path : List String) (key : String)

def statement : Reader Statement
  | '[' :: '[' :: rest => do
      let ((path, key), rest) ← dottedKey rest
      match rest with
      | ']' :: ']' :: rest => some (.element path key, ← lineEnd? rest)
      | _ => none
  | '[' :: rest => do
      let ((path, key), rest) ← dottedKey rest
      match rest with
      | ']' :: rest => some (.header path key, ← lineEnd? rest)
      | _ => none
  | text => do
      let ((path, key), rest) ← dottedKey text
      match rest with
      | '=' :: rest => do
          let (value, rest) ← value (skipBlanks rest)
          some (.pair path key value, ← lineEnd? rest)
      | _ => none

def statementsWithin : Nat → List Char → Option (List Statement)
  | 0, _ => none
  | bound + 1, text =>
      match skipBlanks text with
      | [] => some []
      | '#' :: rest => do statementsWithin bound (← lineEnd? ('#' :: rest))
      | text =>
          match newline? text with
          | some rest => statementsWithin bound rest
          | none => do
              let (statement, rest) ← statement text
              some (statement :: (← statementsWithin bound rest))

def statements (text : List Char) : Option (List Statement) := statementsWithin (text.length + 1) text

/-! ### Documents -/

structure Draft where
  entries : Entries := []
  opened : List String := []

def Draft.add (draft : Draft) : Statement → Option Draft
  | .pair path key value => do
      let entries ← Entries.within false (Entries.defineAt path key value) draft.opened .header
        draft.entries
      some { draft with entries }
  | .header path key => do
      let entries ← Entries.within false (Entries.openTable key) path .header draft.entries
      some { entries, opened := path ++ [key] }
  | .element path key => do
      let entries ← Entries.within false (Entries.openElement key) path .header draft.entries
      some { entries, opened := path ++ [key] }

/-- One mark of byte order at the beginning counts for nothing. -/
def withoutMark : List Char → List Char
  | '\uFEFF' :: rest => rest
  | text => text

def document? (text : String) : Option Entries := do
  let statements ← statements (withoutMark text.toList)
  let draft ← statements.foldlM Draft.add {}
  some draft.entries

end Leasehold.Toml
