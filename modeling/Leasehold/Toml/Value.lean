set_option autoImplicit false

/-! What a TOML document holds. -/

namespace Leasehold.Toml

/-- How a table came to be, which decides what may still be added to it. -/
inductive Origin where
  /-- By a header of its own, or as an element of an array of tables. -/
  | header
  /-- On the way to the table of a longer header. -/
  | implied
  /-- By a key with dots. -/
  | dotted
  /-- Between braces, complete in itself. -/
  | inline
  deriving DecidableEq, Repr

/-- Floats and date-times are kept as they are written. -/
inductive Value where
  | string (text : String)
  | integer (value : Int)
  | float (literal : String)
  | boolean (value : Bool)
  | moment (literal : String)
  | array (items : List Value)
  | table (origin : Origin) (entries : List (String × Value))
  /-- An array of tables written with headers, the latest element first. -/
  | tables (elements : List (List (String × Value)))

abbrev Entries := List (String × Value)

/-- A reader takes something off the beginning of a text and leaves the rest. -/
abbrev Reader (α : Type) := List Char → Option (α × List Char)

end Leasehold.Toml
