import Leasehold.Toml.Value

set_option autoImplicit false

/-!
How keys and headers extend tables.

A table can be written with one header of its own, with keys with dots, or between braces, but not in
two of these ways, and no key is given twice. What a longer header implies can still get its own
header.
-/

namespace Leasehold.Toml

namespace Entries

def put (key : String) (value : Value) : Entries → Entries
  | [] => [(key, value)]
  | (other, old) :: rest =>
      if other = key then (key, value) :: rest else (other, old) :: put key value rest

/-- Change the table at the end of a path. Tables that are missing on the way come to be as the path
is written: a path with dots also cannot lead into a table with a header. -/
def within (dotted : Bool) (change : Origin → Entries → Option Entries) :
    List String → Origin → Entries → Option Entries
  | [], origin, entries => change origin entries
  | key :: path, _, entries =>
      match entries.lookup key with
      | none => do
          let origin := if dotted then .dotted else .implied
          let inner ← within dotted change path origin []
          some (entries ++ [(key, .table origin inner)])
      | some (.table origin inner) =>
          if origin = .inline || (dotted && origin = .header) then none
          else do
            let inner ← within dotted change path origin inner
            some (put key (.table origin inner) entries)
      | some (.tables (latest :: earlier)) => do
          let latest ← within dotted change path .header latest
          some (put key (.tables (latest :: earlier)) entries)
      | some _ => none

/-- Give a key its value in a table. A key with dots belongs in a table that dots made. -/
def define (dotted : Bool) (key : String) (value : Value) (origin : Origin) (entries : Entries) :
    Option Entries :=
  if dotted ≠ (origin == .dotted) then none
  else match entries.lookup key with
    | some _ => none
    | none => some (entries ++ [(key, value)])

def defineAt (path : List String) (key : String) (value : Value) (origin : Origin)
    (entries : Entries) : Option Entries :=
  within true (define (!path.isEmpty) key value) path origin entries

def openTable (key : String) (_ : Origin) (entries : Entries) : Option Entries :=
  match entries.lookup key with
  | none => some (entries ++ [(key, .table .header [])])
  | some (.table .implied inner) => some (put key (.table .header inner) entries)
  | some _ => none

def openElement (key : String) (_ : Origin) (entries : Entries) : Option Entries :=
  match entries.lookup key with
  | none => some (entries ++ [(key, .tables [[]])])
  | some (.tables elements) => some (put key (.tables ([] :: elements)) entries)
  | some _ => none

def ofPairs (pairs : List ((List String × String) × Value)) : Option Entries :=
  pairs.foldlM (fun entries ((path, key), value) => defineAt path key value .header entries) []

end Entries

end Leasehold.Toml
