import Leasehold.Store.Revision

set_option autoImplicit false

/-! Why a store operation gave no result. The first three causes are what a contender for a key
has to expect; the others mean that the store could not answer. -/

namespace Leasehold

inductive StoreError where
  | keyNotFound (key : String)
  | keyExists (key : String)
  | wrongRevision (key : String) (expected : Revision) (actual : Option Revision)
  | unavailable (reason : String)
  | timeout (limitMs : Nat)
  | failed (reason : String)
  deriving DecidableEq, Repr

namespace StoreError

def isNotFound : StoreError → Bool
  | keyNotFound _ => true
  | _ => false

def isKeyExists : StoreError → Bool
  | keyExists _ => true
  | _ => false

/-- Somebody else created, replaced or removed the record first, or it ran out. -/
def isConflict : StoreError → Bool
  | keyNotFound _ | keyExists _ | wrongRevision _ _ _ => true
  | unavailable _ | timeout _ | failed _ => false

def message : StoreError → String
  | keyNotFound key => s!"key '{key}' not found"
  | keyExists key => s!"key '{key}' already exists"
  | wrongRevision key expected actual =>
      let held := match actual with
        | none => "None"
        | some revision => "Some(" ++ revision.quoted ++ ")"
      s!"wrong revision for key '{key}': expected {expected}, actual {held}"
  | unavailable reason => s!"store unavailable: {reason}"
  | timeout limitMs => s!"operation timed out after {limitMs}ms"
  | failed reason => s!"operation failed: {reason}"

theorem isConflict_of_isKeyExists {error : StoreError} (taken : error.isKeyExists = true) :
    error.isConflict = true := by
  cases error <;> simp_all [isKeyExists, isConflict]

end StoreError

end Leasehold
