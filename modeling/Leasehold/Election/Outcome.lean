import Leasehold.Store.Error

set_option autoImplicit false

/-! What a running election reports: leadership gained and lost, and one of three endings. -/

namespace Leasehold

inductive Status where
  | won
  | lost
  | error
  | cancelled
  | stopped
  deriving DecidableEq, Repr

inductive Outcome where
  /-- The candidate holds the lease from now on. -/
  | won
  /-- Somebody else holds the lease. -/
  | lost
  /-- The store failed. -/
  | error (cause : StoreError)
  /-- The context of the election was cancelled. -/
  | cancelled
  /-- The election was asked to stop. -/
  | stopped
  deriving DecidableEq, Repr

namespace Status

def isTerminal : Status → Bool
  | error | cancelled | stopped => true
  | won | lost => false

def word : Status → String
  | won => "won"
  | lost => "lost"
  | error => "error"
  | cancelled => "cancelled"
  | stopped => "stopped"

end Status

namespace Outcome

def status : Outcome → Status
  | won => .won
  | lost => .lost
  | error _ => .error
  | cancelled => .cancelled
  | stopped => .stopped

def isTerminal (outcome : Outcome) : Bool := outcome.status.isTerminal

def message : Outcome → String
  | error cause => s!"error: {cause.message}"
  | outcome => outcome.status.word

end Outcome

end Leasehold
