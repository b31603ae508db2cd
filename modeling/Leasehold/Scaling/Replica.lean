import Leasehold.Contest.Basic
import Leasehold.Settings.Basic

set_option autoImplicit false

/-!
One replica of the scaler of a function. It stands for election under the leader key of its function
and reconciles while the last thing it heard is that it won.

After a failure of the store the replica ends, or it stands again after a delay under a new name.
-/

namespace Leasehold

structure ReplicaError where
  function : String
  cause : ElectionError
  deriving DecidableEq, Repr

def ReplicaError.message (error : ReplicaError) : String :=
  s!"election for function '{error.function}' failed: {error.cause.message}"

structure Assignment where
  function : String
  candidacy : Candidacy
  settings : ScalerSection
  context : String

namespace Assignment

/-- The key to contest follows from the function alone. -/
def of (function : String) (candidacy : Candidacy) (settings : ScalerSection) (context : String) :
    Assignment :=
  ⟨function, { candidacy with key := leaderKey function }, settings, context⟩

end Assignment

structure Term where
  member : Nat
  /-- How many reports of the election have been heard. -/
  heard : Nat := 0
  leading : Bool := false
  stopping : Bool := false
  ticker : Ticker
  deriving DecidableEq, Repr

inductive Activity where
  | joining
  | watching (term : Term)
  | reconciling (term : Term) (doneAt : Nat)
  | backingOff (resumeAt : Nat)
  | done (result : Except ReplicaError Status)
  /-- A reconcile loop without a period cannot run. -/
  | crashed
  | aborted

structure Replica where
  assignment : Assignment
  activity : Activity := .joining

inductive Branch where
  | join
  | hear
  | heed
  | reconcile
  | resume
  | giveUp
  | rejoin
  deriving DecidableEq, Repr

namespace Replica

variable (replica : Replica)

def term? : Option Term :=
  match replica.activity with
  | .watching term | .reconciling term _ => some term
  | _ => none

def isOver : Bool :=
  match replica.activity with
  | .done _ | .crashed | .aborted => true
  | _ => false

/-- Everything that a replica could do now, given the election it is in. Any one of it may come
first. -/
def branches (candidate? : Option Candidate) (cancelled : Bool) (now : Nat) : List Branch :=
  match replica.activity with
  | .joining => [.join]
  | .watching term =>
      let news := candidate?.any fun candidate =>
        term.heard < candidate.reports.length || candidate.closed
      (if news then [.hear] else []) ++
        (if cancelled && !term.stopping then [.heed] else []) ++
        (if term.leading && term.ticker.isDue now then [.reconcile] else [])
  | .reconciling _ doneAt => if doneAt ≤ now then [.resume] else []
  | .backingOff resumeAt =>
      (if cancelled then [.giveUp] else []) ++ (if resumeAt ≤ now then [.rejoin] else [])
  | .done _ | .crashed | .aborted => []

def wakeAt? : Option Nat :=
  match replica.activity with
  | .watching term => if term.leading then some term.ticker.due else none
  | .reconciling _ instant | .backingOff instant => some instant
  | _ => none

end Replica

end Leasehold
