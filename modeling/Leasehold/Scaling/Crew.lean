import Leasehold.Scaling.Fleet

set_option autoImplicit false

/-! The scalers of one process: one replica for each function, all under one context. -/

namespace Leasehold

structure Crew where
  context : String
  replicas : List Nat
  deriving DecidableEq, Repr

namespace Fleet

/-- The assignment of a replica that scales a function under these settings. Its name on the ballot
is chosen when it stands for election. -/
def assignmentFor (settings : Settings) (context function : String) : Assignment :=
  .of function (settings.candidacy (leaderKey function) (.generated 0)) settings.scaler context

def spawn (fleet : Fleet) (settings : Settings) (context : String) : Crew × Fleet :=
  let functions := settings.scaler.functions
  let first := fleet.replicas.length
  (⟨context, List.range' first functions.length⟩,
    functions.foldl (fun fleet function => fleet.add (assignmentFor settings context function)) fleet)

end Fleet

namespace Crew

variable (crew : Crew) (fleet : Fleet)

def shutdown : Fleet := { fleet with contest := fleet.contest.cancel crew.context }

def isOver : Bool := crew.replicas.all fun id => (fleet.replicas[id]?).all Replica.isOver

def result? (id : Nat) : Option (String × Except ReplicaError Status) := do
  let replica ← fleet.replicas[id]?
  match replica.activity with
  | .done result => some (replica.assignment.function, result)
  | _ => none

/-- What the scalers of the crew returned, in the order in which they ended. One that crashed returned
nothing. -/
def results : List (String × Except ReplicaError Status) :=
  (fleet.endings.filter (· ∈ crew.replicas)).filterMap (result? fleet)

def abort : Fleet := crew.replicas.foldl Fleet.abort fleet

end Crew

end Leasehold
