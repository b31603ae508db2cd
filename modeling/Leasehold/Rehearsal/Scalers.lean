import Leasehold.Rehearsal.Report

set_option autoImplicit false

/-!
Scripts about scalers: single replicas and crews of them run while the clock moves.

The names under which replicas stand are generated, so a script shows such a name by the place of its
first call among those on its key. Values that the script itself wrote are shown as they are.
-/

namespace Leasehold

inductive ScalerStep where
  | run (name function : String) (settings : Settings) (context : String)
      (autoscaler? : Option (List (Rule String Nat)))
  | spawnCrew (name : String) (settings : Settings) (context : String)
      (autoscaler : List (Rule String Nat))
  | shutdownCrew (name : String)
  | countCrew (name : String)
  | joinCrew (name : String) (timeout : Nat)
  | common (step : CommonStep)

inductive Ending where
  | returned (result : Except ReplicaError Status)
  | crashed

inductive ScalerAnswer where
  | done
  | running (function : String)
  | counted (count : Nat)
  | joined (results : List (String × Except ReplicaError Status))
  | timedOut
  | found (value : String)
  | refused (error : StoreError)
  | nobody (name : String)

structure ShownReconcile where
  startedAt : Nat
  name : String
  function : String
  deriving DecidableEq, Repr

structure ScalerResult where
  answer : ScalerAnswer
  endings : List (String × Ending)
  /-- The calls by key, each with the value as it is shown. -/
  calls : List (PlayedCall × String)
  reconciles : List ShownReconcile

structure ScalerScript where
  rehearsal : Rehearsal
  crews : List (String × Crew) := []
  /-- The replicas that belong to no crew. -/
  single : List Nat := []
  /-- The values that the script wrote. -/
  written : List String := []

def Replica.ending? (replica : Replica) : Option Ending :=
  match replica.activity with
  | .done result => some (.returned result)
  | .crashed => some .crashed
  | _ => none

namespace ScalerScript

variable (script : ScalerScript)

def opening (terms : BucketTerms) : ScalerScript := { rehearsal := .opening terms }

def crew? (name : String) : Option Crew := script.crews.lookup name

/-! ### Values -/

def namesOn (key : String) : List String :=
  script.rehearsal.callers.filterMap fun id => do
    let candidate ← script.rehearsal.fleet.candidate? id
    if candidate.candidacy.key = key then some candidate.candidacy.candidate.text else none

def shown (key value : String) : String :=
  if value ∈ script.written then value else s!"gen#{(script.namesOn key).idxOf value + 1}"

/-! ### Steps -/

def withFleet (fleet : Fleet) : ScalerScript :=
  { script with rehearsal := { script.rehearsal with fleet } }

def addAutoscaler (rules : List (Rule String Nat)) : Nat × ScalerScript :=
  let rehearsal := script.rehearsal
  (rehearsal.autoscalers.length,
    { script with rehearsal := { rehearsal with autoscalers := rehearsal.autoscalers ++ [rules] } })

def addRoles (role : Role) (count : Nat) : ScalerScript :=
  let rehearsal := script.rehearsal
  { script with rehearsal := { rehearsal with roles := rehearsal.roles ++ List.replicate count role } }

def run (name function : String) (settings : Settings) (context : String)
    (autoscaler? : Option (List (Rule String Nat))) : ScalerScript :=
  let fleet := script.rehearsal.fleet
  let added := (script.withFleet (fleet.add (Fleet.assignmentFor settings context function)))
  let single := script.single ++ [fleet.replicas.length]
  match autoscaler? with
  | none => { added.addRoles { name } 1 with single }
  | some rules =>
      let (autoscaler, added) := added.addAutoscaler rules
      { added.addRoles ⟨name, some autoscaler⟩ 1 with single }

/-- All scalers of a crew share one autoscaler. -/
def spawnCrew (name : String) (settings : Settings) (context : String)
    (rules : List (Rule String Nat)) : ScalerScript :=
  let (crew, fleet) := script.rehearsal.fleet.spawn settings context
  let (autoscaler, added) := (script.withFleet fleet).addAutoscaler rules
  { added.addRoles ⟨name, some autoscaler⟩ crew.replicas.length with
    crews := script.crews ++ [(name, crew)] }

/-- Wait until all scalers of a crew are over. If that takes too long they are broken off. Either way
the crew is gone. -/
def joinCrew (name : String) (crew : Crew) (timeout : Nat) : ScalerAnswer × ScalerScript :=
  let rehearsal := Rehearsal.playUntil (fun rehearsal => crew.isOver rehearsal.fleet)
    (script.rehearsal.now + timeout) script.rehearsal
  let played := { script with rehearsal, crews := script.crews.filter (·.1 ≠ name) }
  if crew.isOver rehearsal.fleet then
    (.joined ((crew.results rehearsal.fleet).mergeSort fun left right => left.1 ≤ right.1), played)
  else (.timedOut, played.withFleet (crew.abort rehearsal.fleet))

def common (step : CommonStep) : ScalerAnswer × ScalerScript :=
  let (reply?, rehearsal) := script.rehearsal.common step
  let written := match step with
    | .perform (.create _ value) | .perform (.update _ value _) =>
        script.written ++ (Text.text? value).toList
    | _ => script.written
  let script := { script with rehearsal, written }
  match reply? with
  | some (.ok (.found entry)) =>
      (.found (script.shown entry.key ((Text.text? entry.value).getD "")), script)
  | some (.error error) => (.refused error, script)
  | _ => (.done, script)

def take : ScalerStep → ScalerAnswer × ScalerScript
  | .run name function settings context autoscaler? =>
      (.running function, script.run name function settings context autoscaler?)
  | .spawnCrew name settings context rules =>
      (.counted settings.scaler.functions.length, script.spawnCrew name settings context rules)
  | .shutdownCrew name =>
      match script.crew? name with
      | some crew => (.done, script.withFleet (crew.shutdown script.rehearsal.fleet))
      | none => (.nobody name, script)
  | .countCrew name =>
      match script.crew? name with
      | some crew => (.counted crew.replicas.length, script)
      | none => (.nobody name, script)
  | .joinCrew name timeout =>
      match script.crew? name with
      | some crew => script.joinCrew name crew timeout
      | none => (.nobody name, script)
  | .common step => script.common step

/-! ### Reports -/

def endingsSince (count : Nat) : List (String × Ending) :=
  (script.rehearsal.fleet.endings.drop count).filterMap fun id => do
    if id ∈ script.single then
      let ending ← (← script.rehearsal.fleet.replicas[id]?).ending?
      some ((script.rehearsal.role id).name, ending)
    else none

def precedes (left right : ShownReconcile) : Bool :=
  left.name < right.name || (left.name = right.name && left.function ≤ right.function)

def reconcilesSince (count : Nat) : List ShownReconcile :=
  let reconciles := script.rehearsal.fleet.reconciles
  let recent := (reconciles.take (reconciles.length - count)).reverse.filterMap fun record => do
    let role := script.rehearsal.role record.replica
    let _ ← role.autoscaler?
    let replica ← script.rehearsal.fleet.replicas[record.replica]?
    some ⟨record.startedAt, role.name, replica.assignment.function⟩
  recent.mergeSort precedes

def step (step : ScalerStep) : ScalerResult × ScalerScript :=
  let before := script.rehearsal
  let (answer, taken) := script.take step
  let settled := { taken with rehearsal := taken.rehearsal.settle }
  let calls := (settled.rehearsal.callsSince before.fleet.contest.calls.length).mergeSort
    fun left right => left.candidacy.key ≤ right.candidacy.key
  let shownCalls := calls.map fun call =>
    (call, settled.shown call.candidacy.key call.candidacy.candidate.text)
  (⟨answer, settled.endingsSince before.fleet.endings.length, shownCalls,
    settled.reconcilesSince before.fleet.reconciles.length⟩, settled)

end ScalerScript

end Leasehold
