import Leasehold.Rehearsal.Rule
import Leasehold.Scaling.Crew

set_option autoImplicit false

/-!
A rehearsal plays elections and scalers on a simulated clock, one at a time and in a fixed order.

At one instant everybody goes on until all of them wait for the clock; only then does time pass, and
never past an instant at which somebody has something to do.
-/

namespace Leasehold

inductive CallKind where
  | create
  | update
  | get
  deriving DecidableEq, Repr

def Call.kind : Call → CallKind
  | .create => .create
  | .renew _ => .update
  | .poll => .get

structure CallCase where
  actor : String
  key : String
  kind : CallKind
  deriving DecidableEq, Repr

/-- Who a replica is in the script, and which autoscaler it was given, if that one keeps records. -/
structure Role where
  name : String
  autoscaler? : Option Nat := none

structure Rehearsal where
  fleet : Fleet
  callRules : List (Rule CallCase Plan) := []
  /-- The actor behind each election. -/
  actors : List String := []
  /-- The elections that have begun a call, in the order of their first calls. -/
  callers : List Nat := []
  roles : List Role := []
  /-- The rules of each autoscaler: how long a reconcile of a function takes. -/
  autoscalers : List (List (Rule String Nat)) := []

namespace Rehearsal

variable (rehearsal : Rehearsal)

def now : Nat := rehearsal.fleet.contest.now

def opening (terms : BucketTerms) : Rehearsal := { fleet := { contest := { bucket := { terms } } } }

def withContest (contest : Contest) : Rehearsal :=
  { rehearsal with fleet := { rehearsal.fleet with contest } }

def actor (member : Nat) : String := rehearsal.actors[member]?.getD ""

def role (replica : Nat) : Role := rehearsal.roles[replica]?.getD { name := "" }

/-! ### One step -/

def beginning? (member : Member) : Option Stage :=
  match member.candidate.task with
  | .between stage =>
      match rehearsal.fleet.contest.moveOf member stage with
      | .call stage => some stage
      | _ => none
  | _ => none

def proceedMember (id : Nat) (member : Member) : Rehearsal :=
  match rehearsal.beginning? member with
  | none => rehearsal.withContest (rehearsal.fleet.contest.proceed id {})
  | some stage =>
      let (plan, callRules) := Rule.consult rehearsal.callRules
        ⟨rehearsal.actor id, member.candidate.candidacy.key, stage.call.kind⟩
      { rehearsal.withContest (rehearsal.fleet.contest.proceed id (plan.getD {})) with
        callRules
        callers := if id ∈ rehearsal.callers then rehearsal.callers else rehearsal.callers ++ [id] }

def reconcileTime (id : Nat) (replica : Replica) : Nat × List (List (Rule String Nat)) :=
  match (rehearsal.role id).autoscaler? with
  | none => (0, rehearsal.autoscalers)
  | some autoscaler =>
      let rules := rehearsal.autoscalers[autoscaler]?.getD []
      let (duration, rules) := Rule.consult rules replica.assignment.function
      (duration.getD 0, rehearsal.autoscalers.set autoscaler rules)

def proceedReplica (id : Nat) (replica : Replica) (branch : Branch) : Rehearsal :=
  let members := rehearsal.fleet.contest.members.length
  let (duration, autoscalers) := match branch with
    | .reconcile => rehearsal.reconcileTime id replica
    | _ => (0, rehearsal.autoscalers)
  let fleet := rehearsal.fleet.proceed id branch (.generated members) duration
  let joined := fleet.contest.members.length - members
  { rehearsal with
    fleet
    autoscalers
    actors := rehearsal.actors ++ List.replicate joined (rehearsal.role id).name }

/-- How a replica goes on. A reconcile that is due goes before all else that the replica could do. -/
def nextBranch? (replica : Replica) : Option Branch :=
  let branches := rehearsal.fleet.branches replica
  if .reconcile ∈ branches then some .reconcile else branches.head?

def nextReplica? : Option (Nat × Replica × Branch) :=
  rehearsal.fleet.replicas.zipIdx.findSome? fun (replica, id) =>
    (rehearsal.nextBranch? replica).map fun branch => (id, replica, branch)

def nextMember? : Option (Nat × Member) :=
  (rehearsal.fleet.contest.members.zipIdx.find? fun (member, _) =>
    (rehearsal.fleet.contest.step? member).isSome).map fun (member, id) => (id, member)

/-- One step at this instant, if anybody can go on. Replicas go before members. -/
def step? : Option Rehearsal :=
  match rehearsal.nextReplica? with
  | some (id, replica, branch) => some (rehearsal.proceedReplica id replica branch)
  | none => rehearsal.nextMember?.map fun (id, member) => rehearsal.proceedMember id member

/-! ### One instant -/

def settleWithin : Nat → Rehearsal → Rehearsal
  | 0, rehearsal => rehearsal
  | steps + 1, rehearsal =>
      match rehearsal.step? with
      | some next => settleWithin steps next
      | none => rehearsal

/-- More steps than one instant can take: everybody makes a bounded number of calls at one instant,
and only a failure that a rule brings about lets a replica stand again at once. -/
def stepBound : Nat :=
  128 * (4 + rehearsal.fleet.contest.members.length + rehearsal.fleet.replicas.length +
    Rule.remaining rehearsal.callRules)

def settle : Rehearsal := rehearsal.settleWithin rehearsal.stepBound

/-! ### Passing time -/

def passTo? (instant : Nat) : Option Rehearsal :=
  (rehearsal.fleet.passTo? instant).map fun fleet => { rehearsal with fleet }

/-- Play up to an instant, or until the goal is reached if that is sooner. -/
def playUntil (goal : Rehearsal → Bool) (instant : Nat) (rehearsal : Rehearsal) : Rehearsal :=
  let settled := rehearsal.settle
  if goal settled then settled
  else match settled.passTo? (min (settled.fleet.wakeAt?.getD instant) instant) with
    | none => settled
    | some next =>
        if rehearsal.now < next.now ∧ next.now < instant then playUntil goal instant next
        else next.settle
termination_by instant - rehearsal.now

def advance (duration : Nat) : Rehearsal :=
  playUntil (fun _ => false) (rehearsal.now + duration) rehearsal

end Rehearsal

end Leasehold
