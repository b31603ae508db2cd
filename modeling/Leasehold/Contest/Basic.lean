import Leasehold.Election.Candidate

set_option autoImplicit false

/-!
Candidates that contest keys of one bucket, with the clock and the calls that are under way.

Every action names one thing that can happen: a task goes one step further, a call reaches the bucket
or comes back, the owner of an election asks for something, or time passes. Actions can come in any
order that time allows, and the delays of each call are chosen when it begins, so the runs of a
contest cover every interleaving.
-/

namespace Leasehold

/-- How a call travels: the time until it reaches the bucket, a failure that strikes the bucket just
before, and the time until the answer is back. -/
structure Plan where
  before : Nat := 0
  fault : Option StoreError := none
  after : Nat := 0
  deriving DecidableEq, Repr

structure Flight where
  plan : Plan
  landed : Option (Nat × Except StoreError Entry) := none

structure Member where
  candidate : Candidate
  context : String := ""
  flight : Option Flight := none

structure CallRecord where
  member : Nat
  call : Call
  began : Nat
  ended : Nat
  landed : Option (Nat × Except StoreError Entry)
  cutOff : Bool

structure Contest where
  bucket : Bucket
  now : Nat := 0
  cancelled : List String := []
  members : List Member := []
  /-- The calls that are over, the latest first. -/
  calls : List CallRecord := []

inductive Step where
  | look
  | land
  | answer
  | cutOff
  deriving DecidableEq, Repr

namespace Member

variable (member : Member)

def progressAt (began : Nat) (flight : Flight) : Nat :=
  match flight.landed with
  | none => began + flight.plan.before
  | some (landedAt, _) => landedAt + flight.plan.after

def limitAt? (began : Nat) : Option Nat :=
  member.candidate.candidacy.callLimit?.map (began + ·)

/-- A call that gets further at the instant of its limit does so before it is cut off. -/
def step? (cancelled : Bool) (now : Nat) : Option Step :=
  match member.candidate.task, member.flight with
  | .between stage, _ =>
      if stage.look (member.candidate.signals cancelled) now = .rest then none else some .look
  | .calling _ began, some flight =>
      if progressAt began flight ≤ now then
        some (if flight.landed.isSome then .answer else .land)
      else if (member.limitAt? began).any (· ≤ now) then some .cutOff
      else none
  | _, _ => none

def wakeAt? : Option Nat :=
  match member.candidate.task, member.flight with
  | .between stage, _ => stage.ticker?.map Ticker.due
  | .calling _ began, some flight =>
      some <| match member.limitAt? began with
        | some limit => min (progressAt began flight) limit
        | none => progressAt began flight
  | _, _ => none

end Member

namespace Contest

variable (contest : Contest)

def isCancelled (context : String) : Bool := context ∈ contest.cancelled

def update (id : Nat) (change : Member → Member) : Contest :=
  { contest with members := contest.members.modify id change }

def updateCandidate (id : Nat) (change : Candidate → Candidate) : Contest :=
  contest.update id fun member => { member with candidate := change member.candidate }

def step? (member : Member) : Option Step :=
  member.step? (contest.isCancelled member.context) contest.now

def moveOf (member : Member) (stage : Stage) : Move :=
  stage.look (member.candidate.signals (contest.isCancelled member.context)) contest.now

/-! ### What owners do -/

def nominate (candidacy : Candidacy) : Except ElectionError Contest :=
  match candidacy.accept contest.bucket.terms with
  | .error error => .error error
  | .ok () => .ok { contest with members := contest.members ++ [{ candidate := { candidacy } }] }

def start (id : Nat) (context : String) : Except ElectionError Contest :=
  match contest.members[id]? with
  | some member =>
      if member.candidate.task = .unstarted then
        .ok <| contest.update id fun member =>
          { member with candidate := member.candidate.start, context }
      else .error (.alreadyStarted member.candidate.candidacy.key)
  | none => .ok contest

def stop (id : Nat) : Contest := contest.updateCandidate id Candidate.stop

def deafen (id : Nat) : Contest := contest.updateCandidate id Candidate.deafen

def cancel (context : String) : Contest :=
  { contest with cancelled := context :: contest.cancelled }

/-! ### What the bucket sees from outside -/

def perform (operation : Operation) : Except StoreError Reply × Contest :=
  let (reply, bucket) := contest.bucket.perform contest.now operation
  (reply, { contest with bucket })

def inject (failure : StoreError) : Contest :=
  { contest with bucket := contest.bucket.inject failure }

/-! ### What members do -/

def look (id : Nat) (member : Member) (stage : Stage) (plan : Plan) : Contest :=
  let move := contest.moveOf member stage
  contest.update id fun member =>
    { member with
      candidate := member.candidate.move contest.now move
      flight := match move with
        | .call _ => some { plan }
        | _ => none }

def land (id : Nat) (member : Member) (stage : Stage) (flight : Flight) : Contest :=
  let bucket := match flight.plan.fault with
    | some failure => contest.bucket.inject failure
    | none => contest.bucket
  let (answer, bucket) := stage.call.perform member.candidate.candidacy bucket contest.now
  { contest.update id fun member =>
      { member with flight := some { flight with landed := some (contest.now, answer) } }
    with bucket }

def conclude (id : Nat) (stage : Stage) (record : CallRecord) (answer : Except StoreError Entry) :
    Contest :=
  { contest.update id fun member =>
      { member with candidate := member.candidate.settle contest.now stage answer, flight := none }
    with calls := record :: contest.calls }

def proceed (id : Nat) (plan : Plan) : Contest :=
  match contest.members[id]? with
  | none => contest
  | some member =>
      match contest.step? member, member.candidate.task, member.flight with
      | some .look, .between stage, _ => contest.look id member stage plan
      | some .land, .calling stage _, some flight => contest.land id member stage flight
      | some .answer, .calling stage began, some flight =>
          match flight.landed with
          | some (landedAt, answer) =>
              contest.conclude id stage
                ⟨id, stage.call, began, contest.now, some (landedAt, answer), false⟩ answer
          | none => contest
      | some .cutOff, .calling stage began, some flight =>
          let limitMs := member.candidate.candidacy.callLimitMs.getD 0
          contest.conclude id stage ⟨id, stage.call, began, contest.now, flight.landed, true⟩
            (.error (.timeout limitMs))
      | _, _, _ => contest

/-! ### How time passes -/

/-- Nobody has anything to do before the clock moves. -/
def quiet : Bool := contest.members.all fun member => (contest.step? member).isNone

def wakeAt? : Option Nat := (contest.members.filterMap Member.wakeAt?).min?

/-- Let time pass up to an instant, but not past anybody who has something to do. -/
def passTo? (instant : Nat) : Option Contest :=
  if contest.quiet && contest.now ≤ instant && contest.wakeAt?.all (instant ≤ ·) then
    some { contest with now := instant }
  else none

end Contest

end Leasehold
