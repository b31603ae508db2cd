import Leasehold.Scaling.Replica

set_option autoImplicit false

/-! Replicas over one bucket, together with the elections they hold. -/

namespace Leasehold

structure ReconcileRecord where
  replica : Nat
  startedAt : Nat
  deriving DecidableEq, Repr

structure Fleet where
  contest : Contest
  replicas : List Replica := []
  /-- The reconciles that have started, the latest first. -/
  reconciles : List ReconcileRecord := []
  /-- The replicas that are over, in the order in which they ended. -/
  endings : List Nat := []

namespace Fleet

variable (fleet : Fleet)

def setActivity (id : Nat) (activity : Activity) : Fleet :=
  { fleet with replicas := fleet.replicas.modify id fun replica => { replica with activity } }

def conclude (id : Nat) (activity : Activity) : Fleet :=
  { fleet.setActivity id activity with endings := fleet.endings ++ [id] }

def candidate? (member : Nat) : Option Candidate :=
  fleet.contest.members[member]?.map Member.candidate

def branches (replica : Replica) : List Branch :=
  replica.branches (replica.term?.bind fun term => fleet.candidate? term.member)
    (fleet.contest.isCancelled replica.assignment.context) fleet.contest.now

/-- Give up an election: it is asked to stop and nobody listens to it any more. -/
def leave (member : Nat) : Fleet :=
  { fleet with contest := (fleet.contest.stop member).deafen member }

def add (assignment : Assignment) : Fleet :=
  { fleet with replicas := fleet.replicas ++ [{ assignment }] }

def join (id : Nat) (assignment : Assignment) (candidate : CandidateName) : Fleet :=
  let fail (cause : ElectionError) : Fleet :=
    fleet.conclude id (.done (.error ⟨assignment.function, cause⟩))
  let member := fleet.contest.members.length
  let begun := do
    let contest ← fleet.contest.nominate { assignment.candidacy with candidate }
    contest.start member assignment.context
  match begun with
  | .error cause => fail cause
  | .ok contest =>
      let fleet := { fleet with contest }
      let period := assignment.settings.scaleInterval
      if period = 0 then (fleet.leave member).conclude id .crashed
      else fleet.setActivity id
        (.watching { member, ticker := .fromNow fleet.contest.now period })

def close (id : Nat) (assignment : Assignment) (term : Term) (outcome : Outcome) : Fleet :=
  let left := fleet.leave term.member
  match outcome with
  | .error cause =>
      if assignment.settings.recreateOnError then
        left.setActivity id (.backingOff (fleet.contest.now + assignment.settings.retryDelay))
      else left.conclude id (.done (.error ⟨assignment.function, .store cause⟩))
  | outcome => left.conclude id (.done (.ok outcome.status))

def hear (id : Nat) (assignment : Assignment) (term : Term) : Fleet :=
  let report? := (fleet.candidate? term.member).bind fun candidate => candidate.reports[term.heard]?
  let term := { term with heard := term.heard + 1 }
  match report? with
  | some .won =>
      fleet.setActivity id (.watching { term with
        leading := true, ticker := term.ticker.reset fleet.contest.now })
  | some .lost => fleet.setActivity id (.watching { term with leading := false })
  | some outcome => fleet.close id assignment term outcome
  | none => fleet.close id assignment term .stopped

/-- One step of a replica along a branch that is open to it. A join takes the new name and a
reconcile the time it will need. -/
def proceed (id : Nat) (branch : Branch) (candidate : CandidateName) (duration : Nat) : Fleet :=
  match fleet.replicas[id]? with
  | none => fleet
  | some replica =>
      let assignment := replica.assignment
      match branch, replica.activity with
      | .join, .joining => fleet.join id assignment candidate
      | .hear, .watching term => fleet.hear id assignment term
      | .heed, .watching term =>
          { fleet.setActivity id (.watching { term with stopping := true })
            with contest := fleet.contest.stop term.member }
      | .reconcile, .watching term =>
          let now := fleet.contest.now
          let term := { term with ticker := term.ticker.take now }
          { fleet.setActivity id (.reconciling term (now + duration))
            with reconciles := ⟨id, now⟩ :: fleet.reconciles }
      | .resume, .reconciling term _ => fleet.setActivity id (.watching term)
      | .giveUp, .backingOff _ => fleet.conclude id (.done (.ok .cancelled))
      | .rejoin, .backingOff _ => fleet.setActivity id .joining
      | _, _ => fleet

def abort (id : Nat) : Fleet :=
  match fleet.replicas[id]? with
  | none => fleet
  | some replica =>
      if replica.isOver then fleet
      else
        let left := match replica.term? with
          | some term => fleet.leave term.member
          | none => fleet
        left.conclude id .aborted

def quiet : Bool :=
  fleet.contest.quiet && fleet.replicas.all fun replica => (fleet.branches replica).isEmpty

def wakeAt? : Option Nat :=
  (fleet.contest.wakeAt?.toList ++ fleet.replicas.filterMap Replica.wakeAt?).min?

def passTo? (instant : Nat) : Option Fleet :=
  if fleet.quiet && fleet.contest.now ≤ instant && fleet.wakeAt?.all (instant ≤ ·) then
    some { fleet with contest := { fleet.contest with now := instant } }
  else none

end Fleet

end Leasehold
