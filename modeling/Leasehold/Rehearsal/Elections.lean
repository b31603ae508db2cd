import Leasehold.Rehearsal.Report

set_option autoImplicit false

/-! Scripts about elections: named candidates are nominated, started, stopped and dropped while the
clock moves. -/

namespace Leasehold

/-- What a script holds under one name: an election and the receiving end of its reports. Either can
be dropped without the other. -/
structure Seat where
  name : String
  election? : Option Nat := none
  receiver? : Option Nat := none
  read : Nat := 0
  deriving DecidableEq, Repr

inductive ElectionStep where
  | nominate (name : String) (candidacy : Candidacy)
  | start (name context : String)
  | stop (name : String)
  | describe (name : String)
  | dropElection (name : String)
  | dropReceiver (name : String)
  | common (step : CommonStep)

inductive ElectionAnswer where
  | done
  | truth (value : Bool)
  | described (candidacy : Candidacy) (stopped : Bool)
  | refused (error : ElectionError)
  | replied (reply : Except StoreError Reply)
  | nobody (name : String)

structure News where
  name : String
  outcomes : List Outcome
  closed : Bool

structure ElectionResult where
  answer : ElectionAnswer
  news : List News
  calls : List PlayedCall
  revision : Revision

structure ElectionScript where
  rehearsal : Rehearsal
  seats : List Seat := []

namespace ElectionScript

variable (script : ElectionScript)

def opening (terms : BucketTerms) : ElectionScript := { rehearsal := .opening terms }

def contest : Contest := script.rehearsal.fleet.contest

def withContest (contest : Contest) : ElectionScript :=
  { script with rehearsal := script.rehearsal.withContest contest }

def seat (name : String) : Seat := (script.seats.find? (·.name = name)).getD { name }

def setSeat (seat : Seat) : ElectionScript :=
  { script with seats := script.seats.filter (·.name ≠ seat.name) ++ [seat] }

def withElection (name : String) (act : Seat → Nat → ElectionAnswer × ElectionScript) :
    ElectionAnswer × ElectionScript :=
  let seat := script.seat name
  match seat.election? with
  | some election => act seat election
  | none => (.nobody name, script)

def dropElection (seat : Seat) : ElectionScript :=
  match seat.election? with
  | some election =>
      (script.withContest (script.contest.stop election)).setSeat { seat with election? := none }
  | none => script

def dropReceiver (seat : Seat) : ElectionScript :=
  match seat.receiver? with
  | some election =>
      (script.withContest (script.contest.deafen election)).setSeat { seat with receiver? := none }
  | none => script

/-- A new election takes the place of the one held under the name. -/
def nominate (name : String) (candidacy : Candidacy) : ElectionAnswer × ElectionScript :=
  let election := script.contest.members.length
  match script.contest.nominate candidacy with
  | .error error => (.refused error, script)
  | .ok contest =>
      let dropped := (script.withContest contest).dropElection (script.seat name)
      let dropped := dropped.dropReceiver (dropped.seat name)
      let rehearsal := { dropped.rehearsal with actors := dropped.rehearsal.actors ++ [name] }
      (.done, { dropped with rehearsal }.setSeat { name, election? := some election })

def take : ElectionStep → ElectionAnswer × ElectionScript
  | .nominate name candidacy => script.nominate name candidacy
  | .start name context =>
      script.withElection name fun seat election =>
        match script.contest.start election context with
        | .error error => (.refused error, script)
        | .ok contest =>
            (.done, (script.withContest contest).setSeat
              { seat with receiver? := some election, read := 0 })
  | .stop name =>
      script.withElection name fun _ election =>
        (.truth true, script.withContest (script.contest.stop election))
  | .describe name =>
      script.withElection name fun _ election =>
        match script.rehearsal.fleet.candidate? election with
        | some candidate => (.described candidate.candidacy candidate.stopRequested, script)
        | none => (.nobody name, script)
  | .dropElection name =>
      script.withElection name fun seat _ => (.done, script.dropElection seat)
  | .dropReceiver name =>
      let seat := script.seat name
      (.truth seat.receiver?.isSome, script.dropReceiver seat)
  | .common step =>
      let (reply?, rehearsal) := script.rehearsal.common step
      let answer := match reply? with
        | some reply => .replied reply
        | none => .done
      (answer, { script with rehearsal })

/-- Read one receiver to its end. A receiver that has closed is let go. -/
def readSeat (seat : Seat) : News × Seat :=
  match seat.receiver?.bind script.rehearsal.fleet.candidate? with
  | none => (⟨seat.name, [], false⟩, seat)
  | some candidate =>
      let closed := candidate.closed
      (⟨seat.name, candidate.reports.drop seat.read, closed⟩,
        { seat with
          read := candidate.reports.length
          receiver? := if closed then none else seat.receiver? })

/-- Take a step, let everybody go on until all of them wait for the clock, and read the receivers. -/
def step (step : ElectionStep) : ElectionResult × ElectionScript :=
  let seen := script.contest.calls.length
  let (answer, taken) := script.take step
  let settled := { taken with rehearsal := taken.rehearsal.settle }
  let reads := settled.seats.map settled.readSeat
  let news := (reads.map Prod.fst).filter fun news => news.closed || !news.outcomes.isEmpty
  (⟨answer, news, settled.rehearsal.callsSince seen, settled.contest.bucket.revision⟩,
    { settled with seats := reads.map Prod.snd })

end ElectionScript

end Leasehold
