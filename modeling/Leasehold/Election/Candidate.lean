import Leasehold.Election.Candidacy
import Leasehold.Election.Ticker
import Leasehold.Election.Transition

set_option autoImplicit false

/-!
One candidate as a machine. Between store calls it looks at its signals and its ticker; the answer to
a call moves it on. Which store answers, and when, is not said here.

The ticker of a phase starts when the phase is entered and lasts as long as the phase does. A request
to stop goes before a cancelled context, and both go before a tick. That nobody listens any more is
noticed while waiting for a tick or when there is something to report.
-/

namespace Leasehold

def Phase.interval? (candidacy : Candidacy) : Phase → Option Nat
  | .electing => none
  | .leading _ => some candidacy.renewEvery
  | .following => some candidacy.pollEvery

inductive Stage where
  | electing
  | leading (held : Revision) (ticker : Ticker)
  | following (ticker : Ticker)
  deriving DecidableEq, Repr

inductive Call where
  | create
  | renew (held : Revision)
  | poll
  deriving DecidableEq, Repr

structure Signals where
  stopRequested : Bool
  cancelled : Bool
  listening : Bool

inductive Move where
  | rest
  | call (stage : Stage)
  | finish (outcome : Outcome)
  | abandon
  deriving DecidableEq, Repr

namespace Stage

def phase : Stage → Phase
  | electing => .electing
  | leading held _ => .leading held
  | following _ => .following

def call : Stage → Call
  | electing => .create
  | leading held _ => .renew held
  | following _ => .poll

def ticker? : Stage → Option Ticker
  | electing => none
  | leading _ ticker | following ticker => some ticker

def withTicker (stage : Stage) (ticker : Ticker) : Stage :=
  match stage with
  | electing => electing
  | leading held _ => leading held ticker
  | following _ => following ticker

def look (stage : Stage) (signals : Signals) (now : Nat) : Move :=
  if signals.stopRequested then .finish .stopped
  else if signals.cancelled then .finish .cancelled
  else match stage.ticker? with
    | none => .call stage
    | some ticker =>
        if !signals.listening then .abandon
        else if ticker.isDue now then .call (stage.withTicker (ticker.take now))
        else .rest

/-- Where the answer to the call of this stage leads. A call answers with the entry that the key then
holds. -/
def transition (stage : Stage) (answer : Except StoreError Entry) : Transition :=
  match stage with
  | electing => .afterCreate (answer.map Entry.revision)
  | leading _ _ => .afterRenewal (answer.map Entry.revision)
  | following _ => .afterPoll answer

def enter (stage : Stage) (candidacy : Candidacy) (now : Nat) : Phase → Stage
  | .electing => electing
  | .leading held => match stage with
      | leading _ ticker => leading held ticker
      | _ => leading held (.after now candidacy.renewEvery)
  | .following => match stage with
      | following ticker => following ticker
      | _ => following (.after now candidacy.pollEvery)

theorem phase_enter (stage : Stage) (candidacy : Candidacy) (now : Nat) (next : Phase) :
    (stage.enter candidacy now next).phase = next := by
  cases next <;> cases stage <;> rfl

/-- The ticker stays while the phase is of the same kind, and a phase of another kind has a new one. -/
theorem ticker?_enter (stage : Stage) (candidacy : Candidacy) (now : Nat) (next : Phase) :
    (stage.enter candidacy now next).ticker? =
      if stage.phase.sameKind next then stage.ticker?
      else (next.interval? candidacy).map (Ticker.after now) := by
  cases next <;> cases stage <;> rfl

theorem call_withTicker (stage : Stage) (ticker : Ticker) :
    (stage.withTicker ticker).call = stage.call := by
  cases stage <;> rfl

end Stage

inductive Task where
  | unstarted
  | between (stage : Stage)
  | calling (stage : Stage) (began : Nat)
  | ended
  deriving DecidableEq, Repr

structure Candidate where
  candidacy : Candidacy
  task : Task := .unstarted
  stopRequested : Bool := false
  /-- Somebody holds the receiving end of the reports. -/
  listening : Bool := false
  reports : List Outcome := []
  deriving DecidableEq

namespace Candidate

variable (candidate : Candidate)

def stage? : Option Stage :=
  match candidate.task with
  | .between stage | .calling stage _ => some stage
  | .unstarted | .ended => none

def closed : Bool := candidate.task == .ended

def start : Candidate := { candidate with task := .between .electing, listening := true }

def stop : Candidate := { candidate with stopRequested := true }

def deafen : Candidate := { candidate with listening := false }

def report (outcome : Outcome) : Candidate :=
  if candidate.listening then { candidate with reports := candidate.reports ++ [outcome] }
  else candidate

def finish (outcome : Outcome) : Candidate := { candidate.report outcome with task := .ended }

/-- Go on in a stage after reporting, or end when there is nobody to report to. -/
def goOn (stage : Stage) : Option Outcome → Candidate
  | none => { candidate with task := .between stage }
  | some outcome =>
      if candidate.listening then { candidate.report outcome with task := .between stage }
      else { candidate with task := .ended }

def settle (now : Nat) (stage : Stage) (answer : Except StoreError Entry) : Candidate :=
  match stage.transition answer with
  | .enter phase outcome? => candidate.goOn (stage.enter candidate.candidacy now phase) outcome?
  | .finish outcome => candidate.finish outcome

def move (now : Nat) : Move → Candidate
  | .rest => candidate
  | .call stage => { candidate with task := .calling stage now }
  | .finish outcome => candidate.finish outcome
  | .abandon => { candidate with task := .ended }

def signals (cancelled : Bool) : Signals := ⟨candidate.stopRequested, cancelled, candidate.listening⟩

end Candidate

def Call.perform (call : Call) (candidacy : Candidacy) (bucket : Bucket) (now : Nat) :
    Except StoreError Entry × Bucket :=
  let value := candidacy.candidate.bytes
  let left (revision : Revision) : Entry := ⟨candidacy.key, value, revision⟩
  match call with
  | .create => (bucket.create now candidacy.key value).map (·.map left) id
  | .renew held => (bucket.update now candidacy.key value held).map (·.map left) id
  | .poll => bucket.get now candidacy.key

end Leasehold
