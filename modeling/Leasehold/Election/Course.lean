import Leasehold.Election.Candidate

set_option autoImplicit false

/-!
The course of one election before a store that can answer anything at any time.

Only the limit on a call is kept here: an answer comes at the limit at the latest, and a call without
an answer is cut off exactly there.
-/

namespace Leasehold

structure CourseCall where
  call : Call
  began : Nat
  ended : Nat
  answer? : Option (Except StoreError Entry)

structure Course where
  candidate : Candidate
  cancelled : Bool := false
  now : Nat := 0
  /-- The calls that are over, the latest first. -/
  calls : List CourseCall := []

inductive CourseEvent where
  | start
  | stop
  | cancel
  | deafen
  | look
  | answer (result : Except StoreError Entry)
  | cutOff
  | passTo (instant : Nat)

namespace Course

variable (course : Course)

def move (stage : Stage) : Move :=
  stage.look (course.candidate.signals course.cancelled) course.now

def limitAt? (began : Nat) : Option Nat :=
  course.candidate.candidacy.callLimit?.map (began + ·)

/-- The candidate has to look up before time passes. -/
def attentive : Bool :=
  match course.candidate.task with
  | .between stage => course.move stage ≠ .rest
  | _ => false

def conclude (stage : Stage) (began : Nat) (answer? : Option (Except StoreError Entry)) : Course :=
  let answer := answer?.getD
    (.error (.timeout (course.candidate.candidacy.callLimitMs.getD 0)))
  { course with
    candidate := course.candidate.settle course.now stage answer
    calls := ⟨stage.call, began, course.now, answer?⟩ :: course.calls }

def act? : CourseEvent → Option Course
  | .start =>
      if course.candidate.task = .unstarted then
        some { course with candidate := course.candidate.start }
      else none
  | .stop => some { course with candidate := course.candidate.stop }
  | .cancel => some { course with cancelled := true }
  | .deafen => some { course with candidate := course.candidate.deafen }
  | .look =>
      match course.candidate.task with
      | .between stage =>
          if course.attentive then
            some { course with candidate := course.candidate.move course.now (course.move stage) }
          else none
      | _ => none
  | .answer result =>
      match course.candidate.task with
      | .calling stage began => some (course.conclude stage began (some result))
      | _ => none
  | .cutOff =>
      match course.candidate.task with
      | .calling stage began =>
          if course.limitAt? began = some course.now then some (course.conclude stage began none)
          else none
      | _ => none
  | .passTo instant =>
      let inTime := match course.candidate.task with
        | .calling _ began => (course.limitAt? began).all (instant ≤ ·)
        | .between stage => stage.ticker?.all (instant ≤ ·.due)
        | _ => true
      if !course.attentive && course.now ≤ instant && inTime then
        some { course with now := instant }
      else none

def run? (events : List CourseEvent) : Option Course :=
  events.foldlM act? course

def opening (candidacy : Candidacy) : Course := { candidate := { candidacy } }

end Course

end Leasehold
