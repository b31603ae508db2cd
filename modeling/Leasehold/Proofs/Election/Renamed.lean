import Leasehold.Proofs.Store.Excerpt
import Leasehold.Proofs.Contest.Turn

set_option autoImplicit false

/-!
Candidates under other revision numbers.

A candidate never looks into a revision. It keeps the one that it was given and hands it back, so all
that it does commutes with a renaming.
-/

namespace Leasehold

section Renamed

variable (rename : Revision → Revision)

def Outcome.renamed : Outcome → Outcome
  | error cause => error (cause.renamed rename)
  | outcome => outcome

def Phase.renamed : Phase → Phase
  | leading held => leading (rename held)
  | phase => phase

def Transition.renamed : Transition → Transition
  | enter phase report => enter (phase.renamed rename) (report.map (Outcome.renamed rename))
  | finish outcome => finish (outcome.renamed rename)

def Call.renamed : Call → Call
  | renew held => renew (rename held)
  | call => call

def Stage.renamed : Stage → Stage
  | leading held ticker => leading (rename held) ticker
  | stage => stage

def Move.renamed : Move → Move
  | call stage => call (stage.renamed rename)
  | finish outcome => finish (outcome.renamed rename)
  | move => move

def Task.renamed : Task → Task
  | between stage => between (stage.renamed rename)
  | calling stage began => calling (stage.renamed rename) began
  | task => task

def Candidate.renamed (candidate : Candidate) : Candidate :=
  { candidate with
    task := candidate.task.renamed rename
    reports := candidate.reports.map (Outcome.renamed rename) }

def Flight.renamed (flight : Flight) : Flight :=
  { flight with
    landed := flight.landed.map fun landing =>
      (landing.1, renamedAnswer rename (Entry.renamed rename) landing.2) }

def Member.renamed (member : Member) : Member :=
  { member with
    candidate := member.candidate.renamed rename
    flight := member.flight.map (Flight.renamed rename) }

def CallRecord.renamed (record : CallRecord) : CallRecord :=
  { record with
    call := record.call.renamed rename
    landed := record.landed.map fun landing =>
      (landing.1, renamedAnswer rename (Entry.renamed rename) landing.2) }

end Renamed

variable {rename : Revision → Revision}

/-! ### Stages -/

namespace Stage

variable (stage : Stage)

theorem call_renamed : (stage.renamed rename).call = stage.call.renamed rename := by
  cases stage <;> rfl

theorem look_renamed (signals : Signals) (now : Nat) :
    (stage.renamed rename).look signals now = (stage.look signals now).renamed rename := by
  have ticking : (stage.renamed rename).ticker? = stage.ticker? := by cases stage <;> rfl
  have taken (ticker : Ticker) : (stage.renamed rename).withTicker ticker =
      (stage.withTicker ticker).renamed rename := by cases stage <;> rfl
  unfold look
  rw [ticking]
  split
  · rfl
  split
  · rfl
  cases stage.ticker? with
  | none => rfl
  | some ticker =>
      simp only [taken]
      split
      · rfl
      split <;> rfl

theorem transition_renamed (answer : Except StoreError Entry) :
    (stage.renamed rename).transition (renamedAnswer rename (Entry.renamed rename) answer) =
      (stage.transition answer).renamed rename := by
  have taken (cause : StoreError) : (cause.renamed rename).isKeyExists = cause.isKeyExists := by
    cases cause <;> rfl
  have conflict (cause : StoreError) : (cause.renamed rename).isConflict = cause.isConflict := by
    cases cause <;> rfl
  have absent (cause : StoreError) : (cause.renamed rename).isNotFound = cause.isNotFound := by
    cases cause <;> rfl
  cases answer with
  | ok entry => cases stage <;> rfl
  | error cause =>
      cases stage with
      | electing =>
          simp only [renamed, renamedAnswer, transition, Except.map, Transition.afterCreate, taken]
          split <;> rfl
      | leading held ticker =>
          simp only [renamed, renamedAnswer, transition, Except.map, Transition.afterRenewal, conflict]
          split <;> rfl
      | following ticker =>
          simp only [renamed, renamedAnswer, transition, Transition.afterPoll, absent]
          split <;> rfl

theorem enter_renamed (candidacy : Candidacy) (now : Nat) (phase : Phase) :
    (stage.renamed rename).enter candidacy now (phase.renamed rename) =
      (stage.enter candidacy now phase).renamed rename := by
  cases phase <;> cases stage <;> rfl

end Stage

/-! ### Candidates -/

namespace Candidate

variable (candidate : Candidate)

theorem report_renamed (outcome : Outcome) :
    (candidate.renamed rename).report (outcome.renamed rename) =
      (candidate.report outcome).renamed rename := by
  unfold report
  by_cases listens : candidate.listening = true
  · rw [if_pos listens, if_pos (show (candidate.renamed rename).listening = true from listens)]
    simp only [renamed, List.map_append, List.map_cons, List.map_nil]
  · rw [if_neg listens, if_neg (show ¬(candidate.renamed rename).listening = true from listens)]

theorem finish_renamed (outcome : Outcome) :
    (candidate.renamed rename).finish (outcome.renamed rename) =
      (candidate.finish outcome).renamed rename := by
  unfold finish
  rw [report_renamed]
  rfl

theorem goOn_renamed (stage : Stage) (outcome? : Option Outcome) :
    (candidate.renamed rename).goOn (stage.renamed rename) (outcome?.map (Outcome.renamed rename)) =
      (candidate.goOn stage outcome?).renamed rename := by
  cases outcome? with
  | none => rfl
  | some outcome =>
      simp only [goOn, Option.map_some]
      by_cases listens : candidate.listening = true
      · rw [if_pos listens, if_pos (show (candidate.renamed rename).listening = true from listens),
          report_renamed]
        rfl
      · rw [if_neg listens, if_neg (show ¬(candidate.renamed rename).listening = true from listens)]
        rfl

theorem settle_renamed (now : Nat) (stage : Stage) (answer : Except StoreError Entry) :
    (candidate.renamed rename).settle now (stage.renamed rename)
        (renamedAnswer rename (Entry.renamed rename) answer) =
      (candidate.settle now stage answer).renamed rename := by
  unfold settle
  rw [Stage.transition_renamed]
  cases stage.transition answer with
  | enter phase outcome? =>
      simp only [Transition.renamed]
      rw [show (candidate.renamed rename).candidacy = candidate.candidacy from rfl,
        Stage.enter_renamed, goOn_renamed]
  | finish outcome => exact finish_renamed candidate outcome

end Candidate

/-! ### Calls -/

theorem Call.operation_renamed (call : Call) (candidacy : Candidacy) :
    (call.renamed rename).operation candidacy = (call.operation candidacy).renamed rename := by
  cases call <;> rfl

theorem Call.key_operation (call : Call) (candidacy : Candidacy) :
    (call.operation candidacy).key = candidacy.key := by
  cases call <;> rfl

/-- What the answer to a call leaves the caller with. -/
theorem Candidacy.seen_renamed {bucket after : Bucket} {now : Nat} {call : Call}
    {candidacy : Candidacy} {reply : Except StoreError Reply}
    (performed : bucket.Performed now (call.operation candidacy) reply after) :
    (renamedAnswer rename (Reply.renamed rename) reply).map candidacy.seen =
      renamedAnswer rename (Entry.renamed rename) (reply.map candidacy.seen) := by
  cases reply with
  | error cause => rfl
  | ok answered =>
      cases answered with
      | found | written => rfl
      | removed => cases call <;> cases performed

/-! ### Members -/

namespace Member

variable (member : Member)

theorem progressAt_renamed (began : Nat) (flight : Flight) :
    progressAt began (flight.renamed rename) = progressAt began flight := by
  unfold progressAt Flight.renamed
  cases flight.landed <;> rfl

theorem step?_renamed (cancelled : Bool) (now : Nat) :
    (member.renamed rename).step? cancelled now = member.step? cancelled now := by
  cases task : member.candidate.task with
  | unstarted | ended => simp only [step?, renamed, Candidate.renamed, task, Task.renamed]
  | between stage =>
      have same := @Stage.look_renamed rename stage (member.candidate.signals cancelled) now
      simp only [step?, renamed, Candidate.renamed, task, Task.renamed]
      change (if (stage.renamed rename).look (member.candidate.signals cancelled) now = .rest
        then none else some Step.look) = _
      rw [same]
      cases stage.look (member.candidate.signals cancelled) now <;> rfl
  | calling stage began =>
      cases flying : member.flight with
      | none => simp only [step?, renamed, Candidate.renamed, task, Task.renamed, flying,
          Option.map_none]
      | some flight =>
          have landed : (flight.renamed rename).landed.isSome = flight.landed.isSome :=
            Option.isSome_map
          simp only [step?, renamed, Candidate.renamed, task, Task.renamed, flying, Option.map_some,
            progressAt_renamed, landed, limitAt?]
          rfl

theorem wakeAt?_renamed : (member.renamed rename).wakeAt? = member.wakeAt? := by
  cases task : member.candidate.task with
  | unstarted | ended => simp only [wakeAt?, renamed, Candidate.renamed, task, Task.renamed]
  | between stage =>
      simp only [wakeAt?, renamed, Candidate.renamed, task, Task.renamed]
      cases stage <;> rfl
  | calling stage began =>
      cases flying : member.flight with
      | none => simp only [wakeAt?, renamed, Candidate.renamed, task, Task.renamed, flying,
          Option.map_none]
      | some flight =>
          simp only [wakeAt?, renamed, Candidate.renamed, task, Task.renamed, flying,
            Option.map_some, progressAt_renamed, limitAt?]

end Member

end Leasehold
