import Leasehold.Election.Course
import Leasehold.Proofs.Runs
import Leasehold.Proofs.Election.Coherence

set_option autoImplicit false

/-!
The law of what an election reports, before a store that can answer anything at any time.

Reports come one at a time, and each has a cause in the state before it (`Course.Cause`). What these
states have in common is `Course.Orderly`; the law itself, `Course.Lawful`, reads the causes there.
-/

namespace Leasehold

namespace Course

/-! ### The cases of an event -/

inductive EventStep (course : Course) : CourseEvent → Course → Prop
  | started (fresh : course.candidate.task = .unstarted) :
      EventStep course .start { course with candidate := course.candidate.start }
  | stopped : EventStep course .stop { course with candidate := course.candidate.stop }
  | cancelled : EventStep course .cancel { course with cancelled := true }
  | deafened : EventStep course .deafen { course with candidate := course.candidate.deafen }
  | looked (stage : Stage) (between : course.candidate.task = .between stage) :
      EventStep course .look { course with
        candidate := course.candidate.move course.now (course.move stage) }
  | answered (stage : Stage) (began : Nat) (result : Except StoreError Entry)
      (calling : course.candidate.task = .calling stage began) :
      EventStep course (.answer result) (course.conclude stage began (some result))
  | cutOff (stage : Stage) (began limitMs : Nat)
      (calling : course.candidate.task = .calling stage began)
      (limited : course.candidate.candidacy.callLimitMs = some limitMs) :
      EventStep course .cutOff { course with
        candidate := course.candidate.finish (.error (.timeout limitMs))
        calls := ⟨stage.call, began, course.now, none⟩ :: course.calls }
  | passed (instant : Nat) : EventStep course (.passTo instant) { course with now := instant }

variable {course next : Course} {event : CourseEvent}

theorem eventStep_of_act? (acted : course.act? event = some next) : EventStep course event next := by
  cases event with
  | start =>
      simp only [act?] at acted
      split at acted
      · rename_i fresh
        cases acted
        exact .started fresh
      · cases acted
  | stop =>
      cases acted
      exact .stopped
  | cancel =>
      cases acted
      exact .cancelled
  | deafen =>
      cases acted
      exact .deafened
  | look =>
      simp only [act?] at acted
      split at acted
      · rename_i stage between
        split at acted
        · cases acted
          exact .looked stage between
        · cases acted
      · cases acted
  | answer result =>
      simp only [act?] at acted
      split at acted
      · rename_i stage began calling
        cases acted
        exact .answered stage began result calling
      · cases acted
  | cutOff =>
      simp only [act?] at acted
      split at acted
      · rename_i stage began calling
        split at acted
        · rename_i reached
          cases limited : course.candidate.candidacy.callLimitMs with
          | none =>
              simp only [limitAt?, Candidacy.callLimit?, limited] at reached
              cases reached
          | some limitMs =>
              cases acted
              have step := EventStep.cutOff stage began limitMs calling limited
              simp only [conclude, limited, Option.getD_none, Option.getD_some,
                Candidate.settle_timeout]
              exact step
        · cases acted
      · cases acted
  | passTo instant =>
      simp only [act?, Option.ite_none_right_eq_some, Option.some.injEq] at acted
      obtain ⟨_, rfl⟩ := acted
      exact .passed instant

/-! ### What reports come from -/

inductive Cause (course : Course) : CourseEvent → Outcome → Prop
  | looked (stage : Stage) (outcome : Outcome)
      (between : course.candidate.task = .between stage)
      (moved : course.move stage = .finish outcome) : Cause course .look outcome
  | told (stage : Stage) (began : Nat) (result : Except StoreError Entry) (phase : Phase)
      (outcome : Outcome) (calling : course.candidate.task = .calling stage began)
      (enters : stage.transition result = .enter phase (some outcome)) :
      Cause course (.answer result) outcome
  | failed (stage : Stage) (began : Nat) (cause : StoreError)
      (calling : course.candidate.task = .calling stage began) :
      Cause course (.answer (.error cause)) (.error cause)
  | cutOff (stage : Stage) (began limitMs : Nat)
      (calling : course.candidate.task = .calling stage began)
      (limited : course.candidate.candidacy.callLimitMs = some limitMs) :
      Cause course .cutOff (.error (.timeout limitMs))

/-- An event makes one report at most. -/
theorem EventStep.reports (step : EventStep course event next) :
    next.candidate.reports = course.candidate.reports ∨
      ∃ outcome, next.candidate.reports = course.candidate.reports ++ [outcome] ∧
        Cause course event outcome := by
  have finished (outcome : Outcome) (cause : Cause course event outcome) :
      (course.candidate.finish outcome).reports = course.candidate.reports ∨
        ∃ other, (course.candidate.finish outcome).reports = course.candidate.reports ++ [other] ∧
          Cause course event other := by
    rw [Candidate.reports_finish]
    split
    · exact Or.inr ⟨outcome, rfl, cause⟩
    · exact Or.inl (List.append_nil _)
  cases step with
  | started | stopped | cancelled | deafened | passed => exact Or.inl rfl
  | looked stage between =>
      cases moved : course.move stage with
      | rest | call | abandon => exact Or.inl rfl
      | finish outcome => exact finished outcome (.looked stage outcome between moved)
  | answered stage began result calling =>
      have settled := course.candidate.settled course.now stage result
      change (course.candidate.settle course.now stage result).reports = _ ∨
        ∃ outcome, (course.candidate.settle course.now stage result).reports = _ ∧ _
      generalize course.candidate.settle course.now stage result = after at settled ⊢
      cases settled with
      | silent | unheard => exact Or.inl rfl
      | told phase outcome enters heard =>
          exact Or.inr ⟨outcome, rfl, .told stage began result phase outcome calling enters⟩
      | ended outcome ends =>
          obtain ⟨cause, rfl, rfl⟩ := Stage.transition_finish ends
          exact finished _ (.failed stage began cause calling)
  | cutOff stage began limitMs calling limited =>
      exact finished _ (.cutOff stage began limitMs calling limited)

/-- Every report was made by one event of the run, after the reports before it. -/
theorem sent_of_run {first : Course} (unheard : first.candidate.reports = [])
    (events : List CourseEvent) (run : first.run? events = some course)
    {before after : List Outcome} {outcome : Outcome}
    (sent : course.candidate.reports = before ++ outcome :: after) :
    ∃ prior event rest mid, events = prior ++ event :: rest ∧ first.run? prior = some mid ∧
      mid.candidate.reports = before ∧ Cause mid event outcome := by
  have history : ∀ after, course.candidate.reports = before ++ outcome :: after →
      ∃ prior event rest mid, events = prior ++ event :: rest ∧ first.run? prior = some mid ∧
        mid.candidate.reports = before ∧ Cause mid event outcome := by
    refine Runs.induct (motive := fun events course => ∀ after,
      course.candidate.reports = before ++ outcome :: after →
      ∃ prior event rest mid, events = prior ++ event :: rest ∧ first.run? prior = some mid ∧
        mid.candidate.reports = before ∧ Cause mid event outcome) ?_ ?_ events run
    · intro after sent
      rw [unheard] at sent
      exact absurd sent.symm (by simp)
    · intro events course event next ran ih acted after sent
      have earlier (after : List Outcome)
          (sent : course.candidate.reports = before ++ outcome :: after) :
          ∃ prior cause rest mid, events ++ [event] = prior ++ cause :: rest ∧
            first.run? prior = some mid ∧ mid.candidate.reports = before ∧
              Cause mid cause outcome := by
        obtain ⟨prior, cause, rest, mid, rfl, reached, kept, because⟩ := ih after sent
        exact ⟨prior, cause, rest ++ [event], mid, by simp, reached, kept, because⟩
      rcases (eventStep_of_act? acted).reports with same | ⟨last, grown, because⟩
      · exact earlier after (same ▸ sent)
      -- The report is the new one, or it was there before.
      · rw [grown] at sent
        cases after using List.reverseRecOn with
        | nil =>
            obtain ⟨kept, only⟩ := List.append_inj' sent rfl
            cases only
            exact ⟨events, event, [], course, rfl, ran, kept, because⟩
        | append_singleton after final =>
            rw [← List.cons_append, ← List.append_assoc] at sent
            exact earlier after (List.append_inj' sent rfl).1
  exact history after sent

/-! ### What holds along the way -/

def FoundVacant (course : Course) : Prop :=
  ∃ record earlier key, course.calls = record :: earlier ∧ record.call = .poll ∧
    record.answer? = some (.error (.keyNotFound key))

/-- The last call failed with this cause, or it was cut off and this says so. -/
def FailedBy (course : Course) (cause : StoreError) : Prop :=
  ∃ record earlier, course.calls = record :: earlier ∧
    (record.answer? = some (.error cause) ∨
      record.answer? = none ∧ ∃ limitMs,
        course.candidate.candidacy.callLimitMs = some limitMs ∧ cause = .timeout limitMs)

structure Orderly (candidacy : Candidacy) (events : List CourseEvent) (course : Course) : Prop where
  terms : course.candidate.candidacy = candidacy
  coherent : course.candidate.Coherent
  heard : course.candidate.task ≠ .unstarted → course.candidate.listening = true
  asked : course.candidate.stopRequested = true ↔ .stop ∈ events
  gone : course.cancelled = true ↔ .cancel ∈ events
  again : course.candidate.stage? = some .electing → course.candidate.reports ≠ [] →
    course.FoundVacant
  failed : ∀ cause, .error cause ∈ course.candidate.reports → course.FailedBy cause

theorem orderly_opening (candidacy : Candidacy) : Orderly candidacy [] (opening candidacy) where
  terms := rfl
  coherent := .opening candidacy
  heard := fun started => absurd rfl started
  asked := by
    constructor <;> intro never <;> cases never
  gone := by
    constructor <;> intro never <;> cases never
  again := by
    intro never
    cases never
  failed := by
    intro cause never
    cases never

namespace EventStep

theorem terms_eq (step : EventStep course event next) :
    next.candidate.candidacy = course.candidate.candidacy := by
  cases step with
  | started | stopped | cancelled | deafened | passed => rfl
  | looked stage =>
      cases course.move stage with
      | rest | call | abandon => rfl
      | finish outcome => exact course.candidate.candidacy_finish outcome
  | answered stage began result => exact course.candidate.candidacy_settle course.now stage result
  | cutOff => exact course.candidate.candidacy_finish _

theorem coherent (step : EventStep course event next) (coherent : course.candidate.Coherent) :
    next.candidate.Coherent := by
  cases step with
  | started fresh => exact coherent.start fresh
  | stopped => exact coherent.stop
  | deafened => exact coherent.deafen
  | cancelled | passed => exact coherent
  | looked stage between => exact coherent.move between course.now course.cancelled
  | answered stage began result calling =>
      exact coherent.settle (Candidate.stage?_of_calling calling) result
  | cutOff stage began limitMs calling =>
      exact coherent.finish (Candidate.stage?_of_calling calling) rfl

theorem heard (step : EventStep course event next) (undeafened : event ≠ .deafen)
    (heard : course.candidate.task ≠ .unstarted → course.candidate.listening = true)
    (started : next.candidate.task ≠ .unstarted) : next.candidate.listening = true := by
  cases step with
  | started => rfl
  | deafened => exact absurd rfl undeafened
  | stopped | cancelled | passed => exact heard started
  | looked stage between =>
      have listening := heard (by rw [between]; exact Task.noConfusion)
      cases course.move stage with
      | rest | call | abandon => exact listening
      | finish outcome => exact (course.candidate.listening_finish outcome).trans listening
  | answered stage began result calling =>
      have listening := heard (by rw [calling]; exact Task.noConfusion)
      exact (course.candidate.listening_settle course.now stage result).trans listening
  | cutOff stage began limitMs calling =>
      have listening := heard (by rw [calling]; exact Task.noConfusion)
      exact (course.candidate.listening_finish _).trans listening

theorem stopRequested_iff (step : EventStep course event next) :
    next.candidate.stopRequested = true ↔
      course.candidate.stopRequested = true ∨ .stop = event := by
  cases step with
  | stopped => exact ⟨fun _ => Or.inr rfl, fun _ => rfl⟩
  | started | deafened | cancelled | passed => exact (or_iff_left CourseEvent.noConfusion).symm
  | looked stage =>
      rw [or_iff_left CourseEvent.noConfusion]
      cases course.move stage with
      | rest | call | abandon => exact Iff.rfl
      | finish outcome => exact iff_of_eq (by rw [Candidate.move, Candidate.stopRequested_finish])
  | answered stage began result =>
      rw [or_iff_left CourseEvent.noConfusion, conclude, Candidate.stopRequested_settle]
  | cutOff => rw [or_iff_left CourseEvent.noConfusion, Candidate.stopRequested_finish]

theorem cancelled_iff (step : EventStep course event next) :
    next.cancelled = true ↔ course.cancelled = true ∨ .cancel = event := by
  cases step with
  | cancelled => exact ⟨fun _ => Or.inr rfl, fun _ => rfl⟩
  | _ => exact (or_iff_left CourseEvent.noConfusion).symm

/-- Only a look at a vacant key makes a candidate stand again. -/
theorem again (step : EventStep course event next) (coherent : course.candidate.Coherent)
    (again : course.candidate.stage? = some .electing → course.candidate.reports ≠ [] →
      course.FoundVacant)
    (standing : next.candidate.stage? = some .electing) (told : next.candidate.reports ≠ []) :
    next.FoundVacant := by
  cases step with
  | started fresh => exact absurd (coherent.silent fresh) told
  | stopped | cancelled | deafened | passed => exact again standing told
  | looked stage between =>
      cases moved : course.move stage with
      | finish | abandon =>
          rw [moved] at standing
          cases standing
      | rest =>
          rw [moved] at standing told
          exact again standing told
      | call following =>
          rw [moved] at standing told
          obtain ⟨_, _, ⟨rfl, _⟩ | ⟨ticker, ticking, _, rfl⟩⟩ := Stage.look_call moved
          · exact again (Candidate.stage?_of_between between) told
          · cases stage with
            | electing => cases ticking
            | leading | following => cases standing
  | answered stage began result calling =>
      have settled := course.candidate.settled course.now stage result
      change (course.candidate.settle course.now stage result).stage? = _ at standing
      generalize course.candidate.settle course.now stage result = after at settled standing
      have vacant {phase : Phase} {report : Option Outcome}
          (enters : stage.transition result = .enter phase report)
          (entered : stage.enter course.candidate.candidacy course.now phase = .electing) :
          (course.conclude stage began (some result)).FoundVacant := by
        have phased := Stage.phase_enter stage course.candidate.candidacy course.now phase
        rw [entered] at phased
        subst phase
        obtain ⟨⟨ticker, rfl⟩, _, key, rfl⟩ := Stage.transition_enter_electing enters
        exact ⟨_, _, key, rfl, rfl, rfl⟩
      cases settled with
      | silent phase enters => exact vacant enters (Option.some.inj standing)
      | told phase outcome enters => exact vacant enters (Option.some.inj standing)
      | unheard | ended => cases standing
  | cutOff => cases standing

/-- A failure that is reported is that of the last call, for the election ends with it. -/
theorem failed (step : EventStep course event next) (coherent : course.candidate.Coherent)
    (failed : ∀ cause, .error cause ∈ course.candidate.reports → course.FailedBy cause)
    (cause : StoreError) (sent : .error cause ∈ next.candidate.reports) : next.FailedBy cause := by
  have fresh {outcome : Outcome} (unsent : .error cause ∉ course.candidate.reports)
      (sent : .error cause ∈ (course.candidate.finish outcome).reports) :
      outcome = .error cause := by
    rw [Candidate.reports_finish] at sent
    rcases List.mem_append.mp sent with earlier | last
    · exact absurd earlier unsent
    · split at last
      · exact (List.mem_singleton.mp last).symm
      · cases last
  have regular {stage : Stage} (current : course.candidate.stage? = some stage) :
      .error cause ∉ course.candidate.reports := by
    intro earlier
    have mild := (coherent.running stage current).2.not_terminal earlier
    cases mild
  cases step with
  | started | stopped | cancelled | deafened | passed => exact failed cause sent
  | looked stage between =>
      cases moved : course.move stage with
      | rest | call | abandon =>
          rw [moved] at sent
          exact absurd sent (regular (Candidate.stage?_of_between between))
      | finish outcome =>
          rw [moved] at sent
          obtain rfl := fresh (regular (Candidate.stage?_of_between between)) sent
          rcases Stage.look_finish moved with ⟨ending, _⟩ | ⟨ending, _⟩ <;> cases ending
  | answered stage began result calling =>
      have current := Candidate.stage?_of_calling calling
      have settled := course.candidate.settled course.now stage result
      change _ ∈ (course.candidate.settle course.now stage result).reports at sent
      generalize course.candidate.settle course.now stage result = after at settled sent
      cases settled with
      | silent | unheard => exact absurd sent (regular current)
      | told phase outcome enters heard =>
          obtain ⟨told, changes⟩ := coherent.running stage current
          have changed :=
            (Stage.told_of_report told changes enters course.candidate.candidacy course.now).2
          have mild := changed.not_terminal sent
          cases mild
      | ended outcome ends =>
          obtain ⟨reason, rfl, rfl⟩ := Stage.transition_finish ends
          cases fresh (regular current) sent
          exact ⟨_, _, rfl, Or.inl rfl⟩
  | cutOff stage began limitMs calling limited =>
      have current := Candidate.stage?_of_calling calling
      cases fresh (regular current) sent
      refine ⟨_, _, rfl, Or.inr ⟨rfl, limitMs, ?_, rfl⟩⟩
      exact (congrArg Candidacy.callLimitMs (course.candidate.candidacy_finish _)).trans limited

end EventStep

theorem Orderly.step {candidacy : Candidacy} {events : List CourseEvent}
    (orderly : Orderly candidacy events course) (step : EventStep course event next)
    (undeafened : event ≠ .deafen) : Orderly candidacy (events ++ [event]) next where
  terms := step.terms_eq.trans orderly.terms
  coherent := step.coherent orderly.coherent
  heard := step.heard undeafened orderly.heard
  asked := by
    rw [step.stopRequested_iff, orderly.asked, List.mem_append, List.mem_singleton]
  gone := by
    rw [step.cancelled_iff, orderly.gone, List.mem_append, List.mem_singleton]
  again := step.again orderly.coherent orderly.again
  failed := step.failed orderly.coherent orderly.failed

theorem orderly_of_run {candidacy : Candidacy} {events : List CourseEvent}
    (run : (opening candidacy).run? events = some course) (undeafened : .deafen ∉ events) :
    Orderly candidacy events course := by
  refine Runs.induct (motive := fun events course => .deafen ∉ events →
    Orderly candidacy events course) ?_ ?_ events run undeafened
  · intro _
    exact orderly_opening candidacy
  · intro events course event next _ ih acted undeafened
    refine (ih ?_).step (eventStep_of_act? acted) ?_
    · intro present
      exact undeafened (List.mem_append_left _ present)
    · rintro rfl
      exact undeafened (List.mem_append_right _ List.mem_cons_self)

/-! ### What the causes of reports require -/

/-- Losing twice in a row means to have stood again in between and to have come too late. -/
theorem Cause.of_lost (because : course.Cause event .lost) (coherent : course.candidate.Coherent)
    (last : course.candidate.reports.getLast? = some .lost) :
    ∃ key began, event = .answer (.error (.keyExists key)) ∧
      course.candidate.task = .calling .electing began := by
  cases because with
  | looked stage _ between moved =>
      rcases Stage.look_finish moved with ⟨ending, _⟩ | ⟨ending, _⟩ <;> cases ending
  | told stage began result phase _ calling enters =>
      cases phase with
      | electing =>
          obtain ⟨_, report, _⟩ := Stage.transition_enter_electing enters
          cases report
      | leading held =>
          obtain ⟨_, ⟨_, report⟩ | ⟨_, _, _, report⟩⟩ := Stage.transition_enter_leading enters <;>
            cases report
      | following =>
          obtain ⟨rfl, _, key, rfl⟩ | ⟨⟨held, ticker, rfl⟩, _⟩ | ⟨_, report⟩ :=
            Stage.transition_enter_following enters
          · exact ⟨key, began, rfl, calling⟩
          · have leads : course.candidate.reports.getLast? = some .won :=
              (coherent.running _ (Candidate.stage?_of_calling calling)).1
            rw [last] at leads
            cases leads
          · cases report

theorem Cause.of_interruption {outcome : Outcome} (because : course.Cause event outcome)
    (interrupts : outcome = .stopped ∨ outcome = .cancelled) :
    event = .look ∧
      (outcome = .stopped ∧ course.candidate.stopRequested = true ∨
        outcome = .cancelled ∧ course.cancelled = true ∧
          course.candidate.stopRequested = false) := by
  cases because with
  | looked stage _ between moved => exact ⟨rfl, Stage.look_finish moved⟩
  | told stage began result phase _ calling enters =>
      rcases Stage.transition_report enters with rfl | rfl <;>
        rcases interrupts with never | never <;> cases never
  | failed | cutOff => rcases interrupts with never | never <;> cases never

/-! ### The law -/

structure Lawful (candidacy : Candidacy) (events : List CourseEvent) (course : Course) : Prop where
  grammar : ∃ (changes : List Outcome) (ending? : Option Outcome),
    course.candidate.reports = changes ++ ending?.toList ∧ Outcome.Changes changes ∧
      ∀ ending ∈ ending?, ending.isTerminal = true
  closes : course.candidate.closed = true ↔
    ∃ ending, course.candidate.reports.getLast? = some ending ∧ ending.isTerminal = true
  waits : ∀ stage ticker, course.candidate.task = .between stage → stage.ticker? = some ticker →
    ((∃ held, stage.phase = .leading held) ↔ course.candidate.reports.getLast? = some .won) ∧
      (stage.phase = .following ↔ course.candidate.reports.getLast? = some .lost)
  relost : ∀ before after, course.candidate.reports = before ++ .lost :: .lost :: after →
    ∃ (prior rest : List CourseEvent) (mid : Course) (key : String) (began : Nat),
      events = prior ++ .answer (.error (.keyExists key)) :: rest ∧
        (opening candidacy).run? prior = some mid ∧
        mid.candidate.reports = before ++ [.lost] ∧
        mid.candidate.task = .calling .electing began ∧ mid.FoundVacant
  failed : ∀ cause, .error cause ∈ course.candidate.reports → course.FailedBy cause
  stopped : ∀ before after, course.candidate.reports = before ++ .stopped :: after →
    ∃ (prior rest : List CourseEvent) (mid : Course), events = prior ++ .look :: rest ∧
      (opening candidacy).run? prior = some mid ∧ mid.candidate.reports = before ∧
      .stop ∈ prior
  cancelled : ∀ before after, course.candidate.reports = before ++ .cancelled :: after →
    ∃ (prior rest : List CourseEvent) (mid : Course), events = prior ++ .look :: rest ∧
      (opening candidacy).run? prior = some mid ∧ mid.candidate.reports = before ∧
      .cancel ∈ prior ∧ .stop ∉ prior

/-- Every election that is heard is lawful, whatever the store answers, however long that takes, and
whenever the election is stopped, dropped or cancelled. -/
theorem lawful_of_run {candidacy : Candidacy} {events : List CourseEvent}
    (run : (opening candidacy).run? events = some course) (undeafened : .deafen ∉ events) :
    course.Lawful candidacy events := by
  have orderly := orderly_of_run run undeafened
  have sent {before after : List Outcome} {outcome : Outcome}
      (whole : course.candidate.reports = before ++ outcome :: after) :
      ∃ prior event rest mid, events = prior ++ event :: rest ∧
        (opening candidacy).run? prior = some mid ∧ mid.candidate.reports = before ∧
        Orderly candidacy prior mid ∧ mid.Cause event outcome := by
    obtain ⟨prior, event, rest, mid, rfl, reached, kept, because⟩ := sent_of_run rfl events run whole
    have orderlyThen := orderly_of_run reached
      (fun present => undeafened (List.mem_append_left _ present))
    exact ⟨prior, event, rest, mid, rfl, reached, kept, orderlyThen, because⟩
  refine ⟨orderly.coherent.grammar, orderly.coherent.closed_iff orderly.heard,
    fun _ _ => orderly.coherent.waits, ?_, orderly.failed, ?_, ?_⟩
  · intro before after whole
    obtain ⟨prior, event, rest, mid, split, reached, kept, orderlyThen, because⟩ :=
      sent ((List.append_assoc before [.lost] (.lost :: after)).symm ▸ whole)
    have last : mid.candidate.reports.getLast? = some .lost := by
      rw [kept]
      exact List.getLast?_concat
    obtain ⟨key, began, rfl, calling⟩ := because.of_lost orderlyThen.coherent last
    have vacant := orderlyThen.again (Candidate.stage?_of_calling calling) (by simp [kept])
    exact ⟨prior, rest, mid, key, began, split, reached, kept, calling, vacant⟩
  · intro before after whole
    obtain ⟨prior, event, rest, mid, split, reached, kept, orderlyThen, because⟩ := sent whole
    obtain ⟨rfl, ⟨_, asked⟩ | ⟨never, _⟩⟩ := because.of_interruption (Or.inl rfl)
    · exact ⟨prior, rest, mid, split, reached, kept, orderlyThen.asked.mp asked⟩
    · cases never
  · intro before after whole
    obtain ⟨prior, event, rest, mid, split, reached, kept, orderlyThen, because⟩ := sent whole
    obtain ⟨rfl, ⟨never, _⟩ | ⟨_, gone, unasked⟩⟩ := because.of_interruption (Or.inr rfl)
    · cases never
    · refine ⟨prior, rest, mid, split, reached, kept, orderlyThen.gone.mp gone, ?_⟩
      intro asked
      rw [orderlyThen.asked.mpr asked] at unasked
      cases unasked

/-- A candidate wins, is replaced, finds the key vacant, comes too late and is asked to stop. -/
def twiceLost : List CourseEvent :=
  [.start, .look, .answer (.ok ⟨"k", [], ⟨1⟩⟩), .passTo 2_000_000, .look,
    .answer (.error (.wrongRevision "k" ⟨1⟩ (some ⟨2⟩))), .passTo 3_000_000, .look,
    .answer (.error (.keyNotFound "k")), .look, .answer (.error (.keyExists "k")), .stop, .look]

def hasty : Candidacy :=
  { key := "k", candidate := ⟨"a"⟩, renewEveryMs := 2, pollEveryMs := 1 }

def afterTwiceLost : Course where
  candidate :=
    { candidacy := hasty
      task := .ended
      stopRequested := true
      listening := true
      reports := [.won, .lost, .lost, .stopped] }
  now := 3_000_000
  calls :=
    [⟨.create, 3_000_000, 3_000_000, some (.error (.keyExists "k"))⟩,
      ⟨.poll, 3_000_000, 3_000_000, some (.error (.keyNotFound "k"))⟩,
      ⟨.renew ⟨1⟩, 2_000_000, 2_000_000, some (.error (.wrongRevision "k" ⟨1⟩ (some ⟨2⟩)))⟩,
      ⟨.create, 0, 0, some (.ok ⟨"k", [], ⟨1⟩⟩)⟩]

theorem run_twiceLost : (opening hasty).run? twiceLost = some afterTwiceLost := rfl

theorem deafen_not_mem_twiceLost : .deafen ∉ twiceLost := by
  simp [twiceLost]

theorem lawful_afterTwiceLost :
    (opening hasty).run? twiceLost = some afterTwiceLost ∧ .deafen ∉ twiceLost ∧
      afterTwiceLost.Lawful hasty twiceLost :=
  ⟨run_twiceLost, deafen_not_mem_twiceLost, lawful_of_run run_twiceLost deafen_not_mem_twiceLost⟩

end Course

end Leasehold
