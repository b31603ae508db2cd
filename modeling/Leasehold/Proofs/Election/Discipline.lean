import Leasehold.Proofs.Contest.Turn
import Leasehold.Proofs.Election.Reports

set_option autoImplicit false

/-!
The law of the calls of one election, before a store that can answer anything at any time.

What a candidate asks for next follows from the last call and its answer alone (`Operation.Follows`):
an election is a walk of creates, updates and looks that ends with the first answer that it does not
expect. `Course.Ordered` says so of the calls that are over, of the one under way and of the one that
a waiting candidate will make; `Course.Disciplined` is what this means for a whole run.
-/

namespace Leasehold

/-! ### Answers and what may come after them -/

inductive StoreError.Conflicts : StoreError → Prop
  | taken (key : String) : Conflicts (.keyExists key)
  | stale (key : String) (expected : Revision) (actual : Option Revision) :
      Conflicts (.wrongRevision key expected actual)
  | gone (key : String) : Conflicts (.keyNotFound key)

/-- The failures that tell a candidate who leads. Any other one ends its election. -/
def Call.Expects : Call → StoreError → Prop
  | .create, cause => ∃ key, cause = .keyExists key
  | .renew _, cause => cause.Conflicts
  | .poll, cause => ∃ key, cause = .keyNotFound key

/-- What a candidate may ask the store for after the calls so far, the latest of which comes first. -/
inductive Operation.Follows (candidacy : Candidacy) : Operation → List CourseCall → Prop
  | first : Follows candidacy (.create candidacy.key candidacy.candidate.bytes) []
  | again (last : CourseCall) (earlier : List CourseCall) (key : String)
      (polled : last.call = .poll) (vacant : last.answer? = some (.error (.keyNotFound key))) :
      Follows candidacy (.create candidacy.key candidacy.candidate.bytes) (last :: earlier)
  | written (last : CourseCall) (earlier : List CourseCall) (entry : Entry)
      (wrote : last.call = .create ∨ ∃ held, last.call = .renew held)
      (done : last.answer? = some (.ok entry)) :
      Follows candidacy (.update candidacy.key candidacy.candidate.bytes entry.revision)
        (last :: earlier)
  | seen (last : CourseCall) (earlier : List CourseCall) (entry : Entry)
      (polled : last.call = .poll) (held : last.answer? = some (.ok entry)) :
      Follows candidacy (.get candidacy.key) (last :: earlier)
  | late (last : CourseCall) (earlier : List CourseCall) (key : String)
      (created : last.call = .create) (taken : last.answer? = some (.error (.keyExists key))) :
      Follows candidacy (.get candidacy.key) (last :: earlier)
  | deposed (last : CourseCall) (earlier : List CourseCall) (held : Revision) (cause : StoreError)
      (renewed : last.call = .renew held) (refused : last.answer? = some (.error cause))
      (conflict : cause.Conflicts) :
      Follows candidacy (.get candidacy.key) (last :: earlier)

theorem StoreError.conflicts_of_isConflict {cause : StoreError} (conflict : cause.isConflict = true) :
    cause.Conflicts := by
  cases cause with
  | keyNotFound key => exact .gone key
  | keyExists key => exact .taken key
  | wrongRevision key expected actual => exact .stale key expected actual
  | unavailable | timeout | failed => cases conflict

namespace Operation

variable {candidacy : Candidacy} {operation : Operation} {last : CourseCall}
  {earlier : List CourseCall}

/-- After a call that was cut off, or that failed in a way its caller does not expect, there is no
other. -/
theorem Follows.expected (follows : operation.Follows candidacy (last :: earlier)) :
    ∃ answer, last.answer? = some answer ∧
      ∀ cause, answer = .error cause → last.call.Expects cause := by
  cases follows with
  | again _ _ key polled vacant =>
      refine ⟨_, vacant, ?_⟩
      rintro _ ⟨⟩
      rw [polled]
      exact ⟨key, rfl⟩
  | written _ _ _ _ done | seen _ _ _ _ done =>
      refine ⟨_, done, ?_⟩
      intro cause never
      cases never
  | late _ _ key created taken =>
      refine ⟨_, taken, ?_⟩
      rintro _ ⟨⟩
      rw [created]
      exact ⟨key, rfl⟩
  | deposed _ _ held cause renewed refused conflict =>
      refine ⟨_, refused, ?_⟩
      rintro _ ⟨⟩
      rw [renewed]
      exact conflict

end Operation

/-! ### What a stage asks for -/

def Phase.call : Phase → Call
  | .electing => .create
  | .leading held => .renew held
  | .following => .poll

namespace Stage

variable {stage next : Stage} {answer : Except StoreError Entry} {signals : Signals} {now : Nat}

theorem call_eq_of_phase (stage : Stage) : stage.call = stage.phase.call := by
  cases stage <;> rfl

theorem call_of_look (looks : stage.look signals now = .call next) : next.call = stage.call := by
  obtain ⟨_, _, ⟨rfl, rfl⟩ | ⟨ticker, _, _, rfl⟩⟩ := look_call looks
  · rfl
  · exact stage.call_withTicker _

/-- A leader that turns to following has been refused in favour of somebody else. -/
theorem conflict_of_following {held : Revision} {ticker : Ticker} {report : Option Outcome}
    (enters : (leading held ticker).transition answer = .enter .following report) :
    ∃ cause, answer = .error cause ∧ cause.isConflict = true := by
  cases answer with
  | ok entry => cases enters
  | error cause =>
      simp only [transition, Except.map, Transition.afterRenewal] at enters
      split at enters
      · rename_i conflict
        exact ⟨cause, rfl, conflict⟩
      · cases enters

theorem seen_of_following {ticker : Ticker} {report : Option Outcome}
    (enters : (following ticker).transition answer = .enter .following report) :
    ∃ entry, answer = .ok entry := by
  cases answer with
  | ok entry => exact ⟨entry, rfl⟩
  | error cause =>
      simp only [transition, Transition.afterPoll] at enters
      split at enters <;> cases enters

/-- The call of the phase that an answer leads to follows the call that was answered. -/
theorem follows_of_enters {candidacy : Candidacy} {phase : Phase} {report : Option Outcome}
    (enters : stage.transition answer = .enter phase report) (began ended : Nat)
    (earlier : List CourseCall) :
    (phase.call.operation candidacy).Follows candidacy
      (⟨stage.call, began, ended, some answer⟩ :: earlier) := by
  cases phase with
  | electing =>
      obtain ⟨⟨ticker, rfl⟩, _, key, rfl⟩ := transition_enter_electing enters
      exact .again _ earlier key rfl rfl
  | leading held =>
      obtain ⟨⟨entry, rfl, rfl⟩, ⟨rfl, _⟩ | ⟨before, ticker, rfl, _⟩⟩ :=
        transition_enter_leading enters
      · exact .written _ earlier entry (Or.inl rfl) rfl
      · exact .written _ earlier entry (Or.inr ⟨before, rfl⟩) rfl
  | following =>
      cases stage with
      | electing =>
          obtain ⟨_, _, key, rfl⟩ | ⟨⟨_, _, never⟩, _⟩ | ⟨⟨_, never⟩, _⟩ :=
            transition_enter_following enters
          · exact .late _ earlier key rfl rfl
          · cases never
          · cases never
      | leading held ticker =>
          obtain ⟨cause, rfl, conflict⟩ := conflict_of_following enters
          exact .deposed _ earlier held cause rfl rfl (StoreError.conflicts_of_isConflict conflict)
      | following ticker =>
          obtain ⟨entry, rfl⟩ := seen_of_following enters
          exact .seen _ earlier entry rfl rfl

end Stage

namespace Course

/-! ### Calls that have begun -/

inductive Begun (course : Course) : Operation → Nat → List CourseCall → Prop
  | finished (later : List CourseCall) (record : CourseCall) (earlier : List CourseCall)
      (listed : course.calls = later ++ record :: earlier) :
      Begun course (record.call.operation course.candidate.candidacy) record.began earlier
  | underWay (stage : Stage) (began : Nat)
      (calling : course.candidate.task = .calling stage began) :
      Begun course (stage.call.operation course.candidate.candidacy) began course.calls

structure Ordered (candidacy : Candidacy) (events : List CourseEvent) (course : Course) : Prop where
  terms : course.candidate.candidacy = candidacy
  begun : ∀ operation began before, course.Begun operation began before →
    operation.Follows candidacy before ∧ ∀ record ∈ before, record.ended ≤ began
  ahead : ∀ stage, course.candidate.task = .between stage →
    (stage.call.operation candidacy).Follows candidacy course.calls
  past : ∀ record ∈ course.calls, record.began ≤ record.ended ∧ record.ended ≤ course.now
  underWay : ∀ stage began, course.candidate.task = .calling stage began → began ≤ course.now
  fresh : course.candidate.task = .unstarted → course.calls = []
  started : .start ∈ events → course.candidate.task ≠ .unstarted

variable {course next : Course} {event : CourseEvent} {candidacy : Candidacy}
  {events : List CourseEvent} {operation : Operation} {began : Nat} {before : List CourseCall}

theorem ordered_opening (candidacy : Candidacy) : Ordered candidacy [] (opening candidacy) where
  terms := rfl
  begun := by
    intro operation began before begun
    cases begun with
    | finished later record earlier listed =>
        have empty := congrArg List.length listed
        simp [opening] at empty
    | underWay stage began calling => cases calling
  ahead := by
    intro stage between
    cases between
  past := by
    intro record never
    cases never
  underWay := by
    intro stage began calling
    cases calling
  fresh := fun _ => rfl
  started := by
    intro never
    cases never

/-- What has begun after the last call is over had begun before. -/
theorem begun_of_concluded {record : CourseCall} {stage : Stage}
    (terms : next.candidate.candidacy = course.candidate.candidacy)
    (grown : next.calls = record :: course.calls)
    (idle : ∀ stage began, next.candidate.task ≠ .calling stage began)
    (call : record.call = stage.call)
    (calling : course.candidate.task = .calling stage record.began)
    (begun : next.Begun operation began before) : course.Begun operation began before := by
  cases begun with
  | finished later same earlier listed =>
      rw [terms]
      rw [grown] at listed
      rcases List.cons_eq_append_iff.mp listed with ⟨_, only⟩ | ⟨after, _, rest⟩
      · cases only
        rw [call]
        exact .underWay stage record.began calling
      · exact .finished after same before rest
  | underWay stage began busy => exact absurd busy (idle stage began)

theorem begun_of_same (begun : next.Begun operation began before)
    (terms : next.candidate.candidacy = course.candidate.candidacy)
    (calls : next.calls = course.calls)
    (same : ∀ stage began, next.candidate.task = .calling stage began →
      course.candidate.task = .calling stage began) : course.Begun operation began before := by
  cases begun with
  | finished later record earlier listed =>
      rw [terms]
      exact .finished later record before (calls.symm.trans listed)
  | underWay stage began calling =>
      rw [terms, calls]
      exact .underWay stage began (same stage began calling)

namespace Ordered

/-- A call that begins follows those before it, for it is the one that was to come. -/
theorem call {stage following : Stage} (ordered : Ordered candidacy events course)
    (between : course.candidate.task = .between stage)
    (moved : course.move stage = .call following) :
    Ordered candidacy (events ++ [event]) { course with
      candidate := { course.candidate with task := .calling following course.now } } where
  terms := ordered.terms
  begun := by
    intro operation began before begun
    cases begun with
    | finished later record earlier listed =>
        exact ordered.begun _ _ _ (.finished later record before listed)
    | underWay current began calling =>
        cases calling
        refine ⟨?_, fun record present => (ordered.past record present).2⟩
        rw [Stage.call_of_look moved, show Candidate.candidacy _ = candidacy from ordered.terms]
        exact ordered.ahead stage between
  ahead := by
    intro stage never
    cases never
  past := ordered.past
  underWay := by
    intro current began calling
    cases calling
    exact Nat.le_refl _
  fresh := by
    intro never
    cases never
  started := fun _ => Task.noConfusion

/-- The candidate is not in a call afterwards and has made none. -/
theorem idle {after : Candidate} {cancelled : Bool} (ordered : Ordered candidacy events course)
    (terms : after.candidacy = course.candidate.candidacy)
    (calling : ∀ stage began, after.task = .calling stage began →
      course.candidate.task = .calling stage began)
    (ahead : ∀ stage, after.task = .between stage → course.candidate.task = .between stage ∨
      course.candidate.task = .unstarted ∧ stage = .electing)
    (fresh : after.task = .unstarted → course.candidate.task = .unstarted ∧ event ≠ .start) :
    Ordered candidacy (events ++ [event]) { course with candidate := after, cancelled } where
  terms := terms.trans ordered.terms
  begun := by
    intro operation began before begun
    exact ordered.begun operation began before (begun_of_same begun terms rfl calling)
  ahead := by
    intro stage between
    rcases ahead stage between with same | ⟨new, rfl⟩
    · exact ordered.ahead stage same
    · rw [show Course.calls _ = [] from ordered.fresh new]
      exact .first
  past := ordered.past
  underWay := fun stage began busy => ordered.underWay stage began (calling stage began busy)
  fresh := fun new => ordered.fresh (fresh new).1
  started := by
    intro present new
    obtain ⟨unstarted, other⟩ := fresh new
    rcases List.mem_append.mp present with earlier | last
    · exact ordered.started earlier unstarted
    · exact other (List.mem_singleton.mp last).symm

/-- A call is over, and what comes next follows it. -/
theorem conclude {after : Candidate} {stage : Stage} {answer? : Option (Except StoreError Entry)}
    (ordered : Ordered candidacy events course)
    (calling : course.candidate.task = .calling stage began)
    (terms : after.candidacy = course.candidate.candidacy)
    (finished : after.task = .ended ∨ ∃ following, after.task = .between following ∧
      (following.call.operation candidacy).Follows candidacy
        (⟨stage.call, began, course.now, answer?⟩ :: course.calls)) :
    Ordered candidacy (events ++ [event]) { course with
      candidate := after
      calls := ⟨stage.call, began, course.now, answer?⟩ :: course.calls } := by
  have idle (current : Stage) (since : Nat) : after.task ≠ .calling current since := by
    intro busy
    rcases finished with ended | ⟨following, between, _⟩
    · cases ended.symm.trans busy
    · cases between.symm.trans busy
  have going : after.task ≠ .unstarted := by
    intro new
    rcases finished with ended | ⟨following, between, _⟩
    · cases ended.symm.trans new
    · cases between.symm.trans new
  refine ⟨terms.trans ordered.terms, ?_, ?_, ?_, ?_, fun new => absurd new going, fun _ => going⟩
  · intro operation since before begun
    exact ordered.begun _ _ _ (begun_of_concluded terms rfl idle rfl calling begun)
  · intro current between
    rcases finished with ended | ⟨following, same, follows⟩
    · cases ended.symm.trans between
    · cases same.symm.trans between
      exact follows
  · intro record present
    rcases List.mem_cons.mp present with rfl | earlier
    · exact ⟨ordered.underWay stage began calling, Nat.le_refl _⟩
    · exact ordered.past record earlier
  · intro current since busy
    exact absurd busy (idle current since)

theorem step (ordered : Ordered candidacy events course) (step : EventStep course event next)
    (later : course.now ≤ next.now) : Ordered candidacy (events ++ [event]) next := by
  cases step with
  | started fresh =>
      refine ordered.idle rfl (fun _ _ never => nomatch never) ?_ (fun never => nomatch never)
      intro stage between
      cases between
      exact Or.inr ⟨fresh, rfl⟩
  | stopped | cancelled | deafened =>
      exact ordered.idle rfl (fun _ _ same => same) (fun _ same => Or.inl same)
        (fun same => ⟨same, CourseEvent.noConfusion⟩)
  | looked stage between =>
      have ends {after : Candidate} (terms : after.candidacy = course.candidate.candidacy)
          (finished : after.task = .ended) :
          Ordered candidacy (events ++ [.look]) { course with candidate := after } :=
        ordered.idle terms (fun _ _ busy => nomatch finished.symm.trans busy)
          (fun _ waits => nomatch finished.symm.trans waits) (fun new => nomatch finished.symm.trans new)
      cases moved : course.move stage with
      | rest =>
          exact ordered.idle rfl (fun _ _ same => same) (fun _ same => Or.inl same)
            (fun same => ⟨same, CourseEvent.noConfusion⟩)
      | call following => exact ordered.call between moved
      | finish outcome => exact ends (Candidate.candidacy_finish _ _) rfl
      | abandon => exact ends rfl rfl
  | answered stage began result calling =>
      have settled := course.candidate.settled course.now stage result
      have terms := course.candidate.candidacy_settle course.now stage result
      change Ordered candidacy _ { course with
        candidate := course.candidate.settle course.now stage result
        calls := ⟨stage.call, began, course.now, some result⟩ :: course.calls }
      apply ordered.conclude calling terms
      generalize course.candidate.settle course.now stage result = after at settled ⊢
      have enters {phase : Phase} {report : Option Outcome}
          (enters : stage.transition result = .enter phase report) :
          ((stage.enter course.candidate.candidacy course.now phase).call.operation
            candidacy).Follows candidacy
              (⟨stage.call, began, course.now, some result⟩ :: course.calls) := by
        rw [Stage.call_eq_of_phase, Stage.phase_enter]
        exact Stage.follows_of_enters enters began course.now course.calls
      cases settled with
      | silent phase leads => exact Or.inr ⟨_, rfl, enters leads⟩
      | told phase outcome leads heard => exact Or.inr ⟨_, rfl, enters leads⟩
      | unheard | ended => exact Or.inl rfl
  | cutOff stage began limitMs calling limited =>
      exact ordered.conclude calling (Candidate.candidacy_finish _ _) (Or.inl rfl)
  | passed instant =>
      refine ⟨ordered.terms, ?_, ordered.ahead, ?_, ?_, ordered.fresh, ?_⟩
      · intro operation began before begun
        exact ordered.begun operation began before
          (begun_of_same begun rfl rfl fun _ _ same => same)
      · intro record present
        exact ⟨(ordered.past record present).1, Nat.le_trans (ordered.past record present).2 later⟩
      · intro stage began calling
        exact Nat.le_trans (ordered.underWay stage began calling) later
      · intro present
        rcases List.mem_append.mp present with earlier | last
        · exact ordered.started earlier
        · cases List.mem_singleton.mp last

end Ordered

theorem now_le_of_act? (acted : course.act? event = some next) : course.now ≤ next.now := by
  have step := eventStep_of_act? acted
  cases step with
  | passed instant =>
      simp only [act?, Option.ite_none_right_eq_some, Bool.and_eq_true, decide_eq_true_eq] at acted
      exact acted.1.1.2
  | _ => exact Nat.le_refl _

theorem ordered_of_run (run : (opening candidacy).run? events = some course) :
    Ordered candidacy events course := by
  apply Runs.induct (motive := fun events course => Ordered candidacy events course)
    (ordered_opening candidacy) _ events run
  intro events course event next _ ordered acted
  exact ordered.step (eventStep_of_act? acted) (now_le_of_act? acted)

/-! ### The law -/

structure Disciplined (candidacy : Candidacy) (events : List CourseEvent) (course : Course) :
    Prop where
  /-- Each call begins when those before it are over. -/
  apart : ∀ operation began before, course.Begun operation began before →
    ∀ record ∈ before, record.began ≤ record.ended ∧ record.ended ≤ began
  follows : ∀ operation began before, course.Begun operation began before →
    operation.Follows candidacy before
  /-- No call comes after one that was cut off or failed for good. -/
  expected : ∀ operation began last earlier, course.Begun operation began (last :: earlier) →
    ∃ answer, last.answer? = some answer ∧
      ∀ cause, answer = .error cause → last.call.Expects cause
  spares : ∀ operation began before key, course.Begun operation began before →
    operation ≠ .delete key
  /-- What is asked for is what happens to a bucket that the call reaches. -/
  performs : ∀ (call : Call) (bucket : Bucket) (instant : Nat),
    call.perform candidacy bucket instant =
      ((bucket.perform instant (call.operation candidacy)).1.map candidacy.seen,
        (bucket.perform instant (call.operation candidacy)).2)
  /-- An election that has been started cannot be started again, in whatever contest it stands. -/
  once : .start ∈ events → course.act? .start = none ∧
    ∀ (contest : Contest) (id : Nat) (member : Member) (context : String),
      contest.members[id]? = some member → member.candidate = course.candidate →
      contest.start id context = .error (.alreadyStarted candidacy.key)

/-- Every election keeps to the discipline, whatever the store answers, however long that takes, and
whenever the election is stopped, dropped, cancelled or not heard any more. -/
theorem disciplined_of_run (run : (opening candidacy).run? events = some course) :
    course.Disciplined candidacy events := by
  have ordered := ordered_of_run run
  have follows {operation : Operation} {began : Nat} {before : List CourseCall}
      (begun : course.Begun operation began before) : operation.Follows candidacy before :=
    (ordered.begun operation began before begun).1
  refine ⟨?_, fun _ _ _ => follows, fun _ _ _ _ begun => (follows begun).expected, ?_,
    fun call bucket instant => call.perform_eq candidacy bucket instant, ?_⟩
  · intro operation began before begun record present
    have listed : record ∈ course.calls := by
      cases begun with
      | finished later last earlier listed =>
          rw [listed]
          exact List.mem_append_right _ (List.mem_cons_of_mem _ present)
      | underWay => exact present
    exact ⟨(ordered.past record listed).1, (ordered.begun operation began before begun).2 record present⟩
  · intro operation began before key begun
    have kept := follows begun
    rintro rfl
    cases kept
  · intro started
    have going := ordered.started started
    refine ⟨if_neg going, ?_⟩
    intro contest id member context found same
    simp only [Contest.start, found, same, if_neg going, ordered.terms]

theorem disciplined_afterTwiceLost :
    (opening hasty).run? twiceLost = some afterTwiceLost ∧
      afterTwiceLost.Disciplined hasty twiceLost :=
  ⟨run_twiceLost, disciplined_of_run run_twiceLost⟩

end Course

end Leasehold
