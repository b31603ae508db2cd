import Leasehold.Proofs.Contest.Succession
import Leasehold.Proofs.Election.Derived
import Leasehold.Proofs.Election.Discipline

set_option autoImplicit false

/-!
The pace of one election, before a store that can answer anything at any time.

A late ticker fires at once, and again for each period that fits into its tolerance; a look can fall
through to a create. What is still to come at one instant is counted by `Task.ahead`, which every call
draws down and nothing but the clock fills up again. The gap between two ticks is carried from the
one that was taken to the deadline that it left behind.
-/

namespace Leasehold

/-! ### Ticks at one instant -/

namespace Ticker

/-- How many ticks can be taken one after another without time passing. -/
def ready (ticker : Ticker) (now : Nat) : Nat :=
  if now < ticker.due then 0
  else if now ≤ ticker.due + tolerance then (now - ticker.due) / ticker.period + 1
  else 1

variable {ticker : Ticker} {now : Nat}

theorem ready_of_early (early : now < ticker.due) : ticker.ready now = 0 := if_pos early

theorem ready_after {period : Nat} (positive : 0 < period) : (after now period).ready now = 0 :=
  ready_of_early (Nat.lt_add_of_pos_right positive)

/-- A tick that is taken is one of those that were ready. -/
theorem ready_take (positive : 0 < ticker.period) (due : ticker.due ≤ now) :
    (ticker.take now).ready now + 1 = ticker.ready now := by
  by_cases late : now ≤ ticker.due + tolerance
  · have next : (ticker.take now).due = ticker.due + ticker.period := if_pos late
    rw [ready, ready, next, period_take, if_neg (Nat.not_lt.mpr due), if_pos late]
    by_cases early : now < ticker.due + ticker.period
    · rw [if_pos early, Nat.div_eq_of_lt (Nat.sub_lt_left_of_lt_add due early)]
    · have room : ticker.period ≤ now - ticker.due := by omega
      rw [if_neg early, if_pos (by omega), ← Nat.sub_sub, Nat.div_eq_sub_div positive room]
  · have next : (ticker.take now).due = now + ticker.period := if_neg late
    rw [ready_of_early (by omega), ready, if_neg (Nat.not_lt.mpr due), if_neg late]

theorem ready_le (ticker : Ticker) (now : Nat) :
    ticker.ready now ≤ tolerance / ticker.period + 1 := by
  unfold ready
  split
  · exact Nat.zero_le _
  split
  · rename_i late
    exact Nat.succ_le_succ (Nat.div_le_div_right (by omega))
  · exact Nat.le_add_left 1 _

/-- The deadline after a tick is a period away, less the tolerance. -/
theorem le_due_take (ticker : Ticker) (now : Nat) :
    now + ticker.period ≤ (ticker.take now).due + tolerance := by
  simp only [take]
  split <;> omega

end Ticker

/-! ### Calls at one instant -/

/-- How many calls a task can still begin without time passing, if the store lets it. -/
def Task.ahead (now : Nat) : Task → Nat
  | .unstarted | .between .electing => 1
  | .between (.leading _ ticker) | .calling (.leading _ ticker) _ => ticker.ready now
  | .between (.following ticker) => if ticker.ready now = 0 then 0 else ticker.ready now + 1
  | .calling (.following ticker) _ => ticker.ready now + 1
  | .calling .electing _ | .ended => 0

/-- The bound on the calls that begin at one instant: the ticks that the tolerance lets through, one
more, and a create. -/
def Candidacy.burst (candidacy : Candidacy) : Nat :=
  2 + 5 / min candidacy.renewEveryMs candidacy.pollEveryMs

variable {candidacy : Candidacy} {candidate : Candidate} {stage next : Stage} {ttl now began : Nat}

theorem Candidacy.Fits.interval_pos (fits : candidacy.Fits ttl) {ticker : Ticker}
    (ticking : stage.ticker? = some ticker) : 0 < stage.interval candidacy := by
  cases stage with
  | electing => cases ticking
  | leading => exact Nat.mul_pos fits.renews (by decide)
  | following => exact Nat.mul_pos fits.polls (by decide)

/-- A call that begins is one of those that were ahead. -/
theorem Candidate.ahead_of_look {signals : Signals} (fits : candidate.candidacy.Fits ttl)
    (ticks : candidate.Ticks now) (between : candidate.task = .between stage)
    (looks : stage.look signals now = .call next) :
    (Task.calling next now).ahead now + 1 = (Task.between stage).ahead now := by
  obtain ⟨_, _, ⟨rfl, rfl⟩ | ⟨ticker, ticking, due, rfl⟩⟩ := Stage.look_call looks
  · rfl
  · have even := (ticks stage ticker (Candidate.stage?_of_between between) ticking).1
    have taken := Ticker.ready_take (even ▸ fits.interval_pos ticking) due
    cases stage with
    | electing => cases ticking
    | leading held kept =>
        cases ticking
        exact taken
    | following kept =>
        cases ticking
        simp only [Stage.withTicker, Task.ahead, taken]
        rw [if_neg (by omega)]

/-- No answer makes more calls possible: the ticker of a phase that is entered is not due. -/
theorem Candidate.ahead_of_settle (fits : candidate.candidacy.Fits ttl)
    (answer : Except StoreError Entry) (began : Nat) :
    (candidate.settle now stage answer).task.ahead now ≤ (Task.calling stage began).ahead now := by
  have settled := candidate.settled now stage answer
  generalize candidate.settle now stage answer = after at settled ⊢
  have entered {phase : Phase} {report : Option Outcome}
      (enters : stage.transition answer = .enter phase report) :
      (Task.between (stage.enter candidate.candidacy now phase)).ahead now ≤
        (Task.calling stage began).ahead now := by
    have renews : (Ticker.after now candidate.candidacy.renewEvery).ready now = 0 :=
      Ticker.ready_after (Nat.mul_pos fits.renews (by decide))
    have polls : (Ticker.after now candidate.candidacy.pollEvery).ready now = 0 :=
      Ticker.ready_after (Nat.mul_pos fits.polls (by decide))
    cases phase with
    | electing =>
        obtain ⟨⟨ticker, rfl⟩, _⟩ := Stage.transition_enter_electing enters
        exact Nat.le_add_left 1 _
    | leading held =>
        cases stage with
        | electing => simp only [Stage.enter, Task.ahead, renews, Nat.le_refl]
        | leading => exact Nat.le_refl _
        | following => simp only [Stage.enter, Task.ahead, renews, Nat.zero_le]
    | following =>
        cases stage with
        | electing | leading => simp only [Stage.enter, Task.ahead, polls, if_true, Nat.zero_le]
        | following ticker =>
            simp only [Stage.enter, Task.ahead]
            split <;> omega
  cases settled with
  | silent phase enters | told phase outcome enters => exact entered enters
  | unheard | ended => exact Nat.zero_le _

theorem Ticker.ready_le_of_millis {ticker : Ticker} {millis least : Nat}
    (even : ticker.period = Duration.ofMillis millis) (positive : 0 < least) (slower : least ≤ millis) :
    ticker.ready now ≤ 5 / least + 1 := by
  have fitting : tolerance / ticker.period = 5 / millis := by
    rw [even]
    exact Nat.mul_div_mul_right 5 millis (Nat.succ_pos 999_999)
  have ready := ticker.ready_le now
  rw [fitting] at ready
  exact Nat.le_trans ready (Nat.succ_le_succ (Nat.div_le_div_left slower positive))

/-- Whenever time has passed, and at whatever point of its election a candidate then is. -/
theorem Candidate.ahead_le (fits : candidate.candidacy.Fits ttl) (ticks : candidate.Ticks now) :
    candidate.task.ahead now ≤ candidate.candidacy.burst := by
  have least : 0 < min candidate.candidacy.renewEveryMs candidate.candidacy.pollEveryMs :=
    Nat.lt_min.mpr ⟨fits.renews, fits.polls⟩
  have renews {held : Revision} {ticker : Ticker}
      (leads : candidate.stage? = some (.leading held ticker)) :
      ticker.ready now ≤ 5 / min candidate.candidacy.renewEveryMs candidate.candidacy.pollEveryMs + 1 :=
    Ticker.ready_le_of_millis (ticks _ ticker leads rfl).1 least (Nat.min_le_left _ _)
  have polls {ticker : Ticker} (follows : candidate.stage? = some (.following ticker)) :
      ticker.ready now ≤ 5 / min candidate.candidacy.renewEveryMs candidate.candidacy.pollEveryMs + 1 :=
    Ticker.ready_le_of_millis (ticks _ ticker follows rfl).1 least (Nat.min_le_right _ _)
  unfold Candidacy.burst
  generalize 5 / min candidate.candidacy.renewEveryMs candidate.candidacy.pollEveryMs = room
    at renews polls ⊢
  cases task : candidate.task with
  | unstarted | ended =>
      simp only [Task.ahead]
      omega
  | between stage =>
      have current := Candidate.stage?_of_between task
      cases stage with
      | electing =>
          simp only [Task.ahead]
          omega
      | leading held ticker =>
          have ready := renews current
          simp only [Task.ahead]
          omega
      | following ticker =>
          have ready := polls current
          simp only [Task.ahead]
          split <;> omega
  | calling stage began =>
      have current := Candidate.stage?_of_calling task
      cases stage with
      | electing => exact Nat.zero_le _
      | leading held ticker =>
          have ready := renews current
          simp only [Task.ahead]
          omega
      | following ticker =>
          have ready := polls current
          simp only [Task.ahead]
          omega

/-! ### Calls in a row -/

/-- The later of two calls in a row comes an interval after the other, less the tolerance, if both
belong to one stay in a phase. Calls of one kind in a row do, for between two stays there is a
create. -/
def Spaced (candidacy : Candidacy) : Call × Nat → Call × Nat → Prop
  | (.renew _, later), (.renew _, earlier) =>
      earlier + candidacy.renewEvery ≤ later + Ticker.tolerance
  | (.poll, later), (.poll, earlier) => earlier + candidacy.pollEvery ≤ later + Ticker.tolerance
  | _, _ => True

theorem Spaced.later {call : Call} {instant due : Nat} {earlier : Call × Nat}
    (spaced : Spaced candidacy (call, due) earlier) (late : due ≤ instant) :
    Spaced candidacy (call, instant) earlier := by
  obtain ⟨before, since⟩ := earlier
  cases call <;> cases before <;> simp only [Spaced] at spaced ⊢ <;> omega

/-- A ticker that outlasts the answer leaves its deadline where it was; a new one is that of another
kind of call. -/
theorem Stage.spaced_of_enter {phase : Phase}
    (kept : ∀ ticker, stage.ticker? = some ticker →
      Spaced candidacy (stage.call, ticker.due) (stage.call, began))
    {ticker : Ticker} (ticking : (stage.enter candidacy now phase).ticker? = some ticker) :
    Spaced candidacy ((stage.enter candidacy now phase).call, ticker.due) (stage.call, began) := by
  cases phase with
  | electing => cases ticking
  | leading held =>
      cases stage with
      | electing | following => trivial
      | leading => exact kept ticker ticking
  | following =>
      cases stage with
      | electing | leading => trivial
      | following => exact kept ticker ticking

/-! ### One election -/

def Task.underWay : Task → List (Call × Nat)
  | .calling stage began => [(stage.call, began)]
  | .unstarted | .between _ | .ended => []

namespace Course

def begins (course : Course) : List (Call × Nat) :=
  course.candidate.task.underWay ++ course.calls.map fun record => (record.call, record.began)

def begunAt (course : Course) (instant : Nat) : Nat :=
  course.begins.countP fun begun => begun.2 = instant

structure Steady (course : Course) : Prop where
  ticks : course.candidate.Ticks course.now
  past : ∀ begun ∈ course.begins, begun.2 ≤ course.now
  room : course.begunAt course.now + course.candidate.task.ahead course.now ≤
    course.candidate.candidacy.burst
  few : ∀ instant, course.begunAt instant ≤ course.candidate.candidacy.burst
  spaced : course.begins.IsChain (Spaced course.candidate.candidacy)
  /-- A call at the deadline would come late enough. -/
  onward : ∀ stage ticker, course.candidate.stage? = some stage → stage.ticker? = some ticker →
    ∀ latest ∈ course.begins.head?,
      Spaced course.candidate.candidacy (stage.call, ticker.due) latest

variable {course following : Course} {event : CourseEvent}

theorem steady_opening (candidacy : Candidacy) : (opening candidacy).Steady where
  ticks := by
    intro stage ticker never
    cases never
  past := by
    intro begun never
    cases never
  room := by
    exact Nat.le_trans (by decide : 0 + 1 ≤ 2) (Nat.le_add_right 2 _)
  few := fun _ => Nat.zero_le _
  spaced := .nil
  onward := by
    intro stage ticker never
    cases never

namespace Steady

/-- No call begins. -/
theorem calm {next : Course} (steady : course.Steady)
    (terms : next.candidate.candidacy = course.candidate.candidacy) (clock : next.now = course.now)
    (begins : next.begins = course.begins)
    (ahead : next.candidate.task.ahead course.now ≤ course.candidate.task.ahead course.now)
    (ticks : next.candidate.Ticks course.now)
    (onward : ∀ stage ticker, next.candidate.stage? = some stage → stage.ticker? = some ticker →
      ∀ latest ∈ course.begins.head?,
        Spaced course.candidate.candidacy (stage.call, ticker.due) latest) : next.Steady where
  ticks := clock ▸ ticks
  past := by
    rw [begins, clock]
    exact steady.past
  room := by
    rw [begunAt, begins, clock, terms]
    exact Nat.le_trans (Nat.add_le_add_left ahead _) steady.room
  few := by
    intro instant
    rw [begunAt, begins, terms]
    exact steady.few instant
  spaced := by
    rw [begins, terms]
    exact steady.spaced
  onward := by
    rw [begins, terms]
    exact onward

/-- The work of the task goes on unchanged. -/
theorem aside {next : Course} (steady : course.Steady) (clock : next.now = course.now)
    (calls : next.calls = course.calls)
    (terms : next.candidate.candidacy = course.candidate.candidacy)
    (task : next.candidate.task = course.candidate.task) : next.Steady := by
  have stages : next.candidate.stage? = course.candidate.stage? := by
    unfold Candidate.stage?
    rw [task]
  refine steady.calm terms clock ?_ (Nat.le_of_eq (by rw [task])) ?_ ?_
  · rw [Course.begins, task, calls]
    rfl
  · intro stage ticker current
    rw [terms]
    exact steady.ticks stage ticker (stages ▸ current)
  · intro stage ticker current
    exact steady.onward stage ticker (stages ▸ current)

theorem ended {next : Course} (steady : course.Steady) (clock : next.now = course.now)
    (terms : next.candidate.candidacy = course.candidate.candidacy)
    (ended : next.candidate.task = .ended) (begins : next.begins = course.begins) : next.Steady := by
  refine steady.calm terms clock begins ?_ (Candidate.ticks_of_ended ended) ?_
  · rw [ended]
    exact Nat.zero_le _
  · intro stage ticker current
    simp only [Candidate.stage?, ended] at current
    cases current

/-- A call that begins is one of those ahead, and its tick is not taken before the deadline. -/
theorem called (steady : course.Steady) (fits : course.candidate.candidacy.Fits ttl)
    {signals : Signals} (between : course.candidate.task = .between stage)
    (looks : stage.look signals course.now = .call next) :
    Steady { course with
      candidate := { course.candidate with task := .calling next course.now } } := by
  have current := Candidate.stage?_of_between between
  have idle : course.begins = course.calls.map fun record => (record.call, record.began) := by
    rw [begins, between]
    rfl
  have grown : Course.begins { course with
      candidate := { course.candidate with task := .calling next course.now } } =
        (next.call, course.now) :: course.begins := by
    rw [idle]
    rfl
  have drawn := Candidate.ahead_of_look fits steady.ticks between looks
  have room : course.begunAt course.now + 1 + (Task.calling next course.now).ahead course.now ≤
      course.candidate.candidacy.burst := by
    have room := steady.room
    rw [between, ← drawn] at room
    omega
  have counted (instant : Nat) : begunAt { course with
      candidate := { course.candidate with task := .calling next course.now } } instant =
        course.begunAt instant + if course.now = instant then 1 else 0 := by
    simp only [begunAt, grown, List.countP_cons, decide_eq_true_eq]
  refine ⟨?_, ?_, ?_, ?_, ?_, ?_⟩
  · obtain ⟨_, _, ⟨rfl, rfl⟩ | ⟨ticker, ticking, due, rfl⟩⟩ := Stage.look_call looks
    · intro stage ticker current ticking
      obtain rfl := Option.some.inj current
      cases ticking
    · exact steady.ticks.take current ticking due
  · rw [grown]
    exact List.forall_mem_cons.mpr ⟨Nat.le_refl _, steady.past⟩
  · rw [counted, if_pos rfl]
    exact room
  · intro instant
    rw [counted]
    split
    · rename_i same
      subst same
      exact Nat.le_trans (Nat.le_add_right _ _) room
    · exact steady.few instant
  · rw [grown, List.isChain_cons]
    refine ⟨?_, steady.spaced⟩
    intro latest before
    obtain ⟨_, _, ⟨rfl, rfl⟩ | ⟨ticker, ticking, due, rfl⟩⟩ := Stage.look_call looks
    · trivial
    · rw [Stage.call_withTicker]
      exact (steady.onward stage ticker current ticking latest before).later due
  · rw [grown]
    rintro other taken there takes latest ⟨⟩
    obtain rfl := Option.some.inj there
    obtain ⟨_, _, ⟨rfl, rfl⟩ | ⟨ticker, ticking, due, rfl⟩⟩ := Stage.look_call looks
    · cases takes
    · have apart := ticker.le_due_take course.now
      rw [(steady.ticks stage ticker current ticking).1] at apart
      cases stage with
      | electing => cases ticking
      | leading | following =>
          cases ticking
          cases takes
          exact apart

theorem begins_of_idle {next : Course} {record : CourseCall}
    (calling : course.candidate.task = .calling stage record.began) (call : record.call = stage.call)
    (calls : next.calls = record :: course.calls) (idle : next.candidate.task.underWay = []) :
    next.begins = course.begins := by
  rw [begins, begins, idle, calls, calling, List.map_cons, call]
  rfl

theorem answered (steady : course.Steady) (fits : course.candidate.candidacy.Fits ttl)
    (calling : course.candidate.task = .calling stage began) (result : Except StoreError Entry) :
    (course.conclude stage began (some result)).Steady := by
  have current := Candidate.stage?_of_calling calling
  have terms := course.candidate.candidacy_settle course.now stage result
  have idle : (course.candidate.settle course.now stage result).task.underWay = [] := by
    rcases course.candidate.task_settle course.now stage result with ended | ⟨waiting, waits⟩
    · rw [ended]
      rfl
    · rw [waits]
      rfl
  have ahead : (course.candidate.settle course.now stage result).task.ahead course.now ≤
      course.candidate.task.ahead course.now := by
    rw [calling]
    exact Candidate.ahead_of_settle fits result began
  have latest : course.begins.head? = some (stage.call, began) := by
    rw [begins, calling]
    rfl
  refine steady.calm terms rfl (begins_of_idle calling rfl rfl idle) ahead
    (steady.ticks.settle current result) ?_
  rw [latest]
  have kept : ∀ ticker, stage.ticker? = some ticker →
      Spaced course.candidate.candidacy (stage.call, ticker.due) (stage.call, began) := by
    intro ticker ticking
    exact steady.onward stage ticker current ticking _ latest
  have settled := course.candidate.settled course.now stage result
  rintro waiting ticker there ticking _ ⟨⟩
  change (course.candidate.settle course.now stage result).stage? = some waiting at there
  generalize course.candidate.settle course.now stage result = after at settled there
  cases settled with
  | silent phase | told phase =>
      obtain rfl := Option.some.inj there
      exact Stage.spaced_of_enter kept ticking
  | unheard => cases there
  | ended => cases there

/-- At an instant that has only just come no call has begun. -/
theorem passed {instant : Nat} (steady : course.Steady) (fits : course.candidate.candidacy.Fits ttl)
    (later : course.now ≤ instant) : Steady { course with now := instant } := by
  have ticks : course.candidate.Ticks instant := by
    intro stage ticker current ticking
    obtain ⟨period, due⟩ := steady.ticks stage ticker current ticking
    exact ⟨period, Nat.le_trans due (Nat.add_le_add_right later _)⟩
  refine ⟨ticks, ?_, ?_, steady.few, steady.spaced, steady.onward⟩
  · intro begun present
    exact Nat.le_trans (steady.past begun present) later
  · rcases Nat.eq_or_lt_of_le later with same | ahead
    · subst same
      exact steady.room
    · have none : course.begunAt instant = 0 := by
        refine List.countP_eq_zero.mpr fun begun present now => ?_
        have before := steady.past begun present
        rw [of_decide_eq_true now] at before
        exact Nat.not_lt.mpr before ahead
      change course.begunAt instant + course.candidate.task.ahead instant ≤ _
      rw [none, Nat.zero_add]
      exact Candidate.ahead_le fits ticks

theorem step {next : Course} (steady : course.Steady) (fits : course.candidate.candidacy.Fits ttl)
    (step : EventStep course event next) (later : course.now ≤ next.now) : next.Steady := by
  cases step with
  | started fresh =>
      refine steady.calm rfl rfl ?_ ?_ ?_ ?_
      · rw [begins, begins, fresh]
        rfl
      · rw [fresh]
        exact Nat.le_refl _
      · rintro stage ticker ⟨⟩ ⟨⟩
      · rintro stage ticker ⟨⟩ ⟨⟩
  | stopped | cancelled | deafened => exact steady.aside rfl rfl rfl rfl
  | looked stage between =>
      have ends {after : Candidate} (terms : after.candidacy = course.candidate.candidacy)
          (finished : after.task = .ended) : Steady { course with candidate := after } := by
        refine steady.ended rfl terms finished ?_
        rw [begins, begins, finished, between]
        rfl
      cases moved : course.move stage with
      | rest => exact steady
      | call following => exact steady.called fits between moved
      | finish outcome => exact ends (Candidate.candidacy_finish _ _) rfl
      | abandon => exact ends rfl rfl
  | answered stage began result calling => exact steady.answered fits calling result
  | cutOff stage began limitMs calling limited =>
      exact steady.ended rfl (Candidate.candidacy_finish _ _) rfl (begins_of_idle calling rfl rfl rfl)
  | passed instant => exact steady.passed fits later

end Steady

theorem steady_of_run (fits : candidacy.Fits ttl) {events : List CourseEvent}
    (run : (opening candidacy).run? events = some course) : course.Steady := by
  refine (Runs.induct (motive := fun _ course =>
    course.candidate.candidacy = candidacy ∧ course.Steady) ⟨rfl, steady_opening candidacy⟩ ?_
      events run).2
  rintro _ course event next _ ⟨rfl, steady⟩ acted
  have step := eventStep_of_act? acted
  exact ⟨step.terms_eq, steady.step fits step (now_le_of_act? acted)⟩

/-! ### Steps at one instant -/

end Course

def CourseEvent.own : CourseEvent → Bool
  | .look | .answer _ | .cutOff => true
  | .start | .stop | .cancel | .deafen | .passTo _ => false

/-- A call takes two steps, and the last look may end the election. -/
def Task.stepsLeft (now : Nat) (task : Task) : Nat :=
  match task with
  | .unstarted | .between _ => 2 * task.ahead now + 1
  | .calling _ _ => 2 * task.ahead now + 2
  | .ended => 0

theorem Task.stepsLeft_le (task : Task) (now : Nat) :
    task.stepsLeft now ≤ 2 * task.ahead now + 2 := by
  cases task <;> simp only [stepsLeft] <;> omega

theorem Candidate.stepsLeft_of_settle (fits : candidate.candidacy.Fits ttl)
    (answer : Except StoreError Entry) (began : Nat) :
    (candidate.settle now stage answer).task.stepsLeft now + 1 ≤
      (Task.calling stage began).stepsLeft now := by
  have ahead : (candidate.settle now stage answer).task.ahead now ≤
      (Task.calling stage began).ahead now := ahead_of_settle fits answer began
  rcases candidate.task_settle now stage answer with ended | ⟨waiting, waits⟩
  · rw [ended]
    exact Nat.le_add_left 1 _
  · rw [waits] at ahead ⊢
    simp only [Task.stepsLeft]
    omega

namespace Course

variable {course next : Course} {event : CourseEvent}

theorem stepsLeft_of_act? (steady : course.Steady) (fits : course.candidate.candidacy.Fits ttl)
    (acted : course.act? event = some next) (timeless : ∀ instant, event ≠ .passTo instant) :
    next.now = course.now ∧ next.candidate.task.stepsLeft course.now +
      (if event.own then 1 else 0) ≤ course.candidate.task.stepsLeft course.now := by
  have step := eventStep_of_act? acted
  cases step with
  | started fresh =>
      refine ⟨rfl, ?_⟩
      rw [fresh]
      exact Nat.le_refl _
  | stopped | cancelled | deafened => exact ⟨rfl, Nat.le_refl _⟩
  | looked stage between =>
      refine ⟨rfl, ?_⟩
      rw [between]
      cases moved : course.move stage with
      | rest => simp [act?, between, attentive, moved] at acted
      | call following =>
          have drawn := Candidate.ahead_of_look fits steady.ticks between moved
          simp only [Candidate.move, Task.stepsLeft, ← drawn, CourseEvent.own, if_true]
          omega
      | finish outcome | abandon => exact Nat.le_add_left 1 _
  | answered stage began result calling =>
      refine ⟨rfl, ?_⟩
      rw [calling]
      exact Candidate.stepsLeft_of_settle fits result began
  | cutOff stage began limitMs calling limited =>
      refine ⟨rfl, ?_⟩
      rw [calling]
      exact Nat.le_add_left 1 _
  | passed instant => exact absurd rfl (timeless instant)

/-- Whatever else happens within one instant, the task is soon left with nothing to do. -/
theorem own_le_of_run (steady : course.Steady) (fits : course.candidate.candidacy.Fits ttl)
    {events : List CourseEvent} (timeless : ∀ event ∈ events, ∀ instant, event ≠ .passTo instant)
    (run : course.run? events = some next) :
    next.now = course.now ∧
      events.countP CourseEvent.own ≤ 2 * course.candidate.candidacy.burst + 2 := by
  have counted := Runs.induct (motive := fun events last =>
    (∀ event ∈ events, ∀ instant, event ≠ .passTo instant) → last.Steady ∧
      last.candidate.candidacy = course.candidate.candidacy ∧ last.now = course.now ∧
      events.countP CourseEvent.own + last.candidate.task.stepsLeft course.now ≤
        course.candidate.task.stepsLeft course.now)
    (fun _ => ⟨steady, rfl, rfl, by rw [List.countP_nil, Nat.zero_add]⟩) ?_ events run timeless
  · obtain ⟨_, _, clock, drawn⟩ := counted
    have left := course.candidate.task.stepsLeft_le course.now
    have room := Nat.le_trans (Nat.le_add_left _ _) steady.room
    exact ⟨clock, by omega⟩
  · intro events last event after _ ih acted timeless
    obtain ⟨steady, terms, clock, drawn⟩ :=
      ih fun event present => timeless event (List.mem_append_left _ present)
    have now := timeless event (List.mem_append_right _ List.mem_cons_self)
    rw [← terms] at fits
    have step := eventStep_of_act? acted
    obtain ⟨still, drawn⟩ := stepsLeft_of_act? steady fits acted now
    rw [clock] at still drawn
    refine ⟨steady.step fits step (now_le_of_act? acted), step.terms_eq.trans terms, still, ?_⟩
    rw [List.countP_append, List.countP_singleton]
    omega

end Course

end Leasehold
