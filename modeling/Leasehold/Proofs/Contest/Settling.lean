import Mathlib.Algebra.Order.BigOperators.Group.List
import Mathlib.Algebra.Order.Ring.Nat
import Leasehold.Proofs.Contest.Incumbency
import Leasehold.Proofs.Election.Pace

set_option autoImplicit false

/-!
Within one instant a contest settles: whoever is let go on, and however the calls travel, all members
soon wait for the clock. Each step of a member draws down what it can still do there, so what all of
them can do is a sum that every step makes smaller.
-/

namespace Leasehold

variable {contest next : Contest} {action : Action} {id : Nat} {member after : Member}

/-! ### What a member can still do -/

/-- A call takes three steps at most, and the last look may end the election. -/
def Member.stepsLeft (now : Nat) (member : Member) : Nat :=
  match member.candidate.task, member.flight with
  | .between stage, _ => 3 * (Task.between stage).ahead now + 1
  | .calling stage began, some flight =>
      3 * (Task.calling stage began).ahead now + if flight.landed.isSome then 2 else 3
  | _, _ => 0

namespace Member

theorem stepsLeft_of_ended {now : Nat} (ended : member.candidate.task = .ended) :
    member.stepsLeft now = 0 := by
  simp only [stepsLeft, ended]

theorem stepsLeft_le (member : Member) (now : Nat) :
    member.stepsLeft now ≤ 3 * member.candidate.task.ahead now + 3 := by
  unfold stepsLeft
  split
  · rename_i between
    rw [between]
    omega
  · rename_i calling _
    rw [calling]
    split <;> omega
  · exact Nat.zero_le _

end Member

namespace Contest

def Timed (contest : Contest) : Prop :=
  ∀ (id : Nat) (member : Member), contest.members[id]? = some member →
    member.candidate.candidacy.Fits contest.bucket.terms.ttl ∧
      member.candidate.Ticks contest.now

theorem timed_of_reachable {terms : BucketTerms} (reached : Reachable terms contest) :
    contest.Timed := by
  obtain ⟨actions, run⟩ := reached
  intro id member found
  exact ⟨Candidacy.fits_of_accept (accepted_of_run run found), ticks_of_run run found⟩

/-- A member that goes on has less left to do, and nobody else has more. -/
theorem Turn.stepsLeft {plan : Plan} (turn : Turn contest (.proceed id plan) next)
    (timed : contest.Timed) :
    next.now = contest.now ∧ ∃ member after, contest.members[id]? = some member ∧
      next.members = contest.members.set id after ∧
      after.stepsLeft contest.now + 1 ≤ member.stepsLeft contest.now := by
  cases turn with
  | ignored _ _ asks => cases asks
  | called _ _ member stage following found between moved =>
      obtain ⟨fits, ticks⟩ := timed id member found
      refine ⟨rfl, member, _, found, rfl, ?_⟩
      have drawn := Candidate.ahead_of_look fits ticks between moved
      simp only [Member.stepsLeft, between, ← drawn, Option.isSome_none, Bool.false_eq_true, if_false]
      omega
  | quit _ _ member stage outcome found between moved =>
      refine ⟨rfl, member, _, found, rfl, ?_⟩
      rw [Member.stepsLeft_of_ended rfl]
      simp only [Member.stepsLeft, between]
      omega
  | abandoned _ _ member stage found between moved =>
      refine ⟨rfl, member, _, found, rfl, ?_⟩
      rw [Member.stepsLeft_of_ended rfl]
      simp only [Member.stepsLeft, between]
      omega
  | landed _ _ member stage began flight reply bucket found calling flying aloft arrived performed =>
      refine ⟨rfl, member, _, found, rfl, ?_⟩
      simp [Member.stepsLeft, calling, flying, aloft]
  | answered _ _ member stage began flight landedAt answer found calling flying landed arrived =>
      obtain ⟨fits, _⟩ := timed id member found
      refine ⟨rfl, member, _, found, rfl, ?_⟩
      have ahead : (member.candidate.settle contest.now stage answer).task.ahead contest.now ≤
          (Task.calling stage began).ahead contest.now :=
        Candidate.ahead_of_settle fits answer began
      rcases member.candidate.task_settle contest.now stage answer with ended | ⟨waiting, waits⟩
      · rw [Member.stepsLeft_of_ended ended]
        simp only [Member.stepsLeft, calling, flying, landed, Option.isSome_some, if_true]
        omega
      · rw [waits] at ahead
        simp only [Member.stepsLeft, waits, calling, flying, landed, Option.isSome_some, if_true]
        omega
  | cutOff _ _ member stage began flight limit found calling flying underWay limited reached =>
      refine ⟨rfl, member, _, found, rfl, ?_⟩
      have ended : (member.candidate.settle contest.now stage
          (.error (.timeout (member.candidate.candidacy.callLimitMs.getD 0)))).task = .ended := by
        rw [Candidate.settle_timeout]
        rfl
      rw [Member.stepsLeft_of_ended ended]
      simp only [Member.stepsLeft, calling, flying]
      split <;> omega

/-! ### What all members can still do -/

def stepsLeft (contest : Contest) : Nat :=
  (contest.members.map (Member.stepsLeft contest.now)).sum

theorem sum_map_set_lt {α : Type} {weight : α → Nat} {items : List α} {place : Nat} {item lighter : α}
    (found : items[place]? = some item) (less : weight lighter + 1 ≤ weight item) :
    ((items.set place lighter).map weight).sum + 1 ≤ (items.map weight).sum := by
  induction items generalizing place with
  | nil => cases found
  | cons first rest ih =>
      cases place with
      | zero =>
          cases found
          simp only [List.set_cons_zero, List.map_cons, List.sum_cons]
          omega
      | succ place =>
          have smaller := ih found
          simp only [List.set_cons_succ, List.map_cons, List.sum_cons]
          omega

theorem burst_le {candidacy : Candidacy} {ttl : Nat} (fits : candidacy.Fits ttl) :
    candidacy.burst ≤ 7 := by
  have least : 1 ≤ min candidacy.renewEveryMs candidacy.pollEveryMs :=
    Nat.le_min.mpr ⟨fits.renews, fits.polls⟩
  exact Nat.add_le_add_left (Nat.div_le_self 5 _) 2

theorem stepsLeft_le (timed : contest.Timed) : contest.stepsLeft ≤ 24 * contest.members.length := by
  have each : ∀ member ∈ contest.members, member.stepsLeft contest.now ≤ 24 := by
    intro member present
    obtain ⟨id, found⟩ := List.mem_iff_getElem?.mp present
    obtain ⟨fits, ticks⟩ := timed id member found
    have ahead := Nat.le_trans (Candidate.ahead_le fits ticks) (burst_le fits)
    have left := member.stepsLeft_le contest.now
    omega
  have bounded := List.sum_le_card_nsmul (contest.members.map (Member.stepsLeft contest.now)) 24
    (List.forall_mem_map.mpr each)
  rwa [List.length_map, Nat.nsmul_eq_mul, Nat.mul_comm] at bounded

theorem stepsLeft_of_act? {plan : Plan} (timed : contest.Timed)
    (acted : contest.act? (.proceed id plan) = some next) :
    next.now = contest.now ∧ next.stepsLeft + 1 ≤ contest.stepsLeft := by
  obtain ⟨clock, member, after, found, members, less⟩ := (turn_of_act? acted).stepsLeft timed
  refine ⟨clock, ?_⟩
  rw [stepsLeft, members, clock]
  exact sum_map_set_lt found less

theorem length_le_of_run {terms : BucketTerms} {actions : List Action}
    (reached : Reachable terms contest)
    (proceeding : ∀ action ∈ actions, ∃ id plan, action = .proceed id plan)
    (run : contest.run? actions = some next) :
    next.now = contest.now ∧ actions.length ≤ 24 * contest.members.length := by
  have counted := Runs.induct (motive := fun actions last =>
    (∀ action ∈ actions, ∃ id plan, action = .proceed id plan) → Reachable terms last ∧
      last.now = contest.now ∧ actions.length + last.stepsLeft ≤ contest.stepsLeft)
    (fun _ => ⟨reached, rfl, by rw [List.length_nil, Nat.zero_add]⟩) ?_ actions run proceeding
  · obtain ⟨_, clock, drawn⟩ := counted
    have left := stepsLeft_le (timed_of_reachable reached)
    exact ⟨clock, by omega⟩
  · intro actions last action after _ ih acted proceeding
    obtain ⟨reached, clock, drawn⟩ :=
      ih fun action present => proceeding action (List.mem_append_left _ present)
    obtain ⟨id, plan, rfl⟩ := proceeding action (List.mem_append_right _ List.mem_cons_self)
    obtain ⟨still, less⟩ := stepsLeft_of_act? (timed_of_reachable reached) acted
    refine ⟨reached.act acted, still.trans clock, ?_⟩
    rw [List.length_append, List.length_singleton]
    omega

/-- Unless all wait for the clock, somebody can go on. -/
theorem quiet_or_able (contest : Contest) :
    contest.quiet = true ∨ ∃ id, ∀ plan, (contest.act? (.proceed id plan)).isSome = true := by
  by_cases idle : ∀ member ∈ contest.members, contest.step? member = none
  · left
    simpa [quiet] using idle
  · right
    push Not at idle
    obtain ⟨member, present, able⟩ := idle
    obtain ⟨id, found⟩ := List.mem_iff_getElem?.mp present
    refine ⟨id, fun plan => ?_⟩
    simp [act?, found, Option.isSome_iff_ne_none, able]

end Contest

/-! ### The law -/

namespace Course

variable {terms : BucketTerms} {candidacy : Candidacy} {events : List CourseEvent} {course : Course}

/-- How much an election can do at one instant, alone before any store and together with others
before one bucket, and how far apart its ticks are. -/
structure Paced (terms : BucketTerms) (candidacy : Candidacy) (course : Course) : Prop where
  few : ∀ instant, course.begunAt instant ≤ candidacy.burst
  spaced : course.begins.IsChain (Spaced candidacy)
  suspends : ∀ events last, (∀ event ∈ events, ∀ instant, event ≠ .passTo instant) →
    course.run? events = some last →
    last.now = course.now ∧ events.countP CourseEvent.own ≤ 2 * candidacy.burst + 2
  settles : ∀ contest actions last, Contest.Reachable terms contest →
    (∀ action ∈ actions, ∃ id plan, action = .proceed id plan) →
    contest.run? actions = some last →
    last.now = contest.now ∧ actions.length ≤ 24 * contest.members.length ∧
      (last.quiet = true ∨ ∃ id, ∀ plan, (last.act? (.proceed id plan)).isSome = true)

theorem paced_of_run (accepted : candidacy.accept terms = .ok ())
    (run : (opening candidacy).run? events = some course) : course.Paced terms candidacy := by
  have fits := Candidacy.fits_of_accept accepted
  have steady := steady_of_run fits run
  have kept : course.candidate.candidacy = candidacy := (ordered_of_run run).terms
  refine ⟨kept ▸ steady.few, kept ▸ steady.spaced, ?_, ?_⟩
  · intro events last timeless ran
    rw [← kept] at fits ⊢
    exact own_le_of_run steady fits timeless ran
  · intro contest actions last reached proceeding ran
    obtain ⟨clock, bounded⟩ := Contest.length_le_of_run reached proceeding ran
    exact ⟨clock, bounded, last.quiet_or_able⟩

/-- A look takes six milliseconds, the six that follow come at once, and the last of them leads to a
create: as many calls at one instant as there can be. -/
def slowLook : List CourseEvent :=
  let seen : CourseEvent := .answer (.ok ⟨"k", [], ⟨1⟩⟩)
  [.start, .look, .answer (.error (.keyExists "k")), .passTo 1_000_000, .look, .passTo 7_000_000,
    seen, .look, seen, .look, seen, .look, seen, .look, seen, .look, seen, .look,
    .answer (.error (.keyNotFound "k")), .look]

theorem paced_afterSlowLook :
    hasty.accept ⟨"b", 3_000_000⟩ = .ok () ∧ hasty.burst = 7 ∧
      ∃ course, (opening hasty).run? slowLook = some course ∧
        course.Paced ⟨"b", 3_000_000⟩ hasty ∧ course.begunAt 7_000_000 = 7 :=
  have ran : (opening hasty).run? slowLook = some _ := rfl
  ⟨rfl, rfl, _, ran, paced_of_run rfl ran, rfl⟩

end Course

end Leasehold
