import Leasehold.Proofs.Contest.Cadence
import Leasehold.Proofs.Contest.Closing
import Leasehold.Proofs.Contest.Excerpt
import Leasehold.Proofs.Contest.Instant

set_option autoImplicit false

/-!
How the members of a contest go on, before a store that may answer anything.

A store of another kind than the bucket is one that dictates the answer to a call that is under way.
Whatever happens, a member changes its signals only when its owner asks it to, an election that is
over stays as it is, and a member that is interrupted or over begins no call. `Contest.Onward` says
so of one step and of several.
-/

namespace Leasehold

def Action.asked? : Action → Option Nat
  | .stop id | .deafen id => some id
  | _ => none

namespace Candidate

variable {candidate : Candidate} {now : Nat} {stage : Stage} {answer : Except StoreError Entry}

/-- An answer makes nobody say that it was interrupted. -/
theorem answered_reports (candidate : Candidate) (now : Nat) (stage : Stage)
    (answer : Except StoreError Entry) :
    ∃ extra, (candidate.settle now stage answer).reports = candidate.reports ++ extra ∧
      .stopped ∉ extra ∧ .cancelled ∉ extra := by
  have settled := candidate.settled now stage answer
  generalize candidate.settle now stage answer = after at settled ⊢
  cases settled with
  | silent | unheard => exact ⟨[], (List.append_nil _).symm, List.not_mem_nil, List.not_mem_nil⟩
  | told phase outcome enters heard =>
      refine ⟨[outcome], rfl, ?_⟩
      rcases Stage.transition_report enters with rfl | rfl
      · decide
      · decide
  | ended outcome ends =>
      obtain ⟨cause, _, rfl⟩ := Stage.transition_finish ends
      refine ⟨_, candidate.reports_finish _, ?_, ?_⟩
      · split <;> simp
      · split <;> simp

end Candidate

namespace Member

structure Drifts (gone : Bool) (member after : Member) : Prop where
  stop : after.candidate.stopRequested = member.candidate.stopRequested
  listening : after.candidate.listening = member.candidate.listening
  told : ∃ extra, after.candidate.reports = member.candidate.reports ++ extra ∧
    (.stopped ∈ extra → member.candidate.stopRequested = true) ∧ (.cancelled ∈ extra → gone = true)

structure Stays (member after : Member) : Prop where
  terms : after.candidate.candidacy = member.candidate.candidacy
  context : after.context = member.context
  begun : after.candidate.task ≠ .unstarted

variable {member middle after : Member} {gone : Bool}

theorem drifts_of_same (stop : after.candidate.stopRequested = member.candidate.stopRequested)
    (listening : after.candidate.listening = member.candidate.listening)
    (reports : after.candidate.reports = member.candidate.reports) : member.Drifts gone after :=
  ⟨stop, listening, [], reports.trans (List.append_nil _).symm, fun never => (nomatch never),
    fun never => (nomatch never)⟩

theorem Drifts.trans {earlier : Bool} (first : member.Drifts earlier middle)
    (second : middle.Drifts gone after) (kept : earlier = true → gone = true) :
    member.Drifts gone after := by
  obtain ⟨one, reports, stopped, cancelled⟩ := first.told
  obtain ⟨two, reportsLater, stoppedLater, cancelledLater⟩ := second.told
  refine ⟨second.stop.trans first.stop, second.listening.trans first.listening, one ++ two, ?_, ?_, ?_⟩
  · rw [reportsLater, reports, List.append_assoc]
  · intro told
    rcases List.mem_append.mp told with early | late
    · exact stopped early
    · exact first.stop ▸ stoppedLater late
  · intro told
    rcases List.mem_append.mp told with early | late
    · exact kept (cancelled early)
    · exact cancelledLater late

end Member

namespace Contest

variable {contest middle next after : Contest} {action : Action} {id other : Nat}
  {member later : Member} {asked : Option Nat}

/-- Whatever the bucket makes of it, the call of a member that is under way is answered like this. -/
def dictate (contest : Contest) (id : Nat) (answer : Except StoreError Entry) : Contest :=
  contest.update id fun member =>
    { member with
      flight := member.flight.map fun flight =>
        { flight with landed := some (contest.now, answer) } }

def seat (contest : Contest) (candidacy : Candidacy) (context : String) : Contest :=
  { contest with
    members := contest.members ++ [{ candidate := Candidate.start { candidacy }, context }] }

/-- An election is given up: it is asked to stop and nobody listens to it any more. -/
def leave (contest : Contest) (id : Nat) : Contest := (contest.stop id).deafen id

def issuedBy (contest : Contest) (id : Nat) : List (Call × Nat) :=
  ((contest.members[id]?).map (contest.issued id)).getD []

theorem issuedBy_of_found (found : contest.members[id]? = some member) :
    contest.issuedBy id = contest.issued id member := by
  rw [issuedBy, found]
  rfl

/-- A member that was interrupted before its first call: it is about to end, or has ended, without
one. -/
structure Stillborn (contest : Contest) (member : Member) : Prop where
  interrupted : contest.Interrupted member
  idle : member.candidate.task = .between .electing ∧ member.candidate.reports = [] ∨
    member.candidate.task = .ended ∧ (member.candidate.reports = [] ∨
      ∃ farewell, (farewell = .stopped ∨ farewell = .cancelled) ∧
        member.candidate.reports = [farewell])

/-! ### One turn -/

theorem moved_of_set (relation : Member → Member → Prop) {rival changed : Member}
    (refl : relation member member) (was : contest.members[other]? = some rival)
    (members : next.members = contest.members.set other changed)
    (own : other = id → rival = member → relation rival changed)
    (found : contest.members[id]? = some member) :
    ∃ later, next.members[id]? = some later ∧ relation member later := by
  rw [members]
  rcases found_after_set was found changed with ⟨same, rfl, there⟩ | ⟨_, stays⟩
  · exact ⟨changed, there, own same.symm rfl⟩
  · exact ⟨member, stays, refl⟩

theorem Turn.stays (turn : Turn contest action next) (found : contest.members[id]? = some member)
    (begun : member.candidate.task ≠ .unstarted) :
    ∃ later, next.members[id]? = some later ∧ member.Stays later := by
  obtain ⟨later, there, signalled⟩ := turn.signalled found
  obtain ⟨same, again, terms, _⟩ := turn.persists found
  obtain rfl := Option.some.inj (there.symm.trans again)
  obtain ⟨still, context⟩ := signalled.context begun
  exact ⟨later, there, terms, context, still⟩

theorem Turn.drifts (turn : Turn contest action next) (found : contest.members[id]? = some member)
    (begun : member.candidate.task ≠ .unstarted) (unasked : action.asked? ≠ some id) :
    ∃ later, next.members[id]? = some later ∧
      member.Drifts (contest.isCancelled member.context) later := by
  have refl : member.Drifts (contest.isCancelled member.context) member :=
    Member.drifts_of_same rfl rfl rfl
  have changed {other : Nat} {rival after : Member} (was : contest.members[other]? = some rival)
      (members : next.members = contest.members.set other after)
      (own : other = id → rival = member →
        rival.Drifts (contest.isCancelled member.context) after) :
      ∃ later, next.members[id]? = some later ∧
        member.Drifts (contest.isCancelled member.context) later :=
    moved_of_set (Member.Drifts (contest.isCancelled member.context)) refl was members
      own found
  cases turn with
  | joined candidacy =>
      refine ⟨member, ?_, refl⟩
      rw [List.getElem?_append_left (List.getElem?_eq_some_iff.mp found).1]
      exact found
  | ignored | cancelled | performed | injected | passed => exact ⟨member, found, refl⟩
  | started other context rival was fresh =>
      apply changed was rfl
      rintro rfl rfl
      exact absurd fresh begun
  | stopped other rival was | deafened other rival was =>
      apply changed was rfl
      rintro rfl rfl
      exact absurd rfl unasked
  | called other plan rival stage following was | landed other plan rival _ _ _ _ _ was
  | abandoned other plan rival stage was =>
      exact changed was rfl fun _ _ => Member.drifts_of_same rfl rfl rfl
  | quit other plan rival stage outcome was between moved =>
      apply changed was rfl
      rintro rfl rfl
      refine ⟨Candidate.stopRequested_finish _ _, Candidate.listening_finish _ _, _,
        Candidate.reports_finish _ _, ?_, ?_⟩
      · intro told
        split at told
        · obtain rfl := List.mem_singleton.mp told
          rcases Stage.look_finish moved with ⟨_, stopped⟩ | ⟨never, _⟩
          · exact stopped
          · cases never
        · cases told
      · intro told
        split at told
        · obtain rfl := List.mem_singleton.mp told
          rcases Stage.look_finish moved with ⟨never, _⟩ | ⟨_, gone, _⟩
          · cases never
          · exact gone
        · cases told
  | answered other plan rival stage _ _ _ answer was | cutOff other plan rival stage _ _ _ was =>
      apply changed was rfl
      rintro rfl rfl
      obtain ⟨extra, reports, unstopped, uncancelled⟩ :=
        rival.candidate.answered_reports contest.now stage _
      exact ⟨Candidate.stopRequested_settle _ _ _ _, Candidate.listening_settle _ _ _ _, extra,
        reports, fun told => absurd told unstopped, fun told => absurd told uncancelled⟩

/-- An election that is over says nothing more. -/
theorem MemberStep.reports_of_ended (step : MemberStep contest id member action next later)
    (ended : member.candidate.task = .ended) :
    later.candidate.reports = member.candidate.reports := by
  cases step with
  | kept _ _ _ _ _ _ reports => exact reports
  | passed => rfl
  | started _ task | called _ _ _ task | left _ _ _ _ task | landed _ _ _ _ _ _ _ task
  | answered _ _ _ _ _ _ task | cutOff _ _ _ _ _ task => cases ended.symm.trans task

/-- Only a member that is neither interrupted nor over begins a call. -/
theorem MemberStep.issued_of_idle (step : MemberStep contest id member action next later)
    (idle : contest.Interrupted member ∨ member.candidate.task = .ended) :
    next.issued id later = contest.issued id member := by
  apply step.issued
  intro stage following between calling
  cases step with
  | kept _ _ _ _ task =>
      rw [task, between] at calling
      cases calling
  | started | cutOff => cases calling
  | called plan current next waits moved =>
      rcases idle with interrupted | ended
      · have quits := @moveOf_of_interrupted contest member current interrupted
        rw [moved] at quits
        cases quits
      · rw [ended] at between
        cases between
  | left _ _ _ _ _ ended =>
      rw [ended] at calling
      cases calling
  | landed _ _ _ _ _ _ _ task | answered _ _ _ _ _ _ task =>
      rw [between] at task
      cases task
  | passed =>
      rw [between] at calling
      cases calling

theorem Turn.stillborn (turn : Turn contest action next) (found : contest.members[id]? = some member)
    (stillborn : contest.Stillborn member) :
    ∃ later, next.members[id]? = some later ∧ next.Stillborn later := by
  obtain ⟨later, there, step⟩ := turn.memberStep found
  obtain ⟨same, again, signalled⟩ := turn.signalled found
  obtain rfl := Option.some.inj (there.symm.trans again)
  refine ⟨later, there, turn.interrupted signalled stillborn.interrupted, ?_⟩
  rcases stillborn.idle with ⟨between, silent⟩ | ⟨ended, reports⟩
  · have quits := @moveOf_of_interrupted contest member .electing stillborn.interrupted
    cases step with
    | kept _ _ _ _ task _ told => exact Or.inl ⟨task.trans between, told.trans silent⟩
    | passed => exact Or.inl ⟨between, silent⟩
    | started _ fresh => cases between.symm.trans fresh
    | landed _ _ _ _ _ _ _ calling | answered _ _ _ _ _ _ calling | cutOff _ _ _ _ _ calling =>
        cases between.symm.trans calling
    | called _ _ _ waits moved =>
        cases between.symm.trans waits
        cases quits.symm.trans moved
    | left _ _ _ _ _ ended =>
        have leaves := turn.farewell found between stillborn.interrupted
        obtain rfl := Option.some.inj (there.symm.trans leaves)
        refine Or.inr ⟨rfl, ?_⟩
        simp only [Candidate.reports_finish, silent, List.nil_append]
        split
        · refine Or.inr ⟨member.farewell, ?_, rfl⟩
          unfold Member.farewell
          split
          · exact Or.inl rfl
          · exact Or.inr rfl
        · exact Or.inl rfl
  · rw [← step.reports_of_ended ended] at reports
    exact Or.inr ⟨step.ended ended, reports⟩

/-! ### Several turns -/

/-- What holds of a later state of a contest in which the owner of one election at most has asked
something of it. -/
structure Onward (contest : Contest) (asked : Option Nat) (after : Contest) : Prop where
  terms : after.bucket.terms = contest.bucket.terms
  gone : ∀ context, contest.isCancelled context = true → after.isCancelled context = true
  coherent : (∀ member ∈ contest.members, member.candidate.Coherent) →
    ∀ member ∈ after.members, member.candidate.Coherent
  seated : contest.Seated → after.Seated
  grown : contest.members.length ≤ after.members.length
  stays : ∀ (id : Nat) (member : Member), contest.members[id]? = some member →
    member.candidate.task ≠ .unstarted →
    ∃ later : Member, after.members[id]? = some later ∧ member.Stays later
  drifts : ∀ (id : Nat) (member : Member), contest.members[id]? = some member →
    member.candidate.task ≠ .unstarted → asked ≠ some id →
    ∃ later : Member, after.members[id]? = some later ∧
      member.Drifts (after.isCancelled member.context) later
  finished : ∀ (id : Nat) (member : Member), contest.members[id]? = some member →
    member.candidate.task = .ended → ∃ later : Member, after.members[id]? = some later ∧
      later.candidate.task = .ended ∧ later.candidate.reports = member.candidate.reports
  idle : ∀ (id : Nat) (member : Member), contest.members[id]? = some member →
    contest.Interrupted member →
    ∃ later : Member, after.members[id]? = some later ∧ after.Interrupted later
  silent : ∀ (id : Nat) (member : Member), contest.members[id]? = some member →
    contest.Interrupted member ∨ member.candidate.task = .ended →
    after.issuedBy id = contest.issuedBy id
  stillborn : ∀ (id : Nat) (member : Member), contest.members[id]? = some member →
    contest.Stillborn member → ∃ later : Member, after.members[id]? = some later ∧
      after.Stillborn later

theorem Onward.refl (contest : Contest) (asked : Option Nat) : contest.Onward asked contest where
  terms := rfl
  gone := fun _ gone => gone
  coherent := fun coherent => coherent
  seated := fun seated => seated
  grown := Nat.le_refl _
  stays := fun _ member found begun => ⟨member, found, rfl, rfl, begun⟩
  drifts := fun _ member found _ _ => ⟨member, found, Member.drifts_of_same rfl rfl rfl⟩
  finished := fun _ member found ended => ⟨member, found, ended, rfl⟩
  idle := fun _ member found interrupted => ⟨member, found, interrupted⟩
  silent := fun _ _ _ _ => rfl
  stillborn := fun _ member found stillborn => ⟨member, found, stillborn⟩

theorem Onward.trans (first : contest.Onward asked middle) (second : middle.Onward asked after) :
    contest.Onward asked after where
  terms := second.terms.trans first.terms
  gone := fun context gone => second.gone context (first.gone context gone)
  coherent := fun coherent => second.coherent (first.coherent coherent)
  seated := fun seated => second.seated (first.seated seated)
  grown := Nat.le_trans first.grown second.grown
  stays := by
    intro id member found begun
    obtain ⟨between, there, stays⟩ := first.stays id member found begun
    obtain ⟨later, foundLater, staysLater⟩ := second.stays id between there stays.begun
    exact ⟨later, foundLater, staysLater.terms.trans stays.terms,
      staysLater.context.trans stays.context, staysLater.begun⟩
  drifts := by
    intro id member found begun unasked
    obtain ⟨between, there, stays⟩ := first.stays id member found begun
    obtain ⟨same, again, drifts⟩ := first.drifts id member found begun unasked
    obtain rfl := Option.some.inj (there.symm.trans again)
    obtain ⟨later, foundLater, driftsLater⟩ := second.drifts id between there stays.begun unasked
    rw [stays.context] at driftsLater
    exact ⟨later, foundLater, drifts.trans driftsLater (second.gone member.context)⟩
  finished := by
    intro id member found ended
    obtain ⟨between, there, still, reports⟩ := first.finished id member found ended
    obtain ⟨later, foundLater, stillLater, reportsLater⟩ := second.finished id between there still
    exact ⟨later, foundLater, stillLater, reportsLater.trans reports⟩
  idle := by
    intro id member found interrupted
    obtain ⟨between, there, still⟩ := first.idle id member found interrupted
    exact second.idle id between there still
  silent := by
    intro id member found idle
    have before := first.silent id member found idle
    rcases idle with interrupted | ended
    · obtain ⟨between, there, still⟩ := first.idle id member found interrupted
      exact (second.silent id between there (Or.inl still)).trans before
    · obtain ⟨between, there, still, _⟩ := first.finished id member found ended
      exact (second.silent id between there (Or.inr still)).trans before
  stillborn := by
    intro id member found stillborn
    obtain ⟨between, there, still⟩ := first.stillborn id member found stillborn
    exact second.stillborn id between there still

theorem Turn.onward (turn : Turn contest action next) : contest.Onward action.asked? next where
  terms := turn.terms_eq
  gone := fun _ gone => turn.isCancelled gone
  coherent := turn.coherent
  seated := turn.seated
  grown := by
    obtain ⟨more, grown⟩ := turn.keys_eq
    have longer := congrArg List.length grown
    rw [keys, keys, List.length_map, List.length_append, List.length_map] at longer
    omega
  stays := fun _ _ found begun => turn.stays found begun
  drifts := by
    intro id member found begun unasked
    obtain ⟨later, there, drifts⟩ := turn.drifts found begun unasked
    exact ⟨later, there, drifts.trans (Member.drifts_of_same rfl rfl rfl) turn.isCancelled⟩
  finished := by
    intro id member found ended
    obtain ⟨later, there, step⟩ := turn.memberStep found
    exact ⟨later, there, step.ended ended, step.reports_of_ended ended⟩
  idle := by
    intro id member found interrupted
    obtain ⟨later, there, signalled⟩ := turn.signalled found
    exact ⟨later, there, turn.interrupted signalled interrupted⟩
  silent := by
    intro id member found idle
    obtain ⟨later, there, step⟩ := turn.memberStep found
    rw [issuedBy_of_found there, issuedBy_of_found found]
    exact step.issued_of_idle idle
  stillborn := fun _ _ found stillborn => turn.stillborn found stillborn

/-- The store may dictate answers, but nobody has asked for anything. -/
theorem onward_dictate (contest : Contest) (other : Nat) (answer : Except StoreError Entry) :
    contest.Onward none (contest.dictate other answer) := by
  have same (id : Nat) (member : Member) (found : contest.members[id]? = some member) :
      ∃ flight, (contest.dictate other answer).members[id]? = some { member with flight } := by
    simp only [dictate, update, List.getElem?_modify, found]
    split
    · exact ⟨_, rfl⟩
    · exact ⟨member.flight, rfl⟩
  have length : (contest.dictate other answer).members.length = contest.members.length :=
    List.length_modify _ _ _
  refine ⟨rfl, fun _ gone => gone, ?_, ?_, Nat.le_of_eq length.symm, ?_, ?_, ?_, ?_, ?_, ?_⟩
  · intro coherent member present
    obtain ⟨id, there⟩ := List.getElem?_of_mem present
    have inside := (List.getElem?_eq_some_iff.mp there).1
    rw [length] at inside
    obtain ⟨flight, again⟩ := same id _ (List.getElem?_eq_getElem inside)
    obtain rfl := Option.some.inj (again.symm.trans there)
    have before : contest.members[id].candidate.Coherent := coherent _ (List.getElem_mem inside)
    exact before
  · intro seated record past
    rw [length]
    exact seated record past
  · intro id member found begun
    obtain ⟨flight, there⟩ := same id member found
    exact ⟨_, there, rfl, rfl, begun⟩
  · intro id member found begun unasked
    obtain ⟨flight, there⟩ := same id member found
    exact ⟨_, there, Member.drifts_of_same rfl rfl rfl⟩
  · intro id member found ended
    obtain ⟨flight, there⟩ := same id member found
    exact ⟨_, there, ended, rfl⟩
  · intro id member found interrupted
    obtain ⟨flight, there⟩ := same id member found
    exact ⟨_, there, interrupted⟩
  · intro id member found _
    obtain ⟨flight, there⟩ := same id member found
    rw [issuedBy_of_found there, issuedBy_of_found found]
    rfl
  · intro id member found stillborn
    obtain ⟨flight, there⟩ := same id member found
    exact ⟨_, there, stillborn.interrupted, stillborn.idle⟩

/-! ### What owners do -/

/-- What holds if nobody is asked for anything holds whoever is asked. -/
theorem Onward.of_unasked (onward : contest.Onward none after) : contest.Onward asked after :=
  { onward with drifts := fun id member found begun _ =>
      onward.drifts id member found begun fun never => (nomatch never) }

theorem onward_stop (contest : Contest) (id : Nat) : contest.Onward (some id) (contest.stop id) := by
  have acted : contest.act? (.stop id) = some (contest.stop id) := rfl
  exact (turn_of_act? acted).onward

theorem onward_leave (contest : Contest) (id : Nat) : contest.Onward (some id) (contest.leave id) := by
  have acted : (contest.stop id).act? (.deafen id) = some (contest.leave id) := rfl
  exact (onward_stop contest id).trans (turn_of_act? acted).onward

theorem found_stop (found : contest.members[id]? = some member) :
    (contest.stop id).members[id]? = some { member with candidate := member.candidate.stop } := by
  simp only [stop, updateCandidate, update, List.getElem?_modify_eq, found]
  rfl

theorem found_seat (contest : Contest) (candidacy : Candidacy) (context : String) :
    (contest.seat candidacy context).members[contest.members.length]? =
      some { candidate := Candidate.start { candidacy }, context } :=
  List.getElem?_concat_length

theorem start_of_newcomer (contest : Contest) (candidacy : Candidacy) (context : String) :
    Contest.start { contest with members := contest.members ++ [{ candidate := { candidacy } }] }
      contest.members.length context = .ok (contest.seat candidacy context) := by
  have found : (contest.members ++ [({ candidate := { candidacy } } : Member)])[
      contest.members.length]? = some { candidate := { candidacy } } := List.getElem?_concat_length
  simp only [Contest.start, found, if_true]
  rw [Contest.update_eq_put found, Contest.put, Contest.seat]
  simp

theorem onward_seat {candidacy : Candidacy} (context : String)
    (accepted : candidacy.accept contest.bucket.terms = .ok ()) :
    contest.Onward none (contest.seat candidacy context) := by
  have stands : contest.act? (.nominate candidacy) =
      some { contest with members := contest.members ++ [{ candidate := { candidacy } }] } := by
    rw [act?, nominate, accepted]
    rfl
  have starts : Contest.act?
      { contest with members := contest.members ++ [{ candidate := { candidacy } }] }
      (.start contest.members.length context) = some (contest.seat candidacy context) := by
    rw [act?, start_of_newcomer]
    rfl
  exact (turn_of_act? stands).onward.trans (turn_of_act? starts).onward

/-- A newcomer has begun no call. -/
theorem issuedBy_seat (candidacy : Candidacy) (context : String) (seated : contest.Seated) :
    (contest.seat candidacy context).issuedBy contest.members.length = [] := by
  have none : contest.calls.filter (·.member = contest.members.length) = [] := by
    apply List.filter_eq_nil_iff.mpr
    intro record past never
    exact Nat.lt_irrefl _ (of_decide_eq_true never ▸ seated record past)
  rw [issuedBy_of_found (found_seat contest candidacy context), issued]
  simp only [seat, none]
  rfl

theorem stillborn_seat {context : String} (candidacy : Candidacy)
    (gone : contest.isCancelled context = true) : (contest.seat candidacy context).Stillborn
      { candidate := Candidate.start { candidacy }, context } :=
  ⟨Or.inr ⟨Task.noConfusion, gone⟩, Or.inl ⟨rfl, rfl⟩⟩

theorem issuedBy_of_missing (missing : contest.members[id]? = none) : contest.issuedBy id = [] := by
  rw [issuedBy, missing]
  rfl

end Contest

end Leasehold
