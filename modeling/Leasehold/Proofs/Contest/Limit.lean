import Leasehold.Proofs.Contest.Onward

set_option autoImplicit false

/-!
What the limit on calls makes of a call.

The clock never passes the instant at which a call under way gets further, nor the limit. So when
such a call goes on it is exactly then, and whether it is answered or cut off depends on its delays
alone (`Contest.Passage`).
-/

namespace Leasehold

namespace Contest

variable {first contest next : Contest} {action : Action} {actions : List Action}
  {id began limitMs : Nat} {member later : Member} {stage : Stage} {plan : Plan} {flight : Flight}
  {answer : Except StoreError Entry}

/-! ### Time under a call -/

/-- The clock passes neither the next progress of a call nor its limit. -/
theorem le_of_passed {instant : Nat} (awake : contest.wakeAt?.all (instant ≤ ·) = true)
    (found : contest.members[id]? = some member)
    (calling : member.candidate.task = .calling stage began) (flying : member.flight = some flight) :
    instant ≤ Member.progressAt began flight ∧
      ∀ limit, member.limitAt? began = some limit → instant ≤ limit := by
  cases limited : member.limitAt? began with
  | none =>
      have wakes : member.wakeAt? = some (Member.progressAt began flight) := by
        simp only [Member.wakeAt?, calling, flying, limited]
      exact ⟨le_of_awake awake found wakes, fun _ never => by cases never⟩
  | some limit =>
      have wakes : member.wakeAt? = some (min (Member.progressAt began flight) limit) := by
        simp only [Member.wakeAt?, calling, flying, limited]
      have early := le_of_awake awake found wakes
      refine ⟨Nat.le_trans early (Nat.min_le_left _ _), ?_⟩
      rintro _ ⟨⟩
      exact Nat.le_trans early (Nat.min_le_right _ _)

/-- A call that comes to an end has arrived, or its limit is reached before it has. -/
theorem Turn.concluded {record : CallRecord} (turn : Turn contest (.proceed id plan) next)
    (found : contest.members[id]? = some member)
    (calling : member.candidate.task = .calling stage began) (flying : member.flight = some flight)
    (concluded : next.calls = record :: contest.calls) :
    record.cutOff = false ∧ Member.progressAt began flight ≤ contest.now ∨
      record.cutOff = true ∧ contest.now < Member.progressAt began flight ∧
        ∃ limit, member.limitAt? began = some limit ∧ limit ≤ contest.now := by
  cases turn with
  | ignored _ _ asks => cases asks
  | called _ _ _ _ _ was between | quit _ _ _ _ _ was between | abandoned _ _ _ _ was between =>
      cases found.symm.trans was
      cases calling.symm.trans between
  | landed =>
      have same := congrArg List.length concluded
      simp [put] at same
  | answered _ _ _ _ _ _ _ _ was calls flies _ arrived =>
      cases found.symm.trans was
      cases calling.symm.trans calls
      cases flying.symm.trans flies
      obtain rfl := (List.cons.inj concluded).1
      exact Or.inl ⟨rfl, arrived⟩
  | cutOff _ _ _ _ _ _ limit was calls flies underWay limited reached =>
      cases found.symm.trans was
      cases calling.symm.trans calls
      cases flying.symm.trans flies
      obtain rfl := (List.cons.inj concluded).1
      exact Or.inr ⟨rfl, underWay, limit, limited, reached⟩

/-! ### Moments of a run -/

def Moves (first : Contest) (id : Nat) (actions : List Action) (instant : Nat)
    (reached next : Contest) : Prop :=
  ∃ done plan rest, actions = done ++ .proceed id plan :: rest ∧ first.run? done = some reached ∧
    reached.act? (.proceed id plan) = some next ∧ reached.now = instant

theorem Moves.onward {instant : Nat} {reached : Contest}
    (moves : first.Moves id actions instant reached next) (more : List Action) :
    first.Moves id (actions ++ more) instant reached next := by
  obtain ⟨done, plan, rest, rfl, moves⟩ := moves
  refine ⟨done, plan, rest ++ more, ?_, moves⟩
  rw [List.append_assoc, List.cons_append]

theorem Turn.moves (turn : Turn contest (.proceed id plan) next)
    (ran : first.run? actions = some contest) :
    first.Moves id (actions ++ [.proceed id plan]) contest.now contest next :=
  ⟨actions, plan, [], rfl, ran, turn.act?_of_proceed, rfl⟩

/-! ### The passage of a call -/

/-- The call reaches the bucket when its plan says so, and this is what the bucket then answers. -/
def Arrives (first : Contest) (id : Nat) (member : Member) (stage : Stage) (plan : Plan)
    (actions : List Action) (answer : Except StoreError Entry) : Prop :=
  ∃ reached next, first.Moves id actions (first.now + plan.before) reached next ∧
    answer = (stage.call.perform member.candidate.candidacy (reached.bucket.struckBy plan.fault)
      reached.now).1

def Takes (first : Contest) (id : Nat) (stage : Stage) (plan : Plan) (actions : List Action)
    (answer : Except StoreError Entry) : Prop :=
  ∃ reached next waiting, first.Moves id actions (first.now + plan.before + plan.after) reached next ∧
    reached.members[id]? = some waiting ∧
    next.members[id]? = some { waiting with
      candidate := waiting.candidate.settle reached.now stage answer
      flight := none } ∧
    next.calls = ⟨id, stage.call, first.now, reached.now, some (first.now + plan.before, answer),
      false⟩ :: reached.calls

/-- The call is cut off at its limit, and the election ends with that as its last word. -/
def Cuts (first : Contest) (id : Nat) (member : Member) (stage : Stage) (limitMs : Nat)
    (actions : List Action) (later : Member) : Prop :=
  ∃ reached next waiting landed?,
    first.Moves id actions (first.now + Duration.ofMillis limitMs) reached next ∧
    reached.members[id]? = some waiting ∧
    waiting.candidate.reports = member.candidate.reports ∧
    next.calls = ⟨id, stage.call, first.now, reached.now, landed?, true⟩ :: reached.calls ∧
    later.candidate.reports = member.candidate.reports ++
      (if waiting.candidate.listening then some (.error (.timeout limitMs)) else none).toList

inductive Passage (first : Contest) (id : Nat) (member : Member) (stage : Stage) (plan : Plan)
    (limitMs : Nat) (actions : List Action) (contest : Contest) (later : Member) : Prop
  | aloft (calling : later.candidate.task = .calling stage first.now)
      (flying : later.flight = some { plan })
      (issued : contest.issued id later = first.issued id member)
      (reports : later.candidate.reports = member.candidate.reports)
      (unwritten : first.deedsOf id actions = [])
      (early : contest.now ≤ first.now + plan.before)
      (patient : contest.now ≤ first.now + Duration.ofMillis limitMs)
  | landed (answer : Except StoreError Entry)
      (calling : later.candidate.task = .calling stage first.now)
      (flying : later.flight = some ⟨plan, some (first.now + plan.before, answer)⟩)
      (issued : contest.issued id later = first.issued id member)
      (reports : later.candidate.reports = member.candidate.reports)
      (lands : first.Arrives id member stage plan actions answer)
      (early : contest.now ≤ first.now + plan.before + plan.after)
      (patient : contest.now ≤ first.now + Duration.ofMillis limitMs)
  | answered (answer : Except StoreError Entry)
      (inTime : plan.before + plan.after ≤ Duration.ofMillis limitMs)
      (lands : first.Arrives id member stage plan actions answer)
      (takes : first.Takes id stage plan actions answer)
  | cutOff (late : Duration.ofMillis limitMs < plan.before + plan.after)
      (cuts : first.Cuts id member stage limitMs actions later)
      (ended : later.candidate.task = .ended)
      (issued : contest.issued id later = first.issued id member)

theorem Arrives.onward (lands : first.Arrives id member stage plan actions answer)
    (more : List Action) : first.Arrives id member stage plan (actions ++ more) answer := by
  obtain ⟨reached, next, moves, same⟩ := lands
  exact ⟨reached, next, moves.onward more, same⟩

theorem Takes.onward (takes : first.Takes id stage plan actions answer) (more : List Action) :
    first.Takes id stage plan (actions ++ more) answer := by
  obtain ⟨reached, next, waiting, moves, same⟩ := takes
  exact ⟨reached, next, waiting, moves.onward more, same⟩

theorem Cuts.onward {going : Member} (cuts : first.Cuts id member stage limitMs actions later)
    (more : List Action) (silent : going.candidate.reports = later.candidate.reports) :
    first.Cuts id member stage limitMs (actions ++ more) going := by
  obtain ⟨reached, next, waiting, landed?, moves, there, before, calls, reports⟩ := cuts
  exact ⟨reached, next, waiting, landed?, moves.onward more, there, before, calls,
    silent.trans reports⟩

theorem limitAt?_of_limited (terms : later.candidate.candidacy = member.candidate.candidacy)
    (limited : member.candidate.candidacy.callLimitMs = some limitMs) (began : Nat) :
    later.limitAt? began = some (began + Duration.ofMillis limitMs) := by
  simp only [Member.limitAt?, Candidacy.callLimit?, terms, limited, Option.map_some]

/-- A call that is not answered by its limit is the last one. -/
theorem Turn.cuts {going : Member} {landed? : Option (Nat × Except StoreError Entry)}
    (turn : Turn contest (.proceed id plan) next) (ran : first.run? actions = some contest)
    (found : contest.members[id]? = some later)
    (calling : later.candidate.task = .calling stage first.now) (flying : later.flight = some flight)
    (terms : later.candidate.candidacy = member.candidate.candidacy)
    (limited : member.candidate.candidacy.callLimitMs = some limitMs)
    (reports : later.candidate.reports = member.candidate.reports)
    (patient : contest.now ≤ first.now + Duration.ofMillis limitMs)
    (calls : next.calls = ⟨id, stage.call, first.now, contest.now, landed?, true⟩ :: contest.calls)
    (there : next.members[id]? = some going) :
    first.now + Duration.ofMillis limitMs < Member.progressAt first.now flight ∧
      first.Cuts id member stage limitMs (actions ++ [.proceed id plan]) going ∧
      going.candidate.task = .ended ∧ next.issued id going = contest.issued id later := by
  rcases turn.concluded found calling flying calls with
    ⟨never, _⟩ | ⟨_, underWay, limit, expires, reached⟩
  · cases never
  rw [limitAt?_of_limited terms limited] at expires
  cases expires
  have now : contest.now = first.now + Duration.ofMillis limitMs := Nat.le_antisymm patient reached
  have named : later.limitMs = limitMs := by
    simp only [Member.limitMs, terms, limited, Option.getD_some]
  have ended := turn.cutOff_eq found calling flying underWay
  rw [named, Candidate.settle_timeout] at ended
  obtain rfl := Option.some.inj (ended.symm.trans there)
  refine ⟨now ▸ underWay, ?_, rfl, issued_of_over calling rfl rfl calls rfl⟩
  refine ⟨contest, next, later, landed?, now ▸ turn.moves ran, found, reports, calls, ?_⟩
  rw [Candidate.reports_finish, reports]

namespace Passage

/-- On its way to the bucket a call goes on at the end of its first delay, if the limit does not come
before that. -/
theorem of_aloft (ran : first.run? actions = some contest)
    (found : contest.members[id]? = some later)
    (terms : later.candidate.candidacy = member.candidate.candidacy)
    (limited : member.candidate.candidacy.callLimitMs = some limitMs)
    (calling : later.candidate.task = .calling stage first.now)
    (flying : later.flight = some { plan })
    (issued : contest.issued id later = first.issued id member)
    (reports : later.candidate.reports = member.candidate.reports)
    (unwritten : first.deedsOf id actions = [])
    (early : contest.now ≤ first.now + plan.before)
    (patient : contest.now ≤ first.now + Duration.ofMillis limitMs)
    (turn : Turn contest action next) {going : Member} (there : next.members[id]? = some going)
    (step : MemberStep contest id later action next going) :
    first.Passage id member stage plan limitMs (actions ++ [action]) next going := by
  cases step with
  | kept _ _ _ elsewhere task _ told flight clock calls =>
      refine .aloft (task.trans calling) (flight.trans flying) ?_ (told.trans reports)
        ((deedsOf_concat_of_elsewhere ran elsewhere).trans unwritten) (clock ▸ early)
        (clock ▸ patient)
      have underWay : going.underWay? = later.underWay? := by simp only [Member.underWay?, task]
      exact (issued_of_same calls underWay).trans issued
  | started _ task | called _ _ _ task | left _ _ _ _ task =>
      cases calling.symm.trans task
  | landed other current began flight reply bucket _ calls flies _ arrived performed =>
      cases calling.symm.trans calls
      cases flying.symm.trans flies
      -- The clock has not gone past the end of the delay, and the call goes on only from there.
      have now : contest.now = first.now + plan.before := Nat.le_antisymm early arrived
      refine .landed _ calling (by rw [now]) ?_ reports ?_ ?_ patient
      · exact (issued_of_same rfl rfl).trans issued
      · refine ⟨contest, _, now ▸ turn.moves ran, ?_⟩
        rw [← terms, Call.perform_eq, performed.perform_eq]
      · exact Nat.le_trans early (Nat.le_add_right _ _)
  | answered _ _ _ _ _ _ _ flies landed =>
      cases flying.symm.trans flies
      cases landed
  | cutOff other current began flight cause calls flies underWay =>
      cases calling.symm.trans calls
      cases flying.symm.trans flies
      obtain ⟨late, cuts, ended, last⟩ :=
        turn.cuts ran found calling flying terms limited reports patient rfl there
      simp only [Member.progressAt] at late
      exact .cutOff (by omega) cuts ended (last.trans issued)
  | passed instant _ _ awake =>
      obtain ⟨before, limit⟩ := le_of_passed awake found calling flying
      have still : first.deedsOf id (actions ++ [.passTo instant]) = first.deedsOf id actions :=
        deedsOf_concat_of_elsewhere ran fun _ => Action.noConfusion
      refine .aloft calling flying issued reports (still.trans unwritten) before ?_
      exact limit _ (limitAt?_of_limited terms limited first.now)

/-- On its way back a call goes on at the end of its second delay, if the limit does not come before
that. -/
theorem of_landed (ran : first.run? actions = some contest)
    (found : contest.members[id]? = some later)
    (terms : later.candidate.candidacy = member.candidate.candidacy)
    (limited : member.candidate.candidacy.callLimitMs = some limitMs)
    (calling : later.candidate.task = .calling stage first.now)
    (flying : later.flight = some ⟨plan, some (first.now + plan.before, answer)⟩)
    (issued : contest.issued id later = first.issued id member)
    (reports : later.candidate.reports = member.candidate.reports)
    (lands : first.Arrives id member stage plan actions answer)
    (early : contest.now ≤ first.now + plan.before + plan.after)
    (patient : contest.now ≤ first.now + Duration.ofMillis limitMs)
    (turn : Turn contest action next) {going : Member} (there : next.members[id]? = some going)
    (step : MemberStep contest id later action next going) :
    first.Passage id member stage plan limitMs (actions ++ [action]) next going := by
  cases step with
  | kept _ _ _ _ task _ told flight clock calls =>
      refine .landed answer (task.trans calling) (flight.trans flying) ?_ (told.trans reports)
        (lands.onward _) (clock ▸ early) (clock ▸ patient)
      have underWay : going.underWay? = later.underWay? := by simp only [Member.underWay?, task]
      exact (issued_of_same calls underWay).trans issued
  | started _ task | called _ _ _ task | left _ _ _ _ task =>
      cases calling.symm.trans task
  | landed _ _ _ _ _ _ _ _ flies aloft =>
      cases flying.symm.trans flies
      cases aloft
  | answered other current began flight landedAt reply calls flies landed =>
      cases calling.symm.trans calls
      cases flying.symm.trans flies
      cases landed
      rcases turn.concluded found calling flying rfl with ⟨_, arrived⟩ | ⟨never, _⟩
      · have now : contest.now = first.now + plan.before + plan.after :=
          Nat.le_antisymm early arrived
        refine .answered answer (by omega) (lands.onward _) ?_
        exact ⟨contest, _, later, now ▸ turn.moves ran, found, there, rfl⟩
      · cases never
  | cutOff other current began flight cause calls flies underWay =>
      cases calling.symm.trans calls
      cases flying.symm.trans flies
      obtain ⟨late, cuts, ended, last⟩ :=
        turn.cuts ran found calling flying terms limited reports patient rfl there
      simp only [Member.progressAt] at late
      exact .cutOff (by omega) cuts ended (last.trans issued)
  | passed instant _ _ awake =>
      obtain ⟨before, limit⟩ := le_of_passed awake found calling flying
      refine .landed answer calling flying issued reports (lands.onward _) before ?_
      exact limit _ (limitAt?_of_limited terms limited first.now)

theorem turn (passage : first.Passage id member stage plan limitMs actions contest later)
    (ran : first.run? actions = some contest) (found : contest.members[id]? = some later)
    (terms : later.candidate.candidacy = member.candidate.candidacy)
    (limited : member.candidate.candidacy.callLimitMs = some limitMs)
    (turn : Turn contest action next) :
    ∃ going, next.members[id]? = some going ∧
      going.candidate.candidacy = member.candidate.candidacy ∧
      first.Passage id member stage plan limitMs (actions ++ [action]) next going := by
  obtain ⟨going, there, step⟩ := turn.memberStep found
  refine ⟨going, there, step.candidacy_eq.trans terms, ?_⟩
  cases passage with
  | aloft calling flying issued reports unwritten early patient =>
      exact of_aloft ran found terms limited calling flying issued reports unwritten early patient
        turn there step
  | landed answer calling flying issued reports lands early patient =>
      exact of_landed ran found terms limited calling flying issued reports lands early patient turn
        there step
  | answered answer inTime lands takes =>
      exact .answered answer inTime (lands.onward _) (takes.onward _)
  | cutOff late cuts ended issued =>
      refine .cutOff late (cuts.onward _ (step.reports_of_ended ended)) (step.ended ended) ?_
      exact (step.issued_of_idle (Or.inr ended)).trans issued

end Passage

/-- Every call that begins passes like this. -/
theorem passage_of_run (found : first.members[id]? = some member)
    (calling : member.candidate.task = .calling stage first.now)
    (flying : member.flight = some { plan })
    (limited : member.candidate.candidacy.callLimitMs = some limitMs)
    (run : first.run? actions = some contest) :
    ∃ later, contest.members[id]? = some later ∧
      later.candidate.candidacy = member.candidate.candidacy ∧
      first.Passage id member stage plan limitMs actions contest later := by
  refine run_induction (motive := fun actions contest => ∃ later,
    contest.members[id]? = some later ∧
      later.candidate.candidacy = member.candidate.candidacy ∧
      first.Passage id member stage plan limitMs actions contest later) ?_ ?_ actions contest run
  · exact ⟨member, found, rfl, .aloft calling flying rfl rfl rfl (Nat.le_add_right _ _)
      (Nat.le_add_right _ _)⟩
  · intro actions contest action next ran ih turn
    obtain ⟨later, found, terms, passage⟩ := ih
    exact passage.turn ran found terms limited turn

end Contest

end Leasehold
