import Leasehold.Proofs.Runs
import Leasehold.Proofs.Scaling.Events

set_option autoImplicit false

/-!
The career of a replica: which elections it has entered, and what has become of each.

A replica enters one election after another, never a new one before the last is over. Only it asks
its election for anything, so that an election ends by request only after the context of the replica
has been cancelled. `Fleet.Doing` says, for each thing that a replica can be doing, what that tells of
its elections. `Fleet.ReplicaEffect` is what one replica sees of an event of its fleet.
-/

namespace Leasehold

namespace Candidate.Coherent

variable {candidate : Candidate} {outcome other : Outcome}

theorem ended_of_terminal (coherent : candidate.Coherent) (told : outcome ∈ candidate.reports)
    (terminal : outcome.isTerminal = true) : candidate.task = .ended := by
  have mild {stage : Stage} (current : candidate.stage? = some stage) : False := by
    have regular := (coherent.running stage current).2.not_terminal told
    rw [terminal] at regular
    cases regular
  cases task : candidate.task with
  | unstarted =>
      rw [coherent.silent task] at told
      cases told
  | between stage => exact (mild (stage?_of_between task)).elim
  | calling stage began => exact (mild (stage?_of_calling task)).elim
  | ended => rfl

/-- An election has one ending at most. -/
theorem terminal_unique (coherent : candidate.Coherent) (told : outcome ∈ candidate.reports)
    (terminal : outcome.isTerminal = true) (also : other ∈ candidate.reports)
    (final : other.isTerminal = true) : outcome = other := by
  obtain ⟨changes, ending?, whole, regular, _⟩ := coherent.grammar
  have last {ending : Outcome} (sent : ending ∈ candidate.reports)
      (ends : ending.isTerminal = true) : ending ∈ ending? := by
    rw [whole] at sent
    rcases List.mem_append.mp sent with early | late
    · have mild := regular.not_terminal early
      rw [ends] at mild
      cases mild
    · exact Option.mem_toList.mp late
  exact Option.some.inj ((last told terminal).symm.trans (last also final))

/-- Who is heard to the end says how it ended. -/
theorem terminal_of_closed (coherent : candidate.Coherent) (closed : candidate.closed = true)
    (listening : candidate.listening = true) :
    ∃ ending ∈ candidate.reports, ending.isTerminal = true := by
  obtain ⟨ending, last, terminal⟩ := (coherent.closed_iff fun _ => listening).mp closed
  exact ⟨ending, List.mem_of_getLast? last, terminal⟩

end Candidate.Coherent

theorem Candidate.closed_of_ended {candidate : Candidate} (ended : candidate.task = .ended) :
    candidate.closed = true := by
  rw [Candidate.closed, ended]
  rfl

/-- Whether terms are accepted depends on the key and on the name only in that both must be there. -/
theorem Candidacy.accept_renamed {candidacy : Candidacy} {terms : BucketTerms} {key other : String}
    {candidate rival : CandidateName} (keyed : key = "" ↔ other = "")
    (named : candidate.text = "" ↔ rival.text = "") :
    Candidacy.accept { candidacy with key, candidate } terms =
      Candidacy.accept { candidacy with key := other, candidate := rival } terms := by
  have same (ttl : Nat) : Candidacy.objection? { candidacy with key, candidate } ttl =
      Candidacy.objection? { candidacy with key := other, candidate := rival } ttl := by
    simp only [objection?, keyed, named]
    rfl
  simp only [accept, validate, same]

theorem Replica.term?_of_watching {replica : Replica} {term : Term}
    (watching : replica.activity = .watching term) : replica.term? = some term := by
  rw [Replica.term?, watching]

theorem Replica.term?_of_reconciling {replica : Replica} {term : Term} {doneAt : Nat}
    (reconciling : replica.activity = .reconciling term doneAt) : replica.term? = some term := by
  rw [Replica.term?, reconciling]

namespace Contest

variable {contest after : Contest} {asked : Option Nat} {assignment : Assignment} {term : Term}
  {member : Member} {id : Nat} {elections : List Nat} {activity : Activity} {context : String}

def Over (contest : Contest) (id : Nat) : Prop :=
  ∃ member, contest.members[id]? = some member ∧ member.candidate.task = .ended

def Entered (contest : Contest) (context : String) (id : Nat) : Prop :=
  ∃ member, contest.members[id]? = some member ∧ member.candidate.task ≠ .unstarted ∧
    member.context = context

theorem Onward.kept_over (onward : contest.Onward asked after) (finished : contest.Over id) :
    after.Over id := by
  obtain ⟨member, found, ended⟩ := finished
  obtain ⟨later, there, still, _⟩ := onward.finished id member found ended
  exact ⟨later, there, still⟩

theorem Onward.kept_entered (onward : contest.Onward asked after)
    (entered : contest.Entered context id) : after.Entered context id := by
  obtain ⟨member, found, begun, same⟩ := entered
  obtain ⟨later, there, stays⟩ := onward.stays id member found begun
  exact ⟨later, there, stays.begun, stays.context.trans same⟩

structure Engaged (contest : Contest) (assignment : Assignment) (term : Term) (member : Member) :
    Prop where
  seated : contest.members[term.member]? = some member
  listening : member.candidate.listening = true
  asked : member.candidate.stopRequested = true → contest.isCancelled assignment.context = true
  interrupted : .stopped ∈ member.candidate.reports ∨ .cancelled ∈ member.candidate.reports →
    contest.isCancelled assignment.context = true
  behind : term.heard ≤ member.candidate.reports.length
  mild : ∀ outcome ∈ member.candidate.reports.take term.heard, outcome.isTerminal = false

theorem Engaged.onward (engaged : contest.Engaged assignment term member)
    (onward : contest.Onward asked after) (entered : contest.Entered assignment.context term.member)
    (untouched : asked ≠ some term.member) :
    ∃ later, after.Engaged assignment term later := by
  obtain ⟨same, again, begun, context⟩ := entered
  obtain rfl := Option.some.inj (engaged.seated.symm.trans again)
  obtain ⟨later, there, drifts⟩ := onward.drifts term.member member engaged.seated begun untouched
  rw [context] at drifts
  obtain ⟨extra, reports, stopped, cancelled⟩ := drifts.told
  refine ⟨later, there, drifts.listening.trans engaged.listening, ?_, ?_, ?_, ?_⟩
  · intro stop
    rw [drifts.stop] at stop
    exact onward.gone _ (engaged.asked stop)
  · rw [reports]
    rintro (told | told)
    · rcases List.mem_append.mp told with early | late
      · exact onward.gone _ (engaged.interrupted (Or.inl early))
      · exact onward.gone _ (engaged.asked (stopped late))
    · rcases List.mem_append.mp told with early | late
      · exact onward.gone _ (engaged.interrupted (Or.inr early))
      · exact cancelled late
  · rw [reports, List.length_append]
    exact Nat.le_trans engaged.behind (Nat.le_add_right _ _)
  · rw [reports, List.take_append_of_le_length engaged.behind]
    exact engaged.mild

theorem Engaged.hear {outcome : Outcome} {leading : Bool} {ticker : Ticker}
    (engaged : contest.Engaged assignment term member)
    (report : member.candidate.reports[term.heard]? = some outcome)
    (mild : outcome.isTerminal = false) :
    contest.Engaged assignment { term with heard := term.heard + 1, leading, ticker } member where
  seated := engaged.seated
  listening := engaged.listening
  asked := engaged.asked
  interrupted := engaged.interrupted
  behind := (List.getElem?_eq_some_iff.mp report).1
  mild := by
    intro told present
    rw [List.take_add_one, report] at present
    rcases List.mem_append.mp present with early | last
    · exact engaged.mild told early
    · rw [List.mem_singleton.mp last]
      exact mild

theorem Engaged.stop {stopping : Bool} (engaged : contest.Engaged assignment term member)
    (gone : contest.isCancelled assignment.context = true) :
    (contest.stop term.member).Engaged assignment { term with stopping }
      { member with candidate := member.candidate.stop } where
  seated := found_stop engaged.seated
  listening := engaged.listening
  asked := fun _ => gone
  interrupted := engaged.interrupted
  behind := engaged.behind
  mild := engaged.mild

theorem engaged_seat (contest : Contest) (assignment : Assignment) (candidacy : Candidacy)
    (ticker : Ticker) : (contest.seat candidacy assignment.context).Engaged assignment
      { member := contest.members.length, ticker }
      { candidate := Candidate.start { candidacy }, context := assignment.context } where
  seated := contest.found_seat candidacy assignment.context
  listening := rfl
  asked := fun never => (nomatch never)
  interrupted := fun either => either.elim (fun never => (nomatch never)) fun never => (nomatch never)
  behind := Nat.zero_le _
  mild := fun _ never => (nomatch never)

/-- What a replica is doing, and what that tells of the elections it has entered. -/
inductive Doing (contest : Contest) (assignment : Assignment) (elections : List Nat) :
    Activity → Prop
  | joining (finished : ∀ past ∈ elections, contest.Over past)
      (again : elections ≠ [] → assignment.settings.recreateOnError = true) :
      Doing contest assignment elections .joining
  | engaged (activity : Activity) (former : List Nat) (term : Term) (member : Member)
      (current : Replica.term? ⟨assignment, activity⟩ = some term)
      (whole : elections = former ++ [term.member]) (finished : ∀ past ∈ former, contest.Over past)
      (engaged : contest.Engaged assignment term member) : Doing contest assignment elections activity
  | backingOff (resumeAt : Nat) (finished : ∀ past ∈ elections, contest.Over past)
      (some : elections ≠ []) (again : assignment.settings.recreateOnError = true) :
      Doing contest assignment elections (.backingOff resumeAt)
  | returned (former : List Nat) (last : Nat) (member : Member) (outcome : Outcome)
      (whole : elections = former ++ [last]) (finished : ∀ past ∈ elections, contest.Over past)
      (seated : contest.members[last]? = some member) (told : outcome ∈ member.candidate.reports)
      (farewell : outcome = .stopped ∨ outcome = .cancelled)
      (gone : contest.isCancelled assignment.context = true) :
      Doing contest assignment elections (.done (.ok outcome.status))
  | gaveUp (finished : ∀ past ∈ elections, contest.Over past)
      (again : assignment.settings.recreateOnError = true)
      (gone : contest.isCancelled assignment.context = true) :
      Doing contest assignment elections (.done (.ok .cancelled))
  | refused (candidate : CandidateName) (cause : ElectionError) (none : elections = [])
      (named : candidate.text ≠ "")
      (refused : (assignment.standing candidate).accept contest.bucket.terms = .error cause) :
      Doing contest assignment elections (.done (.error ⟨assignment.function, cause⟩))
  | failed (last : Nat) (member : Member) (cause : StoreError) (whole : elections = [last])
      (final : assignment.settings.recreateOnError = false)
      (seated : contest.members[last]? = some member) (ended : member.candidate.task = .ended)
      (told : .error cause ∈ member.candidate.reports) :
      Doing contest assignment elections (.done (.error ⟨assignment.function, .store cause⟩))
  | broken (activity : Activity) (either : activity = .crashed ∨ activity = .aborted)
      (finished : ∀ past ∈ elections.dropLast, contest.Over past) :
      Doing contest assignment elections activity

theorem Doing.onward (doing : contest.Doing assignment elections activity)
    (onward : contest.Onward asked after)
    (entered : ∀ id ∈ elections, contest.Entered assignment.context id)
    (untouched : ∀ term, Replica.term? ⟨assignment, activity⟩ = some term →
      asked ≠ some term.member) :
    after.Doing assignment elections activity := by
  have kept {past : Nat} (finished : contest.Over past) : after.Over past := onward.kept_over finished
  cases doing with
  | joining finished again => exact .joining (fun past present => kept (finished past present)) again
  | engaged _ former term member current whole finished engaged =>
      have own : contest.Entered assignment.context term.member := by
        apply entered
        rw [whole]
        exact List.mem_concat_self
      obtain ⟨later, still⟩ := engaged.onward onward own (untouched term current)
      exact .engaged _ former term later current whole (fun past present => kept (finished past present))
        still
  | backingOff resumeAt finished some again =>
      exact .backingOff resumeAt (fun past present => kept (finished past present)) some again
  | returned former last member outcome whole finished seated told farewell gone =>
      obtain ⟨same, again, ended⟩ := finished last (by rw [whole]; exact List.mem_concat_self)
      obtain rfl := Option.some.inj (seated.symm.trans again)
      obtain ⟨later, there, _, reports⟩ := onward.finished last member seated ended
      exact .returned former last later outcome whole (fun past present => kept (finished past present))
        there (by rw [reports]; exact told) farewell (onward.gone _ gone)
  | gaveUp finished again gone =>
      exact .gaveUp (fun past present => kept (finished past present)) again (onward.gone _ gone)
  | refused candidate cause none named refused =>
      exact .refused candidate cause none named (by rw [onward.terms]; exact refused)
  | failed last member cause whole final seated ended told =>
      obtain ⟨later, there, still, reports⟩ := onward.finished last member seated ended
      exact .failed last later cause whole final there still (by rw [reports]; exact told)
  | broken _ either finished => exact .broken _ either fun past present => kept (finished past present)

theorem Doing.engagement (doing : contest.Doing assignment elections activity)
    (current : Replica.term? ⟨assignment, activity⟩ = some term) :
    ∃ former member, elections = former ++ [term.member] ∧ (∀ past ∈ former, contest.Over past) ∧
      contest.Engaged assignment term member := by
  cases doing with
  | engaged _ former own member same whole finished engaged =>
      cases same.symm.trans current
      exact ⟨former, member, whole, finished, engaged⟩
  | broken _ either =>
      rcases either with rfl | rfl
      · cases current
      · cases current
  | _ => cases current

/-- All elections of a replica but the last are over. -/
theorem Doing.over_of_dropLast (doing : contest.Doing assignment elections activity) :
    ∀ past ∈ elections.dropLast, contest.Over past := by
  intro past present
  cases doing with
  | joining finished | backingOff _ finished | returned _ _ _ _ _ finished | gaveUp finished =>
      exact finished past (List.dropLast_subset _ present)
  | engaged _ former term _ _ whole finished =>
      rw [whole, List.dropLast_concat] at present
      exact finished past present
  | refused _ _ none =>
      rw [none] at present
      cases present
  | failed last _ _ whole =>
      rw [whole] at present
      cases present
  | broken _ _ finished => exact finished past present

structure Career (contest : Contest) (replica : Replica) (elections : List Nat) : Prop where
  entered : ∀ id ∈ elections, contest.Entered replica.assignment.context id
  once : replica.assignment.settings.recreateOnError = false → elections.length ≤ 1
  accepted : elections ≠ [] → ∀ candidate : CandidateName, candidate.text ≠ "" →
    (replica.assignment.standing candidate).accept contest.bucket.terms = .ok ()
  doing : contest.Doing replica.assignment elections replica.activity

namespace Career

variable {replica : Replica} {candidate : CandidateName}

/-- A replica goes on with something else, but not in a new election. -/
theorem proceed (career : contest.Career replica elections) (onward : contest.Onward asked after)
    (doing : after.Doing replica.assignment elections activity) :
    after.Career { replica with activity } elections where
  entered := fun id present => onward.kept_entered (career.entered id present)
  once := career.once
  accepted := by
    intro some candidate named
    rw [onward.terms]
    exact career.accepted some candidate named
  doing := doing

theorem onward (career : contest.Career replica elections) (onward : contest.Onward asked after)
    (untouched : ∀ term, replica.term? = some term → asked ≠ some term.member) :
    after.Career replica elections :=
  career.proceed onward (career.doing.onward onward career.entered untouched)

/-- A replica enters a new election. -/
theorem enter {joined : Contest} (career : contest.Career replica elections)
    (again : elections ≠ [] → replica.assignment.settings.recreateOnError = true)
    (accepted : (replica.assignment.standing candidate).accept contest.bucket.terms = .ok ())
    (named : candidate.text ≠ "")
    (seats : joined = contest.seat (replica.assignment.standing candidate)
      replica.assignment.context)
    (onward : joined.Onward asked after)
    (doing : after.Doing replica.assignment (elections ++ [contest.members.length]) activity) :
    after.Career { replica with activity } (elections ++ [contest.members.length]) := by
  subst seats
  have first := contest.onward_seat replica.assignment.context accepted
  refine ⟨?_, ?_, ?_, doing⟩
  · intro id present
    rcases List.mem_append.mp present with old | new
    · exact onward.kept_entered (first.kept_entered (career.entered id old))
    · obtain rfl := List.mem_singleton.mp new
      exact onward.kept_entered ⟨_, contest.found_seat _ _, Task.noConfusion, rfl⟩
  · intro final
    cases elections with
    | nil => exact Nat.le_refl 1
    | cons last former =>
        have recreates := again (List.cons_ne_nil last former)
        cases final.symm.trans recreates
  · intro _ other likewise
    rw [onward.terms, first.terms]
    exact (Candidacy.accept_renamed Iff.rfl (iff_of_false likewise named)).trans accepted

theorem joining (career : contest.Career replica elections)
    (joining : replica.activity = .joining) : (∀ past ∈ elections, contest.Over past) ∧
      (elections ≠ [] → replica.assignment.settings.recreateOnError = true) := by
  have doing := career.doing
  rw [joining] at doing
  cases doing with
  | joining finished again => exact ⟨finished, again⟩
  | engaged _ _ _ _ current => cases current
  | broken _ either => rcases either with never | never <;> cases never

theorem backingOff {resumeAt : Nat} (career : contest.Career replica elections)
    (waiting : replica.activity = .backingOff resumeAt) :
    (∀ past ∈ elections, contest.Over past) ∧ elections ≠ [] ∧
      replica.assignment.settings.recreateOnError = true := by
  have doing := career.doing
  rw [waiting] at doing
  cases doing with
  | backingOff _ finished some again => exact ⟨finished, some, again⟩
  | engaged _ _ _ _ current => cases current
  | broken _ either => rcases either with never | never <;> cases never

/-- Once its election has said how it ended, all elections of a replica are over. -/
theorem over_of_terminal {outcome : Outcome} (career : contest.Career replica elections)
    (coherent : ∀ member ∈ contest.members, member.candidate.Coherent)
    (current : replica.term? = some term) (seated : contest.members[term.member]? = some member)
    (told : outcome ∈ member.candidate.reports) (terminal : outcome.isTerminal = true) :
    member.candidate.task = .ended ∧ ∃ former, elections = former ++ [term.member] ∧
      ∀ past ∈ elections, contest.Over past := by
  have ended := (coherent member (List.mem_of_getElem? seated)).ended_of_terminal told terminal
  obtain ⟨former, _, whole, finished, _⟩ := career.doing.engagement current
  refine ⟨ended, former, whole, ?_⟩
  intro past present
  rw [whole] at present
  rcases List.mem_append.mp present with old | last
  · exact finished past old
  · rw [List.mem_singleton.mp last]
    exact ⟨member, seated, ended⟩

/-- A replica goes on with its election and knows something else of it. -/
theorem goOn {later : Term} {rival : Member} (career : contest.Career replica elections)
    (current : replica.term? = some term) (onward : contest.Onward asked after)
    (next : Replica.term? ⟨replica.assignment, activity⟩ = some later)
    (same : later.member = term.member)
    (engaged : after.Engaged replica.assignment later rival) :
    after.Doing replica.assignment elections activity := by
  obtain ⟨former, _, whole, finished, _⟩ := career.doing.engagement current
  rw [← same] at whole
  exact .engaged activity former later rival next whole
    (fun past present => onward.kept_over (finished past present)) engaged

/-- A replica leaves its election because of what it has heard of its end. -/
theorem conclude {outcome : Outcome} (career : contest.Career replica elections)
    (coherent : ∀ member ∈ contest.members, member.candidate.Coherent)
    (current : replica.term? = some term) (seated : contest.members[term.member]? = some member)
    (told : outcome ∈ member.candidate.reports) (terminal : outcome.isTerminal = true)
    (final : ∀ cause, outcome = .error cause →
      replica.assignment.settings.recreateOnError = false) :
    (contest.leave term.member).Doing replica.assignment elections
      (.done (replica.assignment.verdict outcome)) := by
  obtain ⟨ended, former, whole, finished⟩ :=
    career.over_of_terminal coherent current seated told terminal
  have onward := contest.onward_leave term.member
  obtain ⟨later, there, still, reports⟩ := onward.finished term.member member seated ended
  obtain ⟨_, same, _, _, engaged⟩ := career.doing.engagement current
  obtain rfl := Option.some.inj (seated.symm.trans engaged.seated)
  have farewell (mild : outcome = .stopped ∨ outcome = .cancelled)
      (gone : contest.isCancelled replica.assignment.context = true) :
      (contest.leave term.member).Doing replica.assignment elections (.done (.ok outcome.status)) :=
    .returned former term.member later outcome whole
      (fun past present => onward.kept_over (finished past present)) there
      (by rw [reports]; exact told) mild gone
  cases outcome with
  | won | lost => cases terminal
  | error cause =>
      have single := career.once (final cause rfl)
      rw [whole, List.length_append] at single
      obtain rfl := List.length_eq_zero_iff.mp (Nat.le_zero.mp (Nat.le_of_succ_le_succ single))
      exact .failed term.member later cause whole (final cause rfl) there still
        (by rw [reports]; exact told)
  | stopped => exact farewell (Or.inl rfl) (engaged.interrupted (Or.inl told))
  | cancelled => exact farewell (Or.inr rfl) (engaged.interrupted (Or.inr told))

end Career

end Contest

namespace Fleet

variable {fleet next first : Fleet} {event : FleetEvent} {id other : Nat}
  {replica after : Replica} {branch : Branch} {candidate : CandidateName} {activity : Activity}
  {contest : Contest} {terms : BucketTerms} {events done : List FleetEvent}

/-! ### What one replica sees of an event -/

def reconcilesOf (fleet : Fleet) (id : Nat) : List ReconcileRecord :=
  fleet.reconciles.filter (·.replica = id)

inductive ReplicaEffect (fleet : Fleet) (id : Nat) (replica : Replica) :
    FleetEvent → Fleet → Replica → Prop
  /-- The replica itself does nothing, and nobody asks its election for anything. -/
  | aside (event : FleetEvent) (next : Fleet) (asked : Option Nat)
      (onward : fleet.contest.Onward asked next.contest)
      (untouched : ∀ term, replica.term? = some term → asked ≠ some term.member)
      (unentered : fleet.entered id event = [])
      (unworked : next.reconcilesOf id = fleet.reconcilesOf id)
      (clock : next.contest.now = fleet.contest.now ∨ fleet.quiet = true ∧
        fleet.contest.now ≤ next.contest.now ∧
        ∀ wake, replica.wakeAt? = some wake → next.contest.now ≤ wake) :
      ReplicaEffect fleet id replica event next replica
  | proceeded (branch : Branch) (candidate : CandidateName) (duration : Nat) (activity : Activity)
      (contest : Contest) (named : branch = .join → candidate.text ≠ "")
      (step : fleet.ReplicaStep replica branch candidate activity contest) :
      ReplicaEffect fleet id replica (.act (.proceed id branch candidate duration))
        (fleet.advance id replica (some branch) activity contest) { replica with activity }
  | broken (asked : Option Nat) (contest : Contest) (going : replica.isOver = false)
      (onward : fleet.contest.Onward asked contest) (clock : contest.now = fleet.contest.now) :
      ReplicaEffect fleet id replica (.act (.abort id)) (fleet.advance id replica none .aborted contest)
        { replica with activity := .aborted }

theorem entered_of_ne {duration : Nat} (apart : other ≠ id) :
    fleet.entered id (.act (.proceed other branch candidate duration)) = [] := by
  cases branch with
  | join => exact if_neg fun both => apart both.1
  | _ => rfl

theorem entered_of_accepted {duration : Nat} (found : fleet.replicas[id]? = some replica)
    (accepted : (replica.assignment.standing candidate).accept fleet.contest.bucket.terms = .ok ()) :
    fleet.entered id (.act (.proceed id .join candidate duration)) =
      [fleet.contest.members.length] := by
  simp only [entered, found, Option.any_some, accepted]
  rfl

theorem entered_of_refused {duration : Nat} {cause : ElectionError}
    (found : fleet.replicas[id]? = some replica)
    (refused : (replica.assignment.standing candidate).accept fleet.contest.bucket.terms =
      .error cause) : fleet.entered id (.act (.proceed id .join candidate duration)) = [] := by
  simp only [entered, found, Option.any_some, refused]
  exact if_neg fun both => by cases both.2

/-- What a step of one replica is for all other elections. -/
theorem ReplicaStep.onward (step : fleet.ReplicaStep replica branch candidate activity contest) :
    ∃ asked, fleet.contest.Onward asked contest ∧ contest.now = fleet.contest.now ∧
      ∀ member, asked = some member → member = fleet.contest.members.length ∨
        ∃ term, replica.term? = some term ∧ term.member = member := by
  have own {term : Term} (watching : replica.activity = .watching term) (member : Nat)
      (same : some term.member = some member) : member = fleet.contest.members.length ∨
        ∃ term, replica.term? = some term ∧ term.member = member :=
    Or.inr ⟨term, by rw [Replica.term?, watching], Option.some.inj same⟩
  cases step with
  | refused | heard | reconciled | resumed | gaveUp | rejoined =>
      exact ⟨none, .refl _ _, rfl, fun _ never => by cases never⟩
  | crashed _ joining accepted =>
      refine ⟨some fleet.contest.members.length,
        (Contest.onward_seat _ accepted).of_unasked.trans (Contest.onward_leave _ _), rfl, ?_⟩
      rintro member ⟨⟩
      exact Or.inl rfl
  | joined _ joining accepted =>
      exact ⟨none, Contest.onward_seat _ accepted, rfl, fun _ never => by cases never⟩
  | failed _ term _ _ watching | ended _ term _ _ watching | unheard _ term _ watching =>
      exact ⟨some term.member, Contest.onward_leave _ _, rfl, own watching⟩
  | heeded _ term watching => exact ⟨some term.member, Contest.onward_stop _ _, rfl, own watching⟩

theorem reconcilesOf_advance_of_ne {branch? : Option Branch} (apart : other ≠ id) :
    (fleet.advance other replica branch? activity contest).reconcilesOf id =
      fleet.reconcilesOf id := by
  simp only [reconcilesOf, advance]
  split
  · exact List.filter_cons_of_neg (by simpa using apart)
  · rfl

structure Careers (fleet : Fleet) (elections : Nat → List Nat) : Prop where
  coherent : ∀ member ∈ fleet.contest.members, member.candidate.Coherent
  seated : fleet.contest.Seated
  apart : ∀ (id other : Nat) (replica rival : Replica) (term claim : Term),
    fleet.replicas[id]? = some replica → fleet.replicas[other]? = some rival →
    replica.term? = some term → rival.term? = some claim → term.member = claim.member → id = other
  unknown : ∀ id, fleet.replicas[id]? = none → elections id = []
  unworked : ∀ id, elections id = [] → fleet.reconcilesOf id = []
  career : ∀ (id : Nat) (replica : Replica), fleet.replicas[id]? = some replica →
    fleet.contest.Career replica (elections id)

theorem found_advance {branch? : Option Branch} (found : fleet.replicas[id]? = some replica) :
    (fleet.advance id replica branch? activity contest).replicas[id]? =
      some { replica with activity } :=
  List.getElem?_set_self (List.getElem?_eq_some_iff.mp found).1

theorem found_advance_of_ne {branch? : Option Branch} (apart : other ≠ id) :
    (fleet.advance other replica branch? activity contest).replicas[id]? = fleet.replicas[id]? :=
  List.getElem?_set_ne apart

theorem Careers.lt_length {elections : Nat → List Nat} {term : Term}
    (careers : fleet.Careers elections) (found : fleet.replicas[id]? = some replica)
    (current : replica.term? = some term) : term.member < fleet.contest.members.length := by
  obtain ⟨_, member, _, _, engaged⟩ := (careers.career id replica found).doing.engagement current
  exact (List.getElem?_eq_some_iff.mp engaged.seated).1

theorem Careers.effect {elections : Nat → List Nat} (careers : fleet.Careers elections)
    (happened : fleet.EventEffect event next) (found : fleet.replicas[id]? = some replica) :
    ∃ after, next.replicas[id]? = some after ∧ fleet.ReplicaEffect id replica event next after := by
  have present := List.mem_of_getElem? found
  cases happened with
  | drifted _ asked contest unentered onward untouched clock =>
      exact ⟨replica, found, .aside _ _ asked onward (untouched replica present) (unentered id) rfl
        (Or.inl clock)⟩
  | passed instant contest quiet later awake onward =>
      exact ⟨replica, found, .aside _ _ none onward (fun _ _ never => (nomatch never)) rfl rfl
        (Or.inr ⟨quiet, later, awake replica present⟩)⟩
  | grown action recruits unentered fresh =>
      refine ⟨replica, ?_, .aside _ _ none (.refl _ _) (fun _ _ never => (nomatch never))
        (unentered id) rfl (Or.inl rfl)⟩
      exact (List.getElem?_append_left (List.getElem?_eq_some_iff.mp found).1).trans found
  | ignored other =>
      exact ⟨replica, found, .aside _ _ none (.refl _ _) (fun _ _ never => (nomatch never)) rfl rfl
        (Or.inl rfl)⟩
  | proceeded other rival branch candidate duration activity contest was named step =>
      by_cases own : other = id
      · subst own
        obtain rfl := Option.some.inj (found.symm.trans was)
        exact ⟨_, found_advance found, .proceeded branch candidate duration activity contest named
          step⟩
      · obtain ⟨asked, onward, clock, whose⟩ := step.onward
        refine ⟨replica, (found_advance_of_ne own).trans found, .aside _ _ asked onward ?_
          (entered_of_ne own) (reconcilesOf_advance_of_ne own) (Or.inl clock)⟩
        rintro term current rfl
        rcases whose term.member rfl with new | ⟨claim, claims, same⟩
        · exact Nat.lt_irrefl _ (new ▸ careers.lt_length found current)
        · exact own (careers.apart other id rival replica claim term was found claims current same)
  | broken other rival asked contest was going onward claimed clock =>
      by_cases own : other = id
      · subst own
        obtain rfl := Option.some.inj (found.symm.trans was)
        exact ⟨_, found_advance found, .broken asked contest going onward clock⟩
      · refine ⟨replica, (found_advance_of_ne own).trans found, .aside _ _ asked onward ?_ rfl
          (reconcilesOf_advance_of_ne own) (Or.inl clock)⟩
        rintro term current rfl
        obtain ⟨claim, claims, same⟩ := claimed term.member rfl
        exact own (careers.apart other id rival replica claim term was found claims current same)

/-! ### What an event adds to a career -/

theorem ReplicaStep.career {elections : List Nat} {duration : Nat}
    (step : fleet.ReplicaStep replica branch candidate activity contest)
    (career : fleet.contest.Career replica elections)
    (coherent : ∀ member ∈ fleet.contest.members, member.candidate.Coherent)
    (found : fleet.replicas[id]? = some replica) (named : branch = .join → candidate.text ≠ "") :
    contest.Career { replica with activity }
      (elections ++ fleet.entered id (.act (.proceed id branch candidate duration))) := by
  have kept {asked : Option Nat}
      (unentered : fleet.entered id (.act (.proceed id branch candidate duration)) = [])
      (onward : fleet.contest.Onward asked contest)
      (doing : contest.Doing replica.assignment elections activity) :
      contest.Career { replica with activity }
        (elections ++ fleet.entered id (.act (.proceed id branch candidate duration))) := by
    rw [unentered, List.append_nil]
    exact career.proceed onward doing
  cases step with
  | refused _ cause joining refused =>
      have none : elections = [] := by
        by_contra some
        cases refused.symm.trans (career.accepted some candidate (named rfl))
      exact kept (entered_of_refused found refused) (.refl _ .none)
        (.refused candidate cause none (named rfl) refused)
  | crashed _ joining accepted still =>
      rw [entered_of_accepted found accepted]
      obtain ⟨finished, again⟩ := career.joining joining
      have onward := Contest.onward_leave (fleet.contest.seat (replica.assignment.standing candidate)
        replica.assignment.context) fleet.contest.members.length
      refine career.enter again accepted (named rfl) rfl onward (.broken .crashed (Or.inl rfl) ?_)
      rw [List.dropLast_concat]
      have first := fleet.contest.onward_seat replica.assignment.context accepted
      exact fun past present => onward.kept_over (first.kept_over (finished past present))
  | joined _ joining accepted paced =>
      rw [entered_of_accepted found accepted]
      obtain ⟨finished, again⟩ := career.joining joining
      have first := fleet.contest.onward_seat replica.assignment.context accepted
      exact career.enter again accepted (named rfl) rfl (.refl _ none)
        (.engaged _ elections _ _ rfl rfl
          (fun past present => first.kept_over (finished past present))
          (fleet.contest.engaged_seat replica.assignment _ _))
  | heard _ term member outcome ticker watching seated report mild =>
      have current := Replica.term?_of_watching watching
      obtain ⟨_, same, _, _, engaged⟩ := career.doing.engagement current
      obtain rfl := Option.some.inj (seated.symm.trans engaged.seated)
      exact kept rfl (.refl _ none)
        (career.goOn current (.refl _ none) rfl rfl (engaged.hear report mild))
  | failed _ term member cause watching seated report again =>
      obtain ⟨_, former, whole, finished⟩ := career.over_of_terminal coherent
        (Replica.term?_of_watching watching) seated (List.mem_of_getElem? report) rfl
      have onward := fleet.contest.onward_leave term.member
      refine kept rfl onward
        (.backingOff _ (fun past present => onward.kept_over (finished past present)) ?_ again)
      rw [whole]
      exact List.concat_ne_nil _ _
  | ended _ term member outcome watching seated report terminal final =>
      exact kept rfl (fleet.contest.onward_leave term.member)
        (career.conclude coherent (Replica.term?_of_watching watching) seated
          (List.mem_of_getElem? report) terminal final)
  | unheard _ term member watching seated all closed =>
      -- an election that is heard to the end says how it ended
      obtain ⟨_, same, _, _, engaged⟩ := career.doing.engagement (Replica.term?_of_watching watching)
      obtain rfl := Option.some.inj (seated.symm.trans engaged.seated)
      obtain ⟨ending, told, terminal⟩ := (coherent member
        (List.mem_of_getElem? seated)).terminal_of_closed closed engaged.listening
      rw [← List.take_of_length_le all] at told
      cases terminal.symm.trans (engaged.mild ending told)
  | heeded _ term watching gone =>
      have current := Replica.term?_of_watching watching
      obtain ⟨_, member, _, _, engaged⟩ := career.doing.engagement current
      have onward := fleet.contest.onward_stop term.member
      exact kept rfl onward (career.goOn current onward rfl rfl (engaged.stop gone))
  | reconciled _ duration term watching leads =>
      have current := Replica.term?_of_watching watching
      obtain ⟨_, member, _, _, engaged⟩ := career.doing.engagement current
      exact kept rfl (.refl _ none) (career.goOn current (.refl _ none) rfl rfl
        ⟨engaged.seated, engaged.listening, engaged.asked, engaged.interrupted, engaged.behind,
          engaged.mild⟩)
  | resumed _ term doneAt reconciling =>
      have current := Replica.term?_of_reconciling reconciling
      obtain ⟨_, member, _, _, engaged⟩ := career.doing.engagement current
      exact kept rfl (.refl _ none) (career.goOn current (.refl _ none) rfl rfl engaged)
  | gaveUp _ resumeAt waiting gone =>
      obtain ⟨finished, _, again⟩ := career.backingOff waiting
      exact kept rfl (.refl _ none) (.gaveUp finished again gone)
  | rejoined _ resumeAt waiting due =>
      obtain ⟨finished, _, again⟩ := career.backingOff waiting
      exact kept rfl (.refl _ none) (.joining finished fun _ => again)

theorem ReplicaEffect.career {elections : List Nat}
    (effect : fleet.ReplicaEffect id replica event next after)
    (career : fleet.contest.Career replica elections)
    (coherent : ∀ member ∈ fleet.contest.members, member.candidate.Coherent)
    (found : fleet.replicas[id]? = some replica) :
    next.contest.Career after (elections ++ fleet.entered id event) := by
  cases effect with
  | aside _ _ asked onward untouched unentered =>
      rw [unentered, List.append_nil]
      exact career.onward onward untouched
  | proceeded branch candidate duration activity contest named step =>
      exact step.career career coherent found named
  | broken asked contest going onward =>
      exact (List.append_nil elections).symm ▸ career.proceed onward (.broken .aborted (Or.inr rfl)
        fun past present => onward.kept_over (career.doing.over_of_dropLast past present))

/-! ### All careers of a fleet -/

def elections (first : Fleet) (id : Nat) (events : List FleetEvent) : List Nat :=
  Runs.collect step? (fun fleet event => fleet.entered id event) first events

theorem elections_concat (ran : first.steps? done = some fleet) (event : FleetEvent) :
    first.elections id (done ++ [event]) = first.elections id done ++ fleet.entered id event :=
  Runs.collect_concat ran event

theorem ReplicaEffect.reconcilesOf (effect : fleet.ReplicaEffect id replica event next after)
    (unengaged : replica.term? = none) : next.reconcilesOf id = fleet.reconcilesOf id := by
  cases effect with
  | aside _ _ _ _ _ _ unworked => exact unworked
  | broken => rfl
  | proceeded branch candidate duration activity contest named step =>
      cases step with
      | reconciled _ _ _ watching =>
          cases unengaged.symm.trans (Replica.term?_of_watching watching)
      | _ => rfl

theorem careers_opening (terms : BucketTerms) : (opening terms).Careers fun _ => [] where
  coherent := fun _ never => (nomatch never)
  seated := fun _ never => (nomatch never)
  apart := fun _ _ _ _ _ _ never => (nomatch never)
  unknown := fun _ _ => rfl
  unworked := fun _ _ => rfl
  career := fun _ _ never => (nomatch never)

theorem EventEffect.onward (happened : fleet.EventEffect event next) :
    ∃ asked, fleet.contest.Onward asked next.contest := by
  cases happened with
  | drifted _ asked _ _ onward | broken _ _ asked _ _ _ onward => exact ⟨asked, onward⟩
  | passed _ _ _ _ _ onward => exact ⟨none, onward⟩
  | grown | ignored => exact ⟨none, .refl _ _⟩
  | proceeded _ _ _ _ _ _ _ _ _ step =>
      obtain ⟨asked, onward, _⟩ := step.onward
      exact ⟨asked, onward⟩

/-- Whoever is not there yet has done nothing and begins by standing for election. -/
theorem EventEffect.newcomer (happened : fleet.EventEffect event next)
    (missing : fleet.replicas[id]? = none) :
    fleet.entered id event = [] ∧ next.reconcilesOf id = fleet.reconcilesOf id ∧
      ∀ after, next.replicas[id]? = some after → after.activity = .joining := by
  have elsewhere {actor : Nat} {replica : Replica} (found : fleet.replicas[actor]? = some replica) :
      actor ≠ id := by
    rintro rfl
    cases found.symm.trans missing
  have absent {after : Replica} (there : fleet.replicas[id]? = some after) :
      after.activity = .joining := by
    cases there.symm.trans missing
  cases happened with
  | drifted _ _ _ unentered => exact ⟨unentered id, rfl, fun _ there => absent there⟩
  | passed | ignored => exact ⟨rfl, rfl, fun _ there => absent there⟩
  | grown action recruits unentered fresh =>
      refine ⟨unentered id, rfl, ?_⟩
      intro after there
      rw [List.getElem?_append_right (List.getElem?_eq_none_iff.mp missing)] at there
      exact fresh after (List.mem_of_getElem? there)
  | proceeded actor replica branch candidate duration activity contest found =>
      have apart := elsewhere found
      refine ⟨entered_of_ne apart, reconcilesOf_advance_of_ne apart, ?_⟩
      intro after there
      rw [found_advance_of_ne apart] at there
      exact absent there
  | broken actor replica asked contest found =>
      have apart := elsewhere found
      refine ⟨rfl, reconcilesOf_advance_of_ne apart, ?_⟩
      intro after there
      rw [found_advance_of_ne apart] at there
      exact absent there

/-- A replica is still in the election it was in, or it has just entered a new one. -/
theorem ReplicaEffect.term_cases {term : Term}
    (effect : fleet.ReplicaEffect id replica event next after)
    (current : after.term? = some term) :
    (∃ claim, replica.term? = some claim ∧ claim.member = term.member) ∨
      term.member = fleet.contest.members.length ∧
        ∃ candidate duration, event = .act (.proceed id .join candidate duration) := by
  cases effect with
  | aside => exact Or.inl ⟨term, current, rfl⟩
  | broken => cases current
  | proceeded branch candidate duration activity contest named step =>
      cases step with
      | refused | crashed | failed | ended | unheard | gaveUp | rejoined => cases current
      | joined =>
          cases current
          exact Or.inr ⟨rfl, candidate, duration, rfl⟩
      | heard _ claim _ _ _ watching | heeded _ claim watching | reconciled _ _ claim watching =>
          cases current
          exact Or.inl ⟨claim, Replica.term?_of_watching watching, rfl⟩
      | resumed _ claim _ reconciling =>
          cases current
          exact Or.inl ⟨_, Replica.term?_of_reconciling reconciling, rfl⟩

/-- Who is there after an event was there before, or is new and has not entered any election. -/
theorem Careers.origin {elections : Nat → List Nat} (careers : fleet.Careers elections)
    (happened : fleet.EventEffect event next) (there : next.replicas[id]? = some after) :
    (∃ replica, fleet.replicas[id]? = some replica ∧ fleet.ReplicaEffect id replica event next after) ∨
      fleet.replicas[id]? = none ∧ after.activity = .joining := by
  cases found : fleet.replicas[id]? with
  | none => exact Or.inr ⟨rfl, (happened.newcomer found).2.2 after there⟩
  | some replica =>
      obtain ⟨same, again, effect⟩ := careers.effect happened found
      obtain rfl := Option.some.inj (there.symm.trans again)
      exact Or.inl ⟨replica, rfl, effect⟩

/-- A replica that is in an election has been in it before, or has just entered it. -/
theorem Careers.held {elections : Nat → List Nat} {term : Term} (careers : fleet.Careers elections)
    (happened : fleet.EventEffect event next) (there : next.replicas[id]? = some after)
    (current : after.term? = some term) :
    (∃ replica claim, fleet.replicas[id]? = some replica ∧ replica.term? = some claim ∧
      claim.member = term.member) ∨ term.member = fleet.contest.members.length ∧
      ∃ candidate duration, event = .act (.proceed id .join candidate duration) := by
  rcases careers.origin happened there with ⟨replica, found, effect⟩ | ⟨_, joining⟩
  · rcases effect.term_cases current with ⟨claim, claims, same⟩ | new
    · exact Or.inl ⟨replica, claim, found, claims, same⟩
    · exact Or.inr new
  · rw [Replica.term?, joining] at current
    cases current

theorem EventEffect.careers {elections : Nat → List Nat} (happened : fleet.EventEffect event next)
    (careers : fleet.Careers elections) :
    next.Careers fun id => elections id ++ fleet.entered id event := by
  obtain ⟨asked, onward⟩ := happened.onward
  refine ⟨onward.coherent careers.coherent, onward.seated careers.seated, ?_, ?_, ?_, ?_⟩
  · intro id other replica rival term claim found was current claims same
    rcases careers.held happened found current with
      ⟨one, old, foundOne, currentOne, sameOne⟩ | ⟨new, _, _, acts⟩
    · rcases careers.held happened was claims with
        ⟨two, older, foundTwo, currentTwo, sameTwo⟩ | ⟨new, _⟩
      · exact careers.apart id other one two old older foundOne foundTwo currentOne currentTwo
          (sameOne.trans (same.trans sameTwo.symm))
      · have early := careers.lt_length foundOne currentOne
        rw [sameOne, same, new] at early
        exact absurd early (Nat.lt_irrefl _)
    · rcases careers.held happened was claims with
        ⟨two, older, foundTwo, currentTwo, sameTwo⟩ | ⟨_, _, _, actsToo⟩
      · have early := careers.lt_length foundTwo currentTwo
        rw [sameTwo, ← same, new] at early
        exact absurd early (Nat.lt_irrefl _)
      · cases acts.symm.trans actsToo
        rfl
  · intro id missing
    cases found : fleet.replicas[id]? with
    | none => rw [careers.unknown id found, (happened.newcomer found).1, List.append_nil]
    | some replica =>
        obtain ⟨after, there, _⟩ := careers.effect happened found
        cases there.symm.trans missing
  · intro id never
    obtain ⟨none, _⟩ := List.append_eq_nil_iff.mp never
    have idle := careers.unworked id none
    cases found : fleet.replicas[id]? with
    | none => exact (happened.newcomer found).2.1.trans idle
    | some replica =>
        obtain ⟨after, _, effect⟩ := careers.effect happened found
        refine (effect.reconcilesOf ?_).trans idle
        cases current : replica.term? with
        | none => rfl
        | some term =>
            obtain ⟨former, _, whole, _⟩ :=
              (careers.career id replica found).doing.engagement current
            exact absurd (whole.symm.trans none) (List.concat_ne_nil _ _)
  · intro id after there
    rcases careers.origin happened there with ⟨replica, found, effect⟩ | ⟨missing, joining⟩
    · exact effect.career (careers.career id replica found) careers.coherent found
    · simp only [careers.unknown id missing, (happened.newcomer missing).1, List.append_nil]
      refine ⟨?_, fun _ => Nat.zero_le 1, fun some => absurd rfl some, ?_⟩
      · intro past never
        cases never
      · rw [joining]
        exact .joining (fun _ never => (nomatch never)) fun some => absurd rfl some

theorem careers_of_run (run : (opening terms).steps? events = some fleet) :
    fleet.Careers fun id => (opening terms).elections id events := by
  refine Runs.induct (motive := fun events fleet =>
    fleet.Careers fun id => (opening terms).elections id events) (careers_opening terms) ?_ events run
  intro events fleet event next ran careers stepped
  have step := (eventEffect_of_step? stepped).careers careers
  simp only [elections_concat ran]
  exact step

end Fleet

end Leasehold
