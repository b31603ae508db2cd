import Leasehold.Proofs.Scaling.Career

set_option autoImplicit false

/-!
What a replica notes down: what it hears of its elections, and when it begins to reconcile.

`Fleet.DiaryEntry` says what each event of the fleet is for the work of one replica, and with what it notes
down of it.
-/

namespace Leasehold

inductive Note where
  /-- An outcome of its election, at the instant at which it is heard. -/
  | heard (outcome : Outcome) (instant : Nat)
  /-- The beginning of a reconcile, with the instant at which that is done. -/
  | began (instant doneAt : Nat)
  /-- The replica is broken off. -/
  | broken (instant : Nat)
  deriving DecidableEq

namespace Note

def instant : Note → Nat
  | heard _ instant | began instant _ | broken instant => instant

def beginning? : Note → Option Nat
  | began instant _ => some instant
  | _ => none

end Note

namespace Replica

/-- The ticker of a leader, and the instant at which the reconcile under way is done. -/
def lead? (replica : Replica) : Option (Ticker × Option Nat) :=
  match replica.activity with
  | .watching term => if term.leading then some (term.ticker, none) else none
  | .reconciling term doneAt => if term.leading then some (term.ticker, some doneAt) else none
  | _ => none

def Paced (replica : Replica) : Prop :=
  ∀ term, replica.term? = some term →
    term.ticker.period = replica.assignment.settings.scaleInterval

variable {replica : Replica}

theorem lead?_of_over (concluded : replica.isOver = true) : replica.lead? = none := by
  unfold isOver at concluded
  unfold lead?
  split at concluded
  · rename_i activity
    rw [activity]
  · rename_i activity
    rw [activity]
  · rename_i activity
    rw [activity]
  · cases concluded

theorem lead?_of_watching {term : Term} (watching : replica.activity = .watching term) :
    replica.lead? = if term.leading then some (term.ticker, none) else none := by
  simp only [lead?, watching]

theorem lead?_of_reconciling {term : Term} {doneAt : Nat}
    (reconciling : replica.activity = .reconciling term doneAt) :
    replica.lead? = if term.leading then some (term.ticker, some doneAt) else none := by
  simp only [lead?, reconciling]

/-- A leader watches, or it reconciles. -/
theorem lead?_eq_some {ticker : Ticker} {doneAt? : Option Nat}
    (leads : replica.lead? = some (ticker, doneAt?)) :
    (∃ term, replica.activity = .watching term ∧ term.leading = true ∧ term.ticker = ticker) ∨
      ∃ term doneAt, replica.activity = .reconciling term doneAt ∧ doneAt? = some doneAt := by
  unfold lead? at leads
  split at leads
  · rename_i term watching
    split at leads
    · rename_i leading
      cases leads
      exact Or.inl ⟨term, watching, leading, rfl⟩
    · cases leads
  · rename_i term doneAt reconciling
    split at leads
    · cases leads
      exact Or.inr ⟨term, doneAt, reconciling, rfl⟩
    · cases leads
  · cases leads

theorem lead?_of_joining (joining : replica.activity = .joining) : replica.lead? = none := by
  simp only [lead?, joining]

theorem not_reconciling_of_joining (joining : replica.activity = .joining) (term : Term)
    (doneAt : Nat) : replica.activity ≠ .reconciling term doneAt := by
  rw [joining]
  exact Activity.noConfusion

end Replica

namespace Fleet

variable {fleet next first : Fleet} {event : FleetEvent} {id other : Nat}
  {replica after : Replica} {branch : Branch} {candidate : CandidateName} {duration : Nat}
  {terms : BucketTerms} {events done : List FleetEvent}

/-! ### What a replica notes down -/

/-- What a watching replica hears next. A closed channel counts as a stop. -/
def tidings (fleet : Fleet) (term : Term) : Outcome :=
  ((fleet.candidate? term.member).bind fun candidate => candidate.reports[term.heard]?).getD .stopped

def jot (fleet : Fleet) (id : Nat) (replica : Replica) : FleetEvent → List Note
  | .act (.proceed other branch _ duration) =>
      if other = id then
        match branch, replica.activity with
        | .hear, .watching term => [.heard (fleet.tidings term) fleet.contest.now]
        | .reconcile, .watching _ => [.began fleet.contest.now (fleet.contest.now + duration)]
        | _, _ => []
      else []
  | .act (.abort other) =>
      if other = id ∧ replica.isOver = false then [.broken fleet.contest.now] else []
  | _ => []

def notes (fleet : Fleet) (id : Nat) (event : FleetEvent) : List Note :=
  match fleet.replicas[id]? with
  | some replica => fleet.jot id replica event
  | none => []

def diary (first : Fleet) (id : Nat) (events : List FleetEvent) : List Note :=
  Runs.collect step? (fun fleet event => fleet.notes id event) first events

theorem diary_concat (ran : first.steps? done = some fleet) (event : FleetEvent) :
    first.diary id (done ++ [event]) = first.diary id done ++ fleet.notes id event :=
  Runs.collect_concat ran event

inductive DiaryEntry (fleet : Fleet) (id : Nat) (replica : Replica) (event : FleetEvent) (next : Fleet)
    (after : Replica) : List Note → Prop
  | still (same : after.lead? = replica.lead?)
      (concluded : replica.isOver = true → after.isOver = true)
      (busy : ∀ term doneAt, after.activity = .reconciling term doneAt →
        replica.activity = .reconciling term doneAt)
      (clock : next.contest.now = fleet.contest.now) : DiaryEntry fleet id replica event next after []
  | waited (same : after = replica) (later : fleet.contest.now ≤ next.contest.now)
      (awake : ∀ wake, replica.wakeAt? = some wake → next.contest.now ≤ wake) :
      DiaryEntry fleet id replica event next after []
  | heard (term : Term) (outcome : Outcome) (watching : replica.activity = .watching term)
      (leads : after.lead? =
        if outcome = .won then some (⟨fleet.contest.now, term.ticker.period⟩, none) else none)
      (idle : ∀ term doneAt, after.activity ≠ .reconciling term doneAt)
      (clock : next.contest.now = fleet.contest.now) :
      DiaryEntry fleet id replica event next after [.heard outcome fleet.contest.now]
  | began (term : Term) (candidate : CandidateName) (duration : Nat)
      (own : event = .act (.proceed id .reconcile candidate duration))
      (watching : replica.activity = .watching term) (leads : term.leading = true)
      (due : term.ticker.due ≤ fleet.contest.now)
      (goes : after.activity = .reconciling { term with ticker := term.ticker.take fleet.contest.now }
        (fleet.contest.now + duration))
      (clock : next.contest.now = fleet.contest.now) :
      DiaryEntry fleet id replica event next after
        [.began fleet.contest.now (fleet.contest.now + duration)]
  | resumed (term : Term) (doneAt : Nat) (reconciling : replica.activity = .reconciling term doneAt)
      (due : doneAt ≤ fleet.contest.now) (goes : after.activity = .watching term)
      (clock : next.contest.now = fleet.contest.now) : DiaryEntry fleet id replica event next after []
  | broken (concluded : after.isOver = true) (clock : next.contest.now = fleet.contest.now) :
      DiaryEntry fleet id replica event next after [.broken fleet.contest.now]

structure NotedStep (fleet : Fleet) (id : Nat) (replica : Replica) (event : FleetEvent) (next : Fleet)
    (after : Replica) : Prop where
  there : next.replicas[id]? = some after
  same : after.assignment = replica.assignment
  paced : replica.Paced → after.Paced
  counted : (next.reconcilesOf id).map ReconcileRecord.startedAt =
    ((fleet.notes id event).filterMap Note.beginning?).reverse ++
      (fleet.reconcilesOf id).map ReconcileRecord.startedAt
  entry : fleet.DiaryEntry id replica event next after (fleet.notes id event)

theorem offer_of_step?
    (stepped : fleet.step? (.act (.proceed id branch candidate duration)) = some next) :
    ∃ replica, fleet.replicas[id]? = some replica ∧ fleet.Offer replica branch ∧
      next = fleet.proceed id branch candidate duration := by
  simp only [step?] at stepped
  split at stepped
  · simp only [act?] at stepped
    split at stepped
    · rename_i able
      obtain ⟨replica, found, offered⟩ := Option.any_eq_true _ _ |>.mp able
      exact ⟨replica, found, offer_of_branch (of_decide_eq_true offered),
        (Option.some.inj stepped).symm⟩
    · cases stepped
  · cases stepped

theorem notes_of_found (found : fleet.replicas[id]? = some replica) :
    fleet.notes id event = fleet.jot id replica event := by
  simp only [notes, found]

theorem startedAt_advance {branch? : Option Branch} {activity : Activity} {contest : Contest} :
    ((fleet.advance id replica branch? activity contest).reconcilesOf id).map
        ReconcileRecord.startedAt =
      (if branch? = some .reconcile then [fleet.contest.now] else []) ++
        (fleet.reconcilesOf id).map ReconcileRecord.startedAt := by
  by_cases works : branch? = some .reconcile
  · have grown : (fleet.advance id replica branch? activity contest).reconciles =
        ⟨id, fleet.contest.now⟩ :: fleet.reconciles := if_pos works
    have own : (⟨id, fleet.contest.now⟩ :: fleet.reconciles).filter (·.replica = id) =
        ⟨id, fleet.contest.now⟩ :: fleet.reconcilesOf id :=
      List.filter_cons_of_pos (decide_eq_true rfl)
    rw [reconcilesOf, grown, if_pos works, own]
    rfl
  · have kept : (fleet.advance id replica branch? activity contest).reconciles =
        fleet.reconciles := if_neg works
    rw [reconcilesOf, kept, if_neg works]
    rfl

/-- A step of a replica that is neither to hear something nor to reconcile. -/
theorem notedStep_of_replicaStep {activity : Activity} {contest : Contest}
    (found : fleet.replicas[id]? = some replica)
    (step : fleet.ReplicaStep replica branch candidate activity contest) (idle : branch ≠ .reconcile)
    (silent : fleet.jot id replica (.act (.proceed id branch candidate duration)) = [])
    (paced : replica.Paced → Replica.Paced { replica with activity })
    (entry : contest.now = fleet.contest.now →
      fleet.DiaryEntry id replica (.act (.proceed id branch candidate duration))
        (fleet.advance id replica (some branch) activity contest) { replica with activity } []) :
    fleet.NotedStep id replica (.act (.proceed id branch candidate duration))
      (fleet.advance id replica (some branch) activity contest) { replica with activity } where
  there := found_advance found
  same := rfl
  paced := paced
  counted := by
    rw [notes_of_found found, silent, startedAt_advance,
      if_neg fun same => idle (Option.some.inj same)]
    rfl
  entry := by
    obtain ⟨_, _, clock, _⟩ := step.onward
    rw [notes_of_found found, silent]
    exact entry clock

theorem found_setActivity (found : fleet.replicas[id]? = some replica) (activity : Activity) :
    (fleet.setActivity id activity).replicas[id]? = some { replica with activity } := by
  rw [setActivity_eq_put found]
  exact List.getElem?_set_self (List.getElem?_eq_some_iff.mp found).1

theorem ticker_of_hear {term : Term} {member : Member} {outcome : Outcome} {ticker : Ticker}
    {contest : Contest} (found : fleet.replicas[id]? = some replica)
    (seated : fleet.contest.members[term.member]? = some member)
    (report : member.candidate.reports[term.heard]? = some outcome)
    (mild : outcome.isTerminal = false)
    (hears : fleet.hear id replica.assignment term = fleet.advance id replica (some .hear)
      (.watching { term with heard := term.heard + 1, leading := outcome == .won, ticker }) contest) :
    ticker = if outcome = .won then term.ticker.reset fleet.contest.now else term.ticker := by
  have there : (fleet.hear id replica.assignment term).replicas[id]? = some { replica with
      activity := .watching
        { term with heard := term.heard + 1, leading := outcome == .won, ticker } } := by
    rw [hears]
    exact found_advance found
  have told : ((fleet.candidate? term.member).bind fun candidate => candidate.reports[term.heard]?) =
      some outcome := by
    rw [candidate?, seated]
    exact report
  simp only [hear, told] at there
  cases outcome with
  | won | lost =>
      cases (found_setActivity found _).symm.trans there
      rfl
  | _ => cases mild

theorem tidings_of_report {term : Term} {member : Member} {outcome : Outcome}
    (seated : fleet.contest.members[term.member]? = some member)
    (report : member.candidate.reports[term.heard]? = some outcome) :
    fleet.tidings term = outcome := by
  simp only [tidings, candidate?, seated, Option.map_some, Option.bind_some, report,
    Option.getD_some]

theorem tidings_of_closed {term : Term} {member : Member}
    (seated : fleet.contest.members[term.member]? = some member)
    (all : member.candidate.reports.length ≤ term.heard) : fleet.tidings term = .stopped := by
  simp only [tidings, candidate?, seated, Option.map_some, Option.bind_some,
    List.getElem?_eq_none_iff.mpr all, Option.getD_none]

/-- What a replica does with what it hears. -/
theorem notedStep_of_hear {term : Term} {member : Member} (found : fleet.replicas[id]? = some replica)
    (watching : replica.activity = .watching term)
    (seated : fleet.contest.members[term.member]? = some member)
    (news : term.heard < member.candidate.reports.length ∨ member.candidate.closed = true) :
    ∃ after, fleet.NotedStep id replica (.act (.proceed id .hear candidate duration))
      (fleet.proceed id .hear candidate duration) after := by
  obtain ⟨activity, contest, step, hears⟩ := @replicaStep_of_offer _ _ _ _ candidate duration found
    (.hear term member watching seated news)
  have direct : fleet.proceed id .hear candidate duration =
      fleet.hear id replica.assignment term := by
    simp only [proceed, found, watching]
  have jotted : fleet.jot id replica (.act (.proceed id .hear candidate duration)) =
      [.heard (fleet.tidings term) fleet.contest.now] := by
    simp only [jot, if_pos, watching]
  obtain ⟨_, _, clock, _⟩ := step.onward
  have noted (paced : replica.Paced → Replica.Paced { replica with activity })
      (leads : Replica.lead? { replica with activity } = if fleet.tidings term = .won then
        some (⟨fleet.contest.now, term.ticker.period⟩, none) else none)
      (idle : ∀ term doneAt, activity ≠ .reconciling term doneAt) :
      fleet.NotedStep id replica (.act (.proceed id .hear candidate duration))
        (fleet.advance id replica (some .hear) activity contest) { replica with activity } := {
    there := found_advance found
    same := rfl
    paced := paced
    counted := by
      rw [notes_of_found found, jotted, startedAt_advance, if_neg (by decide)]
      rfl
    entry := by
      rw [notes_of_found found, jotted]
      exact .heard term _ watching leads idle clock }
  rw [hears]
  refine ⟨_, noted ?_ ?_ ?_⟩
  · intro paced later current
    cases step with
    | heard _ claim rival outcome ticker was there report mild =>
        cases watching.symm.trans was
        cases current
        have reset := ticker_of_hear found there report mild (direct.symm.trans hears)
        have period := paced term (Replica.term?_of_watching watching)
        subst reset
        show Ticker.period (if _ then _ else _) = _
        split
        · exact period
        · exact period
    | failed | ended | unheard => cases current
  · cases step with
    | heard _ claim rival outcome ticker was there report mild =>
        cases watching.symm.trans was
        have reset := ticker_of_hear found there report mild (direct.symm.trans hears)
        rw [tidings_of_report there report]
        subst reset
        cases outcome with
        | won | lost => rfl
        | _ => cases mild
    | failed _ claim rival cause was there report =>
        cases watching.symm.trans was
        rw [tidings_of_report there report]
        rfl
    | ended _ claim rival outcome was there report terminal =>
        cases watching.symm.trans was
        rw [tidings_of_report there report]
        cases outcome with
        | won | lost => cases terminal
        | _ => rfl
    | unheard _ claim rival was there all =>
        cases watching.symm.trans was
        rw [tidings_of_closed there all]
        rfl
  · cases step with
    | heard | failed | ended | unheard => exact fun _ _ => Activity.noConfusion

/-- Whatever else a replica does, it leads or follows as before. -/
theorem ReplicaStep.keeps {activity : Activity} {contest : Contest}
    (step : fleet.ReplicaStep replica branch candidate activity contest) (hears : branch ≠ .hear)
    (works : branch ≠ .reconcile) (resumes : branch ≠ .resume) :
    Replica.lead? { replica with activity } = replica.lead? ∧
      (replica.Paced → Replica.Paced { replica with activity }) ∧ replica.isOver = false ∧
      (∀ term doneAt, activity ≠ .reconciling term doneAt) ∧
      fleet.jot id replica (.act (.proceed id branch candidate duration)) = [] := by
  cases step with
  | refused _ _ was | crashed _ was | gaveUp _ _ was | rejoined _ _ was =>
      exact ⟨by simp only [Replica.lead?, was], fun _ _ never => (by cases never),
        by simp only [Replica.isOver, was], fun _ _ => Activity.noConfusion, by simp [jot]⟩
  | joined _ was =>
      refine ⟨by simp [Replica.lead?, was], ?_, by simp only [Replica.isOver, was],
        fun _ _ => Activity.noConfusion, by simp [jot]⟩
      rintro _ _ ⟨⟩
      rfl
  | heeded _ term was =>
      refine ⟨by simp only [Replica.lead?, was], ?_, by simp only [Replica.isOver, was],
        fun _ _ => Activity.noConfusion, by simp [jot]⟩
      rintro paced _ ⟨⟩
      exact paced term (Replica.term?_of_watching was)
  | heard | failed | ended | unheard => exact absurd rfl hears
  | reconciled => exact absurd rfl works
  | resumed => exact absurd rfl resumes

/-- What a replica does of its own accord. -/
theorem notedStep_of_proceed (found : fleet.replicas[id]? = some replica)
    (offer : fleet.Offer replica branch) :
    ∃ after, fleet.NotedStep id replica (.act (.proceed id branch candidate duration))
      (fleet.proceed id branch candidate duration) after := by
  obtain ⟨activity, contest, step, goes⟩ :=
    @replicaStep_of_offer _ _ _ _ candidate duration found offer
  have aside (hears : branch ≠ .hear) (works : branch ≠ .reconcile) (resumes : branch ≠ .resume) :
      ∃ after, fleet.NotedStep id replica (.act (.proceed id branch candidate duration))
        (fleet.proceed id branch candidate duration) after := by
    obtain ⟨same, paced, going, idle, silent⟩ := step.keeps hears works resumes
    rw [goes]
    refine ⟨_, notedStep_of_replicaStep found step works silent paced fun clock => .still same ?_
      (fun term doneAt busy => absurd busy (idle term doneAt)) clock⟩
    intro concluded
    rw [going] at concluded
    cases concluded
  cases offer with
  | hear term member watching seated news => exact notedStep_of_hear found watching seated news
  | join | heed | giveUp | rejoin =>
      exact aside Branch.noConfusion Branch.noConfusion Branch.noConfusion
  | reconcile term watching leads due =>
      have jotted : fleet.jot id replica (.act (.proceed id .reconcile candidate duration)) =
          [.began fleet.contest.now (fleet.contest.now + duration)] := by
        simp only [jot, if_pos, watching]
      have works : fleet.proceed id .reconcile candidate duration =
          fleet.advance id replica (some .reconcile)
            (.reconciling { term with ticker := term.ticker.take fleet.contest.now }
              (fleet.contest.now + duration)) fleet.contest := by
        simp only [proceed, found, watching, setActivity_eq_put found]
        rfl
      rw [works]
      refine ⟨_, found_advance found, rfl, ?_, ?_, ?_⟩
      · rintro paced _ ⟨⟩
        exact paced term (Replica.term?_of_watching watching)
      · rw [notes_of_found found, jotted, startedAt_advance, if_pos rfl]
        rfl
      · rw [notes_of_found found, jotted]
        exact .began term candidate duration rfl watching leads due rfl rfl
  | resume term doneAt reconciling due =>
      rw [goes]
      have silent : fleet.jot id replica (.act (.proceed id .resume candidate duration)) = [] := by
        simp [jot]
      cases step with
      | resumed _ claim later was =>
          cases reconciling.symm.trans was
          refine ⟨_, notedStep_of_replicaStep found (.resumed candidate term doneAt was) Branch.noConfusion
            silent ?_ fun clock => .resumed term doneAt reconciling due rfl clock⟩
          rintro paced _ ⟨⟩
          exact paced term (Replica.term?_of_reconciling was)

/-- A replica that does nothing itself. -/
theorem notedStep_of_aside (found : fleet.replicas[id]? = some replica)
    (there : next.replicas[id]? = some replica) (silent : fleet.jot id replica event = [])
    (unworked : next.reconcilesOf id = fleet.reconcilesOf id)
    (clock : next.contest.now = fleet.contest.now ∨ fleet.quiet = true ∧
      fleet.contest.now ≤ next.contest.now ∧
      ∀ wake, replica.wakeAt? = some wake → next.contest.now ≤ wake) :
    fleet.NotedStep id replica event next replica where
  there := there
  same := rfl
  paced := fun paced => paced
  counted := by
    rw [notes_of_found found, silent, unworked]
    rfl
  entry := by
    rw [notes_of_found found, silent]
    rcases clock with stands | ⟨_, later, awake⟩
    · exact .still rfl (fun concluded => concluded) (fun _ _ busy => busy) stands
    · exact .waited rfl later awake

/-- What it is for a replica to be broken off. -/
theorem notedStep_of_abort (found : fleet.replicas[id]? = some replica) :
    ∃ after, fleet.NotedStep id replica (.act (.abort id)) (fleet.abort id) after := by
  by_cases concluded : replica.isOver = true
  · have ignored : fleet.abort id = fleet := by
      simp only [abort, found, if_pos concluded]
    have silent : fleet.jot id replica (.act (.abort id)) = [] :=
      if_neg fun both => by cases concluded.symm.trans both.2
    rw [ignored]
    exact ⟨replica, notedStep_of_aside found found silent rfl (Or.inl rfl)⟩
  · have jotted : fleet.jot id replica (.act (.abort id)) = [.broken fleet.contest.now] :=
      if_pos ⟨rfl, Bool.eq_false_iff.mpr concluded⟩
    have broken : ∃ contest, contest.now = fleet.contest.now ∧
        fleet.abort id = fleet.advance id replica none .aborted contest := by
      simp only [abort, found, if_neg concluded]
      cases replica.term? with
      | none =>
          refine ⟨fleet.contest, rfl, ?_⟩
          simp only [conclude_eq_put found]
          rfl
      | some term =>
          refine ⟨fleet.contest.leave term.member, rfl, ?_⟩
          simp only [@conclude_eq_put (fleet.leave term.member) id replica found]
          rfl
    obtain ⟨contest, clock, breaks⟩ := broken
    rw [breaks]
    refine ⟨_, found_advance found, rfl, ?_, ?_, ?_⟩
    · rintro _ _ ⟨⟩
    · rw [notes_of_found found, jotted, startedAt_advance, if_neg (by decide)]
      rfl
    · rw [notes_of_found found, jotted]
      exact .broken rfl clock

/-- Every event is a step of each replica that is there, if only to stay as it is. -/
theorem notedStep_of_step? {elections : Nat → List Nat} (careers : fleet.Careers elections)
    (stepped : fleet.step? event = some next) (found : fleet.replicas[id]? = some replica) :
    ∃ after, fleet.NotedStep id replica event next after := by
  obtain ⟨after, there, effect⟩ := careers.effect (eventEffect_of_step? stepped) found
  cases event with
  | dictate =>
      cases effect with
      | aside _ _ _ _ _ _ unworked clock =>
          exact ⟨replica, notedStep_of_aside found there rfl unworked clock⟩
  | act action =>
      cases action with
      | add | spawn | among | passTo =>
          cases effect with
          | aside _ _ _ _ _ _ unworked clock =>
              exact ⟨replica, notedStep_of_aside found there rfl unworked clock⟩
      | proceed actor branch candidate duration =>
          by_cases own : actor = id
          · subst own
            obtain ⟨same, foundToo, offer, rfl⟩ := offer_of_step? stepped
            cases found.symm.trans foundToo
            exact notedStep_of_proceed found offer
          · cases effect with
            | aside _ _ _ _ _ _ unworked clock =>
                exact ⟨replica, notedStep_of_aside found there (if_neg own) unworked clock⟩
            | proceeded => exact absurd rfl own
      | abort actor =>
          by_cases own : actor = id
          · subst own
            cases stepped
            exact notedStep_of_abort found
          · cases effect with
            | aside _ _ _ _ _ _ unworked clock =>
                exact ⟨replica, notedStep_of_aside found there (if_neg fun both => own both.1) unworked
                  clock⟩
            | broken => exact absurd rfl own

end Fleet

end Leasehold
