import Leasehold.Proofs.Scaling.Career

set_option autoImplicit false

/-!
What a replica does between a failed election and the next, and what becomes of an election that it
enters after its context has been cancelled.

After a failure the replica waits. Either its context is cancelled, and then it ends before time
passes, or it stands again at the very instant at which the delay has passed. Both can come at one
instant, and then it may enter an election that ends without a call.
-/

namespace Leasehold

namespace Fleet

variable {fleet next first start last : Fleet} {event : FleetEvent} {id : Nat}
  {replica after : Replica} {terms : BucketTerms} {events before done rest : List FleetEvent}
  {past resumeAt : Nat} {context : String}

/-! ### Runs -/

theorem steps?_append (ran : first.steps? done = some fleet) (rest : List FleetEvent) :
    first.steps? (done ++ rest) = fleet.steps? rest := by
  rw [steps?, List.foldlM_append, ← steps?, ran]
  rfl

theorem steps?_cons (stepped : fleet.step? event = some next) (rest : List FleetEvent) :
    fleet.steps? (event :: rest) = next.steps? rest := by
  rw [steps?, List.foldlM_cons, stepped]
  rfl

theorem elections_append (ran : first.steps? done = some fleet) (rest : List FleetEvent) :
    first.elections id (done ++ rest) = first.elections id done ++ fleet.elections id rest :=
  Runs.collect_append ran rest

/-- What a run leaves of each contest. -/
theorem kept_of_steps {motive : Contest → Prop}
    (kept : ∀ contest asked after, Contest.Onward contest asked after → motive contest → motive after)
    (holds : motive fleet.contest) (run : fleet.steps? events = some last) :
    motive last.contest := by
  refine Runs.induct (motive := fun _ last => motive last.contest) holds ?_ events run
  intro _ state _ next _ ih stepped
  obtain ⟨asked, onward⟩ := (eventEffect_of_step? stepped).onward
  exact kept state.contest asked next.contest onward ih

theorem gone_of_steps (gone : fleet.contest.isCancelled context = true)
    (run : fleet.steps? events = some last) : last.contest.isCancelled context = true :=
  kept_of_steps (fun _ _ _ onward gone => onward.gone context gone) gone run

theorem terms_of_steps (run : (opening terms).steps? events = some last) :
    last.contest.bucket.terms = terms :=
  kept_of_steps (fun _ _ _ onward same => onward.terms.trans same) rfl run

/-- An election that is over begins no call any more. -/
theorem silent_of_over (finished : fleet.contest.Over past) (run : fleet.steps? events = some last) :
    last.contest.issuedBy past = fleet.contest.issuedBy past := by
  have kept := @kept_of_steps fleet last events
    (fun contest => contest.Over past ∧ contest.issuedBy past = fleet.contest.issuedBy past)
    (by
      rintro contest asked after onward ⟨finished, same⟩
      obtain ⟨member, found, ended⟩ := finished
      exact ⟨onward.kept_over ⟨member, found, ended⟩,
        (onward.silent past member found (Or.inr ended)).trans same⟩)
    ⟨finished, rfl⟩ run
  exact kept.2

/-- If the context has been cancelled on the way, then at the present instant. -/
def Prompt (start : Fleet) (done : List FleetEvent) (context : String) (fleet : Fleet) : Prop :=
  ∀ early middle, early <+: done → start.steps? early = some middle →
    middle.contest.isCancelled context = true → middle.contest.now = fleet.contest.now

theorem Prompt.refl (start : Fleet) (context : String) : start.Prompt [] context start := by
  intro early middle within reached _
  obtain rfl := List.prefix_nil.mp within
  cases reached
  rfl

theorem Prompt.step (prompt : start.Prompt done context fleet)
    (ran : start.steps? done = some fleet) (stepped : fleet.step? event = some next)
    (clock : next.contest.now = fleet.contest.now) : start.Prompt (done ++ [event]) context next := by
  intro early middle within reached gone
  rcases List.prefix_concat_iff.mp within with rfl | within
  · rw [steps?_append ran, steps?_cons stepped] at reached
    cases reached
    rfl
  · exact (prompt early middle within reached gone).trans clock.symm

/-- If the context has not been cancelled by now, time may pass. -/
theorem Prompt.pass (ran : start.steps? done = some fleet) (stepped : fleet.step? event = some next)
    (going : fleet.contest.isCancelled context = false) :
    start.Prompt (done ++ [event]) context next := by
  intro early middle within reached gone
  rcases List.prefix_concat_iff.mp within with rfl | ⟨late, rfl⟩
  · rw [steps?_append ran, steps?_cons stepped] at reached
    cases reached
    rfl
  · rw [steps?_append reached] at ran
    cases going.symm.trans (gone_of_steps gone ran)

/-! ### Between two elections -/

inductive Recess (start : Fleet) (done : List FleetEvent) (resumeAt : Nat) (fleet : Fleet)
    (replica : Replica) : Prop
  | waiting (activity : replica.activity = .backingOff resumeAt)
      (early : fleet.contest.now ≤ resumeAt)
      (prompt : start.Prompt done replica.assignment.context fleet)
      (pending : fleet.quiet = true → fleet.contest.now < resumeAt ∧
        fleet.contest.isCancelled replica.assignment.context = false)
  | resuming (activity : replica.activity = .joining) (clock : fleet.contest.now = resumeAt)
      (prompt : start.Prompt done replica.assignment.context fleet) (busy : fleet.quiet = false)
  | gaveUp (activity : replica.activity = .done (.ok .cancelled))
      (gone : fleet.contest.isCancelled replica.assignment.context = true)
  | aborted (activity : replica.activity = .aborted)

structure Rests (start : Fleet) (id : Nat) (elections : List Nat) (fleet : Fleet) : Prop where
  silent : ∀ past ∈ elections, fleet.contest.issuedBy past = start.contest.issuedBy past
  unworked : fleet.reconcilesOf id = start.reconcilesOf id

theorem recess_waiting (found : fleet.replicas[id]? = some replica)
    (activity : replica.activity = .backingOff resumeAt) (early : fleet.contest.now ≤ resumeAt)
    (prompt : start.Prompt done replica.assignment.context fleet) :
    start.Recess done resumeAt fleet replica := by
  refine .waiting activity early prompt fun quiet => ⟨?_, ?_⟩
  · by_contra late
    exact not_offer_of_quiet quiet found (.rejoin resumeAt activity (Nat.not_lt.mp late))
  · by_contra gone
    exact not_offer_of_quiet quiet found (.giveUp resumeAt activity (Bool.not_eq_false _ ▸ gone))

theorem recess_resuming (found : fleet.replicas[id]? = some replica)
    (activity : replica.activity = .joining) (clock : fleet.contest.now = resumeAt)
    (prompt : start.Prompt done replica.assignment.context fleet) :
    start.Recess done resumeAt fleet replica := by
  refine .resuming activity clock prompt ?_
  by_contra quiet
  exact not_offer_of_quiet (Bool.not_eq_false _ ▸ quiet) found (.join activity)

theorem Recess.unengaged (recess : start.Recess done resumeAt fleet replica) :
    replica.term? = none := by
  cases recess with
  | waiting activity | resuming activity | gaveUp activity | aborted activity =>
      rw [Replica.term?, activity]

theorem Recess.effect {elections : List Nat} (recess : start.Recess done resumeAt fleet replica)
    (ran : start.steps? done = some fleet) (stepped : fleet.step? event = some next)
    (found : fleet.replicas[id]? = some replica)
    (career : fleet.contest.Career replica elections) (some : elections ≠ [])
    (effect : fleet.ReplicaEffect id replica event next after) (there : next.replicas[id]? = .some after)
    (unentered : fleet.entered id event = []) :
    start.Recess (done ++ [event]) resumeAt next after := by
  cases effect with
  | aside _ _ asked onward untouched _ unworked clock =>
      cases recess with
      | waiting activity early prompt pending =>
          rcases clock with still | ⟨quiet, later, awake⟩
          · exact recess_waiting there activity (by rw [still]; exact early)
              (prompt.step ran stepped still)
          · refine recess_waiting there activity (awake resumeAt ?_)
              (.pass ran stepped (pending quiet).2)
            rw [Replica.wakeAt?, activity]
      | resuming activity clock' prompt busy =>
          rcases clock with still | ⟨quiet, _⟩
          · exact recess_resuming there activity (still.trans clock') (prompt.step ran stepped still)
          · cases busy.symm.trans quiet
      | gaveUp activity gone => exact .gaveUp activity (onward.gone _ gone)
      | aborted activity => exact .aborted activity
  | broken => exact .aborted rfl
  | proceeded branch candidate duration activity contest named step =>
      have idle := recess.unengaged
      cases step with
      | refused _ cause _ refused =>
          cases refused.symm.trans (career.accepted some candidate (named rfl))
      | crashed _ _ accepted | joined _ _ accepted =>
          rw [entered_of_accepted found accepted] at unentered
          cases unentered
      | heard _ _ _ _ _ watching | failed _ _ _ _ watching | ended _ _ _ _ watching
      | unheard _ _ _ watching | heeded _ _ watching | reconciled _ _ _ watching =>
          cases idle.symm.trans (Replica.term?_of_watching watching)
      | resumed _ _ _ reconciling =>
          cases idle.symm.trans (Replica.term?_of_reconciling reconciling)
      | gaveUp _ _ _ gone => exact .gaveUp rfl gone
      | rejoined _ instant waits due =>
          cases recess with
          | waiting activity early prompt =>
              cases waits.symm.trans activity
              exact recess_resuming there rfl (Nat.le_antisymm early due)
                (prompt.step ran stepped rfl)
          | resuming activity | gaveUp activity | aborted activity =>
              cases waits.symm.trans activity

/-- As long as it does not stand again, a replica that waits for that stays idle. -/
theorem recess_of_steps (began : (opening terms).steps? before = .some start)
    (there : start.replicas[id]? = .some replica)
    (some : (opening terms).elections id before ≠ [])
    (recess : start.Recess [] resumeAt start replica) (run : start.steps? events = .some last)
    (none : start.elections id events = []) :
    ∃ later, last.replicas[id]? = .some later ∧ start.Recess events resumeAt last later ∧
      last.reconcilesOf id = start.reconcilesOf id := by
  revert none
  refine Runs.induct (motive := fun events last => start.elections id events = [] →
    ∃ later, last.replicas[id]? = .some later ∧ start.Recess events resumeAt last later ∧
      last.reconcilesOf id = start.reconcilesOf id) ?_ ?_ events run
  · exact fun _ => ⟨replica, there, recess, rfl⟩
  · intro events fleet event next ran ih stepped none
    rw [elections_concat ran] at none
    obtain ⟨silent, unentered⟩ := List.append_eq_nil_iff.mp none
    obtain ⟨waiter, found, recess, unworked⟩ := ih silent
    have careers := careers_of_run ((steps?_append began events).trans ran)
    obtain ⟨after, there, effect⟩ := careers.effect (eventEffect_of_step? stepped) found
    refine ⟨after, there, recess.effect ran stepped found (careers.career id waiter found) ?_ effect there
      unentered, (effect.reconcilesOf recess.unengaged).trans unworked⟩
    rw [elections_append began]
    exact List.append_ne_nil_of_left_ne_nil some _

def Hears (fleet : Fleet) (replica : Replica) (outcome : Outcome) : Prop :=
  ∃ term member, replica.activity = .watching term ∧
    fleet.contest.members[term.member]? = some member ∧
    member.candidate.reports[term.heard]? = some outcome

/-- Since a failure a replica has not stood again, or it has, and that exactly when the delay had
passed. -/
inductive Paused (start : Fleet) (id : Nat) (elections : List Nat) (resumeAt : Nat)
    (events : List FleetEvent) (fleet : Fleet) (replica : Replica) : Prop
  | still (none : start.elections id events = [])
      (recess : start.Recess events resumeAt fleet replica)
      (rests : start.Rests id elections fleet)
  | again (early late : List FleetEvent) (candidate : CandidateName) (duration new : Nat)
      (middle : Fleet) (waiter : Replica)
      (whole : events = early ++ .act (.proceed id .join candidate duration) :: late)
      (ran : start.steps? early = some middle) (none : start.elections id early = [])
      (found : middle.replicas[id]? = some waiter)
      (recess : start.Recess early resumeAt middle waiter)
      (rests : start.Rests id elections middle) (clock : middle.contest.now = resumeAt)
      (enters : middle.entered id (.act (.proceed id .join candidate duration)) = [new])

structure Setback (terms : BucketTerms) (before : List FleetEvent) (id : Nat) (failing : Fleet)
    (replica : Replica) (event : FleetEvent) (cause : StoreError) (start : Fleet) : Prop where
  ran : (opening terms).steps? before = some failing
  found : failing.replicas[id]? = some replica
  hears : failing.Hears replica (.error cause)
  again : replica.assignment.settings.recreateOnError = true
  acts : ∃ candidate duration, event = .act (.proceed id .hear candidate duration)
  stepped : failing.step? event = some start

theorem ReplicaStep.joining {candidate : CandidateName} {activity : Activity} {contest : Contest}
    (step : fleet.ReplicaStep replica .join candidate activity contest) :
    replica.activity = .joining := by
  cases step with
  | refused _ _ joining | crashed _ joining | joined _ joining => exact joining

theorem event_of_entered {new : Nat} (enters : fleet.entered id event = [new]) :
    ∃ candidate duration, event = .act (.proceed id .join candidate duration) ∧
      new = fleet.contest.members.length := by
  unfold entered at enters
  split at enters
  · rename_i other candidate duration
    split at enters
    · rename_i both
      obtain ⟨rfl, _⟩ := both
      cases enters
      exact ⟨candidate, duration, rfl, rfl⟩
    · cases enters
  · cases enters

theorem entered_cases (fleet : Fleet) (id : Nat) (event : FleetEvent) :
    fleet.entered id event = [] ∨ ∃ new, fleet.entered id event = [new] := by
  unfold entered
  split
  · split
    · exact Or.inr ⟨_, rfl⟩
    · exact Or.inl rfl
  · exact Or.inl rfl

namespace Setback

variable {failing : Fleet} {cause : StoreError}

theorem start_eq (setback : Setback terms before id failing replica event cause start) :
    ∃ term, replica.term? = some term ∧ start = failing.advance id replica (some .hear)
      (.backingOff (failing.contest.now + replica.assignment.settings.retryDelay))
      (failing.contest.leave term.member) := by
  obtain ⟨candidate, duration, rfl⟩ := setback.acts
  obtain ⟨term, member, watching, seated, report⟩ := setback.hears
  obtain ⟨same, activity, contest, found, _, step, rfl⟩ := replicaStep_of_step? setback.stepped
  cases setback.found.symm.trans found
  refine ⟨term, Replica.term?_of_watching watching, ?_⟩
  cases step with
  | failed _ own _ _ watches =>
      cases watching.symm.trans watches
      rfl
  | heard _ own _ outcome _ watches was told mild =>
      cases watching.symm.trans watches
      cases seated.symm.trans was
      cases report.symm.trans told
      cases mild
  | ended _ own _ outcome watches was told _ final =>
      cases watching.symm.trans watches
      cases seated.symm.trans was
      cases report.symm.trans told
      cases setback.again.symm.trans (final cause rfl)
  | unheard _ own _ watches was all =>
      cases watching.symm.trans watches
      cases seated.symm.trans was
      cases report.symm.trans (List.getElem?_eq_none_iff.mpr all)

theorem ran_start (setback : Setback terms before id failing replica event cause start) :
    (opening terms).steps? (before ++ [event]) = some start := by
  rw [steps?_append setback.ran, steps?_cons setback.stepped]
  rfl

theorem elections_eq (setback : Setback terms before id failing replica event cause start) :
    (opening terms).elections id (before ++ [event]) = (opening terms).elections id before := by
  obtain ⟨candidate, duration, rfl⟩ := setback.acts
  rw [elections_concat setback.ran]
  exact List.append_nil _

theorem recess_of_run (setback : Setback terms before id failing replica event cause start)
    (run : start.steps? events = some last) (none : start.elections id events = []) :
    ∃ later, last.replicas[id]? = some later ∧
      start.Recess events (failing.contest.now + replica.assignment.settings.retryDelay) last later ∧
      start.Rests id ((opening terms).elections id before) last := by
  have began := setback.ran_start
  obtain ⟨term, current, whole⟩ := setback.start_eq
  have there : start.replicas[id]? = Option.some { replica with
      activity :=
        .backingOff (failing.contest.now + replica.assignment.settings.retryDelay) } := by
    rw [whole]
    exact found_advance setback.found
  have clock : start.contest.now = failing.contest.now := by
    rw [whole]
    rfl
  obtain ⟨finished, some, _⟩ := ((careers_of_run began).career id _ there).backingOff rfl
  obtain ⟨later, found, recess, unworked⟩ := recess_of_steps began there some
    (recess_waiting there rfl (by rw [clock]; exact Nat.le_add_right _ _) (.refl start _)) run none
  refine ⟨later, found, recess, ?_, unworked⟩
  intro past present
  rw [← setback.elections_eq] at present
  exact silent_of_over (finished past present) run

theorem paused_of_run (setback : Setback terms before id failing replica event cause start)
    (run : start.steps? events = some last) (found : last.replicas[id]? = some after) :
    start.Paused id ((opening terms).elections id before)
      (failing.contest.now + replica.assignment.settings.retryDelay) events last after := by
  by_cases none : start.elections id events = []
  · obtain ⟨later, there, recess, rests⟩ := setback.recess_of_run run none
    obtain rfl := Option.some.inj (found.symm.trans there)
    exact .still none recess rests
  · obtain ⟨early, event, late, middle, whole, ran, silent, enters⟩ :=
      Runs.first_of_collect run none
    obtain ⟨waiter, there, recess, rests⟩ := setback.recess_of_run ran silent
    obtain ⟨new, enters⟩ := (entered_cases middle id event).resolve_left enters
    obtain ⟨candidate, duration, rfl, _⟩ := event_of_entered enters
    refine .again early late candidate duration new middle waiter whole ran silent there recess rests
      ?_ enters
    rw [whole, steps?_append ran, steps?, List.foldlM_cons, Option.bind_eq_bind,
      Option.bind_eq_some_iff] at run
    obtain ⟨_, stepped, _⟩ := run
    obtain ⟨_, _, _, same, _, step, _⟩ := replicaStep_of_step? stepped
    cases there.symm.trans same
    have joining := step.joining
    cases recess with
    | resuming _ clock => exact clock
    | waiting activity | gaveUp activity | aborted activity => cases joining.symm.trans activity

end Setback

/-! ### An election entered too late -/

structure Belated (terms : BucketTerms) (before : List FleetEvent) (id : Nat) (joining : Fleet)
    (replica : Replica) (event : FleetEvent) (new : Nat) (start : Fleet) : Prop where
  ran : (opening terms).steps? before = some joining
  found : joining.replicas[id]? = some replica
  gone : joining.contest.isCancelled replica.assignment.context = true
  enters : joining.entered id event = [new]
  stepped : joining.step? event = some start

inductive Farewell (new : Nat) (replica : Replica) : Prop
  | leaving (term : Term) (activity : replica.activity = .watching term) (own : term.member = new)
      (idle : term.leading = false)
  | returned (status : Status) (activity : replica.activity = .done (.ok status))
      (mild : status = .stopped ∨ status = .cancelled)
  | broken (activity : replica.activity = .crashed ∨ replica.activity = .aborted)

structure Vain (start : Fleet) (id new : Nat) (events : List FleetEvent) (fleet : Fleet)
    (replica : Replica) : Prop where
  farewell : Farewell new replica
  last : start.elections id events = []
  silent : fleet.contest.issuedBy new = []
  unworked : fleet.reconcilesOf id = start.reconcilesOf id
  reports : ∃ member, fleet.contest.members[new]? = some member ∧
    ∀ outcome ∈ member.candidate.reports, outcome = .stopped ∨ outcome = .cancelled
  finished : fleet.quiet = true → replica.isOver = true

theorem told_of_stillborn {contest : Contest} {member : Member} {outcome : Outcome}
    (stillborn : contest.Stillborn member) (told : outcome ∈ member.candidate.reports) :
    outcome = .stopped ∨ outcome = .cancelled := by
  rcases stillborn.idle with ⟨_, none⟩ | ⟨_, none | ⟨farewell, mild, only⟩⟩
  · rw [none] at told
    cases told
  · rw [none] at told
    cases told
  · rw [only] at told
    rw [List.mem_singleton.mp told]
    exact mild

theorem ReplicaStep.going {branch : Branch} {candidate : CandidateName} {activity : Activity}
    {contest : Contest} (step : fleet.ReplicaStep replica branch candidate activity contest) :
    replica.isOver = false := by
  cases step with
  | refused _ _ activity | crashed _ activity | joined _ activity | heard _ _ _ _ _ activity
  | failed _ _ _ _ activity | ended _ _ _ _ activity | unheard _ _ _ activity
  | heeded _ _ activity | reconciled _ _ _ activity | resumed _ _ _ activity | gaveUp _ _ activity
  | rejoined _ _ activity =>
      rw [Replica.isOver, activity]

theorem Farewell.leaving_of_going {new : Nat} (farewell : Farewell new replica)
    (going : replica.isOver = false) :
    ∃ term, replica.activity = .watching term ∧ term.member = new ∧ term.leading = false := by
  cases farewell with
  | leaving term activity own idle => exact ⟨term, activity, own, idle⟩
  | returned _ activity =>
      rw [Replica.isOver, activity] at going
      cases going
  | broken either =>
      rcases either with activity | activity <;>
      · rw [Replica.isOver, activity] at going
        cases going

theorem Farewell.effect {new : Nat} {member : Member} (farewell : Farewell new replica)
    (seated : fleet.contest.members[new]? = some member) (stillborn : fleet.contest.Stillborn member)
    (effect : fleet.ReplicaEffect id replica event next after) :
    Farewell new after ∧ fleet.entered id event = [] ∧
      next.reconcilesOf id = fleet.reconcilesOf id := by
  cases effect with
  | aside _ _ _ _ _ unentered unworked => exact ⟨farewell, unentered, unworked⟩
  | broken => exact ⟨.broken (Or.inr rfl), rfl, rfl⟩
  | proceeded branch candidate duration activity contest named step =>
      obtain ⟨term, activity, rfl, idle⟩ := farewell.leaving_of_going step.going
      have watched {own : Term} {rival : Member} {outcome : Outcome}
          (watching : replica.activity = .watching own)
          (was : fleet.contest.members[own.member]? = some rival)
          (report : rival.candidate.reports[own.heard]? = some outcome) :
          outcome = .stopped ∨ outcome = .cancelled := by
        cases activity.symm.trans watching
        cases seated.symm.trans was
        exact told_of_stillborn stillborn (List.mem_of_getElem? report)
      cases step with
      | refused _ _ joining | crashed _ joining | joined _ joining =>
          cases activity.symm.trans joining
      | resumed _ _ _ reconciling => cases activity.symm.trans reconciling
      | gaveUp _ _ waits | rejoined _ _ waits => cases activity.symm.trans waits
      | heard _ own _ outcome _ watching was report mild =>
          rcases watched watching was report with rfl | rfl <;> cases mild
      | failed _ own _ cause watching was report =>
          rcases watched watching was report with never | never <;> cases never
      | ended _ own _ outcome watching was report =>
          refine ⟨?_, rfl, rfl⟩
          rcases watched watching was report with rfl | rfl
          · exact .returned .stopped rfl (Or.inl rfl)
          · exact .returned .cancelled rfl (Or.inr rfl)
      | unheard => exact ⟨.returned .stopped rfl (Or.inl rfl), rfl, rfl⟩
      | heeded _ own watching =>
          cases activity.symm.trans watching
          exact ⟨.leaving _ rfl rfl idle, rfl, rfl⟩
      | reconciled _ _ own watching leads =>
          cases activity.symm.trans watching
          cases idle.symm.trans leads

/-- An election that was interrupted before its first call is over before time passes, and so is the
replica in it. -/
theorem Farewell.over_of_quiet {new : Nat} {member : Member} (farewell : Farewell new replica)
    (found : fleet.replicas[id]? = some replica)
    (seated : fleet.contest.members[new]? = some member) (stillborn : fleet.contest.Stillborn member)
    (quiet : fleet.quiet = true) : replica.isOver = true := by
  by_contra going
  obtain ⟨term, activity, rfl, _⟩ := farewell.leaving_of_going (Bool.not_eq_true _ ▸ going)
  rcases stillborn.idle with ⟨between, _⟩ | ⟨ended, _⟩
  · exact Contest.not_between_of_quiet (Bool.and_eq_true_iff.mp quiet).1 seated
      stillborn.interrupted between
  · exact not_offer_of_quiet quiet found
      (.hear term member activity seated (Or.inr (Candidate.closed_of_ended ended)))

structure Doomed (start : Fleet) (id new : Nat) (events : List FleetEvent) (fleet : Fleet)
    (replica : Replica) (member : Member) : Prop where
  farewell : Farewell new replica
  seated : fleet.contest.members[new]? = some member
  stillborn : fleet.contest.Stillborn member
  silent : fleet.contest.issuedBy new = []
  last : start.elections id events = []
  unworked : fleet.reconcilesOf id = start.reconcilesOf id

theorem Doomed.step {new : Nat} {member : Member} {elections : Nat → List Nat}
    (doomed : start.Doomed id new done fleet replica member) (careers : fleet.Careers elections)
    (ran : start.steps? done = some fleet) (stepped : fleet.step? event = some next)
    (found : fleet.replicas[id]? = some replica) :
    ∃ after guest, next.replicas[id]? = some after ∧
      start.Doomed id new (done ++ [event]) next after guest := by
  have happened := eventEffect_of_step? stepped
  obtain ⟨after, there, effect⟩ := careers.effect happened found
  obtain ⟨asked, onward⟩ := happened.onward
  obtain ⟨guest, seated, stillborn⟩ := onward.stillborn new member doomed.seated doomed.stillborn
  have silent := onward.silent new member doomed.seated (Or.inl doomed.stillborn.interrupted)
  obtain ⟨farewell, unentered, unworked⟩ := doomed.farewell.effect doomed.seated doomed.stillborn effect
  refine ⟨after, guest, there, farewell, seated, stillborn, silent.trans doomed.silent, ?_,
    unworked.trans doomed.unworked⟩
  rw [elections_concat ran, doomed.last, unentered]
  rfl

namespace Belated

variable {joining : Fleet} {new : Nat}

/-- The new election has been interrupted before its first call. -/
theorem doomed (belated : Belated terms before id joining replica event new start) :
    ∃ waiter member, start.replicas[id]? = some waiter ∧
      start.Doomed id new [] start waiter member := by
  obtain ⟨candidate, duration, rfl, rfl⟩ := event_of_entered belated.enters
  obtain ⟨same, activity, contest, found, _, step, rfl⟩ := replicaStep_of_step? belated.stepped
  cases belated.found.symm.trans found
  have seated := (careers_of_run belated.ran).seated
  let context := replica.assignment.context
  have there := joining.contest.found_seat (replica.assignment.standing candidate) context
  have fresh := Contest.stillborn_seat (replica.assignment.standing candidate) belated.gone
  have silent := joining.contest.issuedBy_seat (replica.assignment.standing candidate) context seated
  cases step with
  | refused _ _ _ refused =>
      have never := belated.enters
      rw [entered_of_refused found refused] at never
      cases never
  | crashed _ _ accepted =>
      have onward := Contest.onward_leave (joining.contest.seat
        (replica.assignment.standing candidate) context) joining.contest.members.length
      obtain ⟨later, still, stillborn⟩ := onward.stillborn _ _ there fresh
      exact ⟨_, later, found_advance found, .broken (Or.inl rfl), still, stillborn,
        (onward.silent _ _ there (Or.inl fresh.interrupted)).trans silent, rfl, rfl⟩
  | joined _ _ accepted =>
      exact ⟨_, _, found_advance found, .leaving _ rfl rfl rfl, there, fresh, silent, rfl, rfl⟩

theorem ran_start (belated : Belated terms before id joining replica event new start) :
    (opening terms).steps? (before ++ [event]) = some start := by
  rw [steps?_append belated.ran, steps?_cons belated.stepped]
  rfl

theorem vain_of_run (belated : Belated terms before id joining replica event new start)
    (run : start.steps? events = some last) (found : last.replicas[id]? = some after) :
    start.Vain id new events last after := by
  have began := belated.ran_start
  obtain ⟨same, member, again, doomed⟩ := Runs.induct
    (motive := fun events last => ∃ later member, last.replicas[id]? = some later ∧
      start.Doomed id new events last later member) belated.doomed
    (fun events fleet event next ran ih stepped => by
      obtain ⟨later, member, there, doomed⟩ := ih
      have careers := careers_of_run ((steps?_append began events).trans ran)
      exact doomed.step careers ran stepped there)
    events run
  obtain rfl := Option.some.inj (found.symm.trans again)
  exact ⟨doomed.farewell, doomed.last, doomed.silent, doomed.unworked,
    ⟨member, doomed.seated, fun _ told => told_of_stillborn doomed.stillborn told⟩,
    doomed.farewell.over_of_quiet found doomed.seated doomed.stillborn⟩

end Belated

end Fleet

end Leasehold
