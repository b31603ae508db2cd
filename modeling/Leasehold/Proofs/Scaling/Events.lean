import Leasehold.Proofs.Contest.Onward
import Leasehold.Proofs.Scaling.Shift

set_option autoImplicit false

/-!
Fleets before a store that may answer anything at any time, and what a replica does in one step.

`Fleet.step?` adds to the actions of a fleet the answers that a store may dictate. Nobody but a
replica gives up the election that it is in, and the names on the ballot are not empty.
`Fleet.ReplicaStep` lists what a replica can do, with the guard under which it does it.
-/

namespace Leasehold

inductive FleetEvent where
  | act (action : FleetAction)
  /-- The store answers the call of a member that is under way as it likes. -/
  | dictate (member : Nat) (answer : Except StoreError Entry)

namespace Assignment

def standing (assignment : Assignment) (candidate : CandidateName) : Candidacy :=
  { assignment.candidacy with candidate }

def verdict (assignment : Assignment) : Outcome → Except ReplicaError Status
  | .error cause => .error ⟨assignment.function, .store cause⟩
  | outcome => .ok outcome.status

end Assignment

namespace Fleet

/-- The names on the ballot are not empty, and only a replica itself gives up the election it is in. -/
def admits (fleet : Fleet) : FleetAction → Bool
  | .proceed _ .join candidate _ => candidate.text ≠ ""
  | .among action =>
      fleet.replicas.all fun replica => replica.term?.all fun term => action.asked? ≠ some term.member
  | _ => true

def step? (fleet : Fleet) : FleetEvent → Option Fleet
  | .act action => if fleet.admits action then fleet.act? action else none
  | .dictate member answer => some { fleet with contest := fleet.contest.dictate member answer }

def steps? (fleet : Fleet) (events : List FleetEvent) : Option Fleet :=
  events.foldlM step? fleet

variable {fleet next : Fleet} {id : Nat} {replica : Replica} {branch : Branch}
  {candidate : CandidateName} {duration : Nat}

/-! ### Branches that are open -/

inductive Offer (fleet : Fleet) (replica : Replica) : Branch → Prop
  | join (joining : replica.activity = .joining) : Offer fleet replica .join
  | hear (term : Term) (member : Member) (watching : replica.activity = .watching term)
      (seated : fleet.contest.members[term.member]? = some member)
      (news : term.heard < member.candidate.reports.length ∨ member.candidate.closed = true) :
      Offer fleet replica .hear
  | heed (term : Term) (watching : replica.activity = .watching term)
      (gone : fleet.contest.isCancelled replica.assignment.context = true)
      (heedless : term.stopping = false) : Offer fleet replica .heed
  | reconcile (term : Term) (watching : replica.activity = .watching term)
      (leads : term.leading = true) (due : term.ticker.due ≤ fleet.contest.now) :
      Offer fleet replica .reconcile
  | resume (term : Term) (doneAt : Nat) (reconciling : replica.activity = .reconciling term doneAt)
      (due : doneAt ≤ fleet.contest.now) : Offer fleet replica .resume
  | giveUp (resumeAt : Nat) (waiting : replica.activity = .backingOff resumeAt)
      (gone : fleet.contest.isCancelled replica.assignment.context = true) :
      Offer fleet replica .giveUp
  | rejoin (resumeAt : Nat) (waiting : replica.activity = .backingOff resumeAt)
      (due : resumeAt ≤ fleet.contest.now) : Offer fleet replica .rejoin

theorem mem_of_ite {other : Branch} {guard : Prop} [Decidable guard]
    (offered : branch ∈ if guard then [other] else []) : branch = other ∧ guard := by
  split at offered
  · rename_i allowed
    exact ⟨List.mem_singleton.mp offered, allowed⟩
  · cases offered

theorem offer_of_branch (offered : branch ∈ fleet.branches replica) : fleet.Offer replica branch := by
  cases activity : replica.activity with
  | joining =>
      simp only [branches, Replica.branches, activity, List.mem_singleton] at offered
      subst offered
      exact .join activity
  | watching term =>
      rw [branches, Replica.term?, Replica.branches, activity] at offered
      rcases List.mem_append.mp offered with early | due
      · rcases List.mem_append.mp early with news | gone
        · obtain ⟨rfl, told⟩ := mem_of_ite news
          simp only [Option.bind_some, candidate?, Option.any_map, Option.any_eq_true,
            Bool.or_eq_true, decide_eq_true_eq] at told
          obtain ⟨member, seated, told⟩ := told
          exact .hear term member activity seated told
        · obtain ⟨rfl, both⟩ := mem_of_ite gone
          obtain ⟨cancelled, heedless⟩ := Bool.and_eq_true_iff.mp both
          exact .heed term activity cancelled (Bool.not_eq_true' _ |>.mp heedless)
      · obtain ⟨rfl, both⟩ := mem_of_ite due
        obtain ⟨leads, ticks⟩ := Bool.and_eq_true_iff.mp both
        exact .reconcile term activity leads (of_decide_eq_true ticks)
  | reconciling term doneAt =>
      rw [branches, Replica.branches, activity] at offered
      obtain ⟨rfl, due⟩ := mem_of_ite offered
      exact .resume term doneAt activity due
  | backingOff resumeAt =>
      rw [branches, Replica.branches, activity] at offered
      rcases List.mem_append.mp offered with gone | due
      · obtain ⟨rfl, cancelled⟩ := mem_of_ite gone
        exact .giveUp resumeAt activity cancelled
      · obtain ⟨rfl, late⟩ := mem_of_ite due
        exact .rejoin resumeAt activity late
  | done | crashed | aborted =>
      rw [branches, Replica.branches, activity] at offered
      cases offered

theorem branch_of_offer (offer : fleet.Offer replica branch) : branch ∈ fleet.branches replica := by
  cases offer with
  | join joining => simp [branches, Replica.branches, joining]
  | hear term member watching seated news =>
      simp [branches, Replica.branches, Replica.term?, watching, candidate?, seated, news]
  | heed term watching gone heedless => simp [branches, Replica.branches, watching, gone, heedless]
  | reconcile term watching leads due =>
      simp [branches, Replica.branches, watching, leads, Ticker.isDue, due]
  | resume term doneAt reconciling due => simp [branches, Replica.branches, reconciling, due]
  | giveUp resumeAt waiting gone => simp [branches, Replica.branches, waiting, gone]
  | rejoin resumeAt waiting due => simp [branches, Replica.branches, waiting, due]

theorem not_offer_of_quiet (quiet : fleet.quiet = true) (found : fleet.replicas[id]? = some replica) :
    ¬fleet.Offer replica branch := by
  intro offer
  have idle : fleet.branches replica = [] := List.isEmpty_iff.mp
    (List.all_eq_true.mp (Bool.and_eq_true_iff.mp quiet).2 replica (List.mem_of_getElem? found))
  have able := branch_of_offer offer
  rw [idle] at able
  cases able

/-- What a replica can be doing when nobody has anything to do before the clock moves. -/
inductive AtRest (fleet : Fleet) (replica : Replica) : Prop
  | finished (finished : replica.isOver = true)
  | watching (term : Term) (activity : replica.activity = .watching term)
      (unclosed : ∀ member, fleet.contest.members[term.member]? = some member →
        member.candidate.closed = false)
  | reconciling (term : Term) (doneAt : Nat) (activity : replica.activity = .reconciling term doneAt)
  | backingOff (resumeAt : Nat) (activity : replica.activity = .backingOff resumeAt)
      (going : fleet.contest.isCancelled replica.assignment.context = false)

theorem at_rest_of_quiet (quiet : fleet.quiet = true) (found : fleet.replicas[id]? = some replica) :
    fleet.AtRest replica := by
  cases activity : replica.activity with
  | joining => exact absurd (.join activity) (not_offer_of_quiet quiet found)
  | watching term =>
      refine .watching term activity fun member seated => ?_
      by_contra closed
      exact not_offer_of_quiet quiet found
        (.hear term member activity seated (Or.inr (Bool.not_eq_false _ ▸ closed)))
  | reconciling term doneAt => exact .reconciling term doneAt activity
  | backingOff resumeAt =>
      refine .backingOff resumeAt activity ?_
      by_contra gone
      exact not_offer_of_quiet quiet found (.giveUp resumeAt activity (Bool.not_eq_false _ ▸ gone))
  | done result | crashed | aborted => exact .finished (by rw [Replica.isOver, activity])

/-! ### What a replica does -/

/-- What a replica does along a branch that is open to it: what it goes on with, and what becomes of
the elections. -/
inductive ReplicaStep (fleet : Fleet) (replica : Replica) :
    Branch → CandidateName → Activity → Contest → Prop
  | refused (candidate : CandidateName) (cause : ElectionError)
      (joining : replica.activity = .joining)
      (refused : (replica.assignment.standing candidate).accept fleet.contest.bucket.terms =
        .error cause) :
      ReplicaStep fleet replica .join candidate (.done (.error ⟨replica.assignment.function, cause⟩))
        fleet.contest
  | crashed (candidate : CandidateName) (joining : replica.activity = .joining)
      (accepted : (replica.assignment.standing candidate).accept fleet.contest.bucket.terms = .ok ())
      (still : replica.assignment.settings.scaleInterval = 0) :
      ReplicaStep fleet replica .join candidate .crashed
        ((fleet.contest.seat (replica.assignment.standing candidate)
          replica.assignment.context).leave fleet.contest.members.length)
  | joined (candidate : CandidateName) (joining : replica.activity = .joining)
      (accepted : (replica.assignment.standing candidate).accept fleet.contest.bucket.terms = .ok ())
      (paced : replica.assignment.settings.scaleInterval ≠ 0) :
      ReplicaStep fleet replica .join candidate
        (.watching { member := fleet.contest.members.length,
                     ticker := .fromNow fleet.contest.now replica.assignment.settings.scaleInterval })
        (fleet.contest.seat (replica.assignment.standing candidate) replica.assignment.context)
  | heard (candidate : CandidateName) (term : Term) (member : Member) (outcome : Outcome)
      (ticker : Ticker) (watching : replica.activity = .watching term)
      (seated : fleet.contest.members[term.member]? = some member)
      (report : member.candidate.reports[term.heard]? = some outcome)
      (mild : outcome.isTerminal = false) :
      ReplicaStep fleet replica .hear candidate
        (.watching { term with heard := term.heard + 1, leading := outcome == .won, ticker })
        fleet.contest
  | failed (candidate : CandidateName) (term : Term) (member : Member) (cause : StoreError)
      (watching : replica.activity = .watching term)
      (seated : fleet.contest.members[term.member]? = some member)
      (report : member.candidate.reports[term.heard]? = some (.error cause))
      (again : replica.assignment.settings.recreateOnError = true) :
      ReplicaStep fleet replica .hear candidate
        (.backingOff (fleet.contest.now + replica.assignment.settings.retryDelay))
        (fleet.contest.leave term.member)
  | ended (candidate : CandidateName) (term : Term) (member : Member) (outcome : Outcome)
      (watching : replica.activity = .watching term)
      (seated : fleet.contest.members[term.member]? = some member)
      (report : member.candidate.reports[term.heard]? = some outcome)
      (terminal : outcome.isTerminal = true)
      (final : ∀ cause, outcome = .error cause →
        replica.assignment.settings.recreateOnError = false) :
      ReplicaStep fleet replica .hear candidate (.done (replica.assignment.verdict outcome))
        (fleet.contest.leave term.member)
  /-- The reports have been closed without an ending. -/
  | unheard (candidate : CandidateName) (term : Term) (member : Member)
      (watching : replica.activity = .watching term)
      (seated : fleet.contest.members[term.member]? = some member)
      (all : member.candidate.reports.length ≤ term.heard)
      (closed : member.candidate.closed = true) :
      ReplicaStep fleet replica .hear candidate (.done (.ok .stopped)) (fleet.contest.leave term.member)
  | heeded (candidate : CandidateName) (term : Term) (watching : replica.activity = .watching term)
      (gone : fleet.contest.isCancelled replica.assignment.context = true) :
      ReplicaStep fleet replica .heed candidate (.watching { term with stopping := true })
        (fleet.contest.stop term.member)
  | reconciled (candidate : CandidateName) (duration : Nat) (term : Term)
      (watching : replica.activity = .watching term) (leads : term.leading = true) :
      ReplicaStep fleet replica .reconcile candidate
        (.reconciling { term with ticker := term.ticker.take fleet.contest.now }
          (fleet.contest.now + duration))
        fleet.contest
  | resumed (candidate : CandidateName) (term : Term) (doneAt : Nat)
      (reconciling : replica.activity = .reconciling term doneAt) :
      ReplicaStep fleet replica .resume candidate (.watching term) fleet.contest
  | gaveUp (candidate : CandidateName) (resumeAt : Nat)
      (waiting : replica.activity = .backingOff resumeAt)
      (gone : fleet.contest.isCancelled replica.assignment.context = true) :
      ReplicaStep fleet replica .giveUp candidate (.done (.ok .cancelled)) fleet.contest
  | rejoined (candidate : CandidateName) (resumeAt : Nat)
      (waiting : replica.activity = .backingOff resumeAt) (due : resumeAt ≤ fleet.contest.now) :
      ReplicaStep fleet replica .rejoin candidate .joining fleet.contest

def advance (fleet : Fleet) (id : Nat) (replica : Replica) (branch? : Option Branch)
    (activity : Activity) (contest : Contest) : Fleet :=
  { fleet.put id replica activity with
    contest
    reconciles :=
      if branch? = some .reconcile then ⟨id, fleet.contest.now⟩ :: fleet.reconciles
      else fleet.reconciles
    endings :=
      if Replica.isOver { replica with activity } then fleet.endings ++ [id] else fleet.endings }

theorem conclude_eq_put (found : fleet.replicas[id]? = some replica) (activity : Activity) :
    fleet.conclude id activity =
      { fleet.put id replica activity with endings := fleet.endings ++ [id] } := by
  rw [conclude, setActivity_eq_put found]

private theorem replicaStep_of_join (found : fleet.replicas[id]? = some replica)
    (joining : replica.activity = .joining) :
    ∃ activity contest, fleet.ReplicaStep replica .join candidate activity contest ∧
      fleet.join id replica.assignment candidate =
        fleet.advance id replica (some .join) activity contest := by
  simp only [join, Contest.nominate]
  cases stands : (replica.assignment.standing candidate).accept fleet.contest.bucket.terms with
  | error cause =>
      refine ⟨_, _, .refused candidate cause joining stands, ?_⟩
      rw [show Candidacy.accept { replica.assignment.candidacy with candidate } _ = .error cause
        from stands]
      simp only [bind, Except.bind, conclude_eq_put found]
      rfl
  | ok accepted =>
      rw [show Candidacy.accept { replica.assignment.candidacy with candidate } _ = .ok ()
        from stands]
      simp only [bind, Except.bind, Contest.start_of_newcomer]
      split
      · rename_i still
        refine ⟨_, _, .crashed candidate joining stands still, ?_⟩
        rw [@conclude_eq_put (leave { fleet with contest := fleet.contest.seat _ _ } _) id replica
          found]
        rfl
      · rename_i paced
        refine ⟨_, _, .joined candidate joining stands paced, ?_⟩
        rw [@setActivity_eq_put { fleet with contest := fleet.contest.seat _ _ } id replica found]
        rfl

private theorem replicaStep_of_hear {term : Term} {member : Member}
    (found : fleet.replicas[id]? = some replica) (watching : replica.activity = .watching term)
    (seated : fleet.contest.members[term.member]? = some member)
    (news : term.heard < member.candidate.reports.length ∨ member.candidate.closed = true) :
    ∃ activity contest, fleet.ReplicaStep replica .hear candidate activity contest ∧
      fleet.hear id replica.assignment term =
        fleet.advance id replica (some .hear) activity contest := by
  have left (activity : Activity) : (fleet.leave term.member).conclude id activity =
      { fleet.put id replica activity with
        contest := fleet.contest.leave term.member
        endings := fleet.endings ++ [id] } :=
    @conclude_eq_put (fleet.leave term.member) id replica found activity
  simp only [hear, candidate?, seated, Option.map_some, Option.bind_some]
  cases report : member.candidate.reports[term.heard]? with
  | none =>
      have all := List.getElem?_eq_none_iff.mp report
      have closed := news.resolve_left (Nat.not_lt.mpr all)
      refine ⟨_, _, .unheard candidate term member watching seated all closed, ?_⟩
      simp only [close, left]
      rfl
  | some outcome =>
      cases outcome with
      | won =>
          refine ⟨_, _, .heard candidate term member .won (term.ticker.reset fleet.contest.now)
            watching seated report rfl, ?_⟩
          simp only [setActivity_eq_put found]
          rfl
      | lost =>
          refine ⟨_, _, .heard candidate term member .lost term.ticker watching seated report rfl, ?_⟩
          simp only [setActivity_eq_put found]
          rfl
      | error cause =>
          simp only [close]
          split
          · rename_i again
            refine ⟨_, _, .failed candidate term member cause watching seated report again, ?_⟩
            rw [@setActivity_eq_put (fleet.leave term.member) id replica found]
            rfl
          · rename_i final
            refine ⟨_, _, .ended candidate term member (.error cause) watching seated report rfl
              fun _ _ => Bool.eq_false_iff.mpr final, ?_⟩
            rw [left]
            rfl
      | cancelled | stopped =>
          refine ⟨_, _, .ended candidate term member _ watching seated report rfl
            (fun _ => Outcome.noConfusion), ?_⟩
          simp only [close, left]
          rfl

theorem replicaStep_of_offer (found : fleet.replicas[id]? = some replica)
    (offer : fleet.Offer replica branch) :
    ∃ activity contest, fleet.ReplicaStep replica branch candidate activity contest ∧
      fleet.proceed id branch candidate duration =
        fleet.advance id replica (some branch) activity contest := by
  cases offer with
  | join joining =>
      simp only [proceed, found, joining]
      exact replicaStep_of_join found joining
  | hear term member watching seated news =>
      simp only [proceed, found, watching]
      exact replicaStep_of_hear found watching seated news
  | heed term watching gone =>
      refine ⟨_, _, .heeded candidate term watching gone, ?_⟩
      simp only [proceed, found, watching, setActivity_eq_put found]
      rfl
  | reconcile term watching leads =>
      refine ⟨_, _, .reconciled candidate duration term watching leads, ?_⟩
      simp only [proceed, found, watching, setActivity_eq_put found]
      rfl
  | resume term doneAt reconciling =>
      refine ⟨_, _, .resumed candidate term doneAt reconciling, ?_⟩
      simp only [proceed, found, reconciling, setActivity_eq_put found]
      rfl
  | giveUp resumeAt waiting gone =>
      refine ⟨_, _, .gaveUp candidate resumeAt waiting gone, ?_⟩
      simp only [proceed, found, waiting, conclude_eq_put found]
      rfl
  | rejoin resumeAt waiting due =>
      refine ⟨_, _, .rejoined candidate resumeAt waiting due, ?_⟩
      simp only [proceed, found, waiting, setActivity_eq_put found]
      rfl

/-! ### What an event is for a fleet -/

def entered (fleet : Fleet) (id : Nat) : FleetEvent → List Nat
  | .act (.proceed other .join candidate _) =>
      if other = id ∧ (fleet.replicas[id]?).any fun replica =>
          ((replica.assignment.standing candidate).accept fleet.contest.bucket.terms).isOk then
        [fleet.contest.members.length]
      else []
  | _ => []

inductive EventEffect (fleet : Fleet) : FleetEvent → Fleet → Prop
  /-- Something happens among the elections, and none that a replica is in is asked for anything. -/
  | drifted (event : FleetEvent) (asked : Option Nat) (contest : Contest)
      (unentered : ∀ id, fleet.entered id event = []) (onward : fleet.contest.Onward asked contest)
      (untouched : ∀ replica ∈ fleet.replicas, ∀ term, replica.term? = some term →
        asked ≠ some term.member)
      (clock : contest.now = fleet.contest.now) :
      EventEffect fleet event { fleet with contest }
  | passed (instant : Nat) (contest : Contest) (quiet : fleet.quiet = true)
      (later : fleet.contest.now ≤ contest.now)
      (awake : ∀ replica ∈ fleet.replicas, ∀ wake, replica.wakeAt? = some wake →
        contest.now ≤ wake)
      (onward : fleet.contest.Onward none contest) :
      EventEffect fleet (.act (.passTo instant)) { fleet with contest }
  | grown (action : FleetAction) (recruits : List Replica)
      (unentered : ∀ id, fleet.entered id (.act action) = [])
      (fresh : ∀ recruit ∈ recruits, recruit.activity = .joining) :
      EventEffect fleet (.act action) { fleet with replicas := fleet.replicas ++ recruits }
  | ignored (id : Nat) : EventEffect fleet (.act (.abort id)) fleet
  | proceeded (id : Nat) (replica : Replica) (branch : Branch) (candidate : CandidateName)
      (duration : Nat) (activity : Activity) (contest : Contest)
      (found : fleet.replicas[id]? = some replica) (named : branch = .join → candidate.text ≠ "")
      (step : fleet.ReplicaStep replica branch candidate activity contest) :
      EventEffect fleet (.act (.proceed id branch candidate duration))
        (fleet.advance id replica (some branch) activity contest)
  | broken (id : Nat) (replica : Replica) (asked : Option Nat) (contest : Contest)
      (found : fleet.replicas[id]? = some replica) (going : replica.isOver = false)
      (onward : fleet.contest.Onward asked contest)
      (own : ∀ member, asked = some member → ∃ term, replica.term? = some term ∧
        term.member = member)
      (clock : contest.now = fleet.contest.now) :
      EventEffect fleet (.act (.abort id)) (fleet.advance id replica none .aborted contest)

private theorem eventEffect_of_abort (id : Nat) :
    fleet.EventEffect (.act (.abort id)) (fleet.abort id) := by
  unfold abort
  split
  · exact .ignored id
  · rename_i replica found
    split
    · exact .ignored id
    · rename_i finished
      have going : replica.isOver = false := Bool.eq_false_iff.mpr finished
      cases current : replica.term? with
      | none =>
          have broken : fleet.conclude id .aborted =
              fleet.advance id replica none .aborted fleet.contest := by
            rw [conclude_eq_put found]
            rfl
          simp only [broken]
          exact .broken id replica none fleet.contest found going (.refl fleet.contest none)
            (fun _ never => (nomatch never)) rfl
      | some term =>
          have broken : (fleet.leave term.member).conclude id .aborted =
              fleet.advance id replica none .aborted (fleet.contest.leave term.member) := by
            rw [@conclude_eq_put (fleet.leave term.member) id replica found]
            rfl
          simp only [broken]
          refine .broken id replica (some term.member) _ found going
            (Contest.onward_leave fleet.contest term.member) ?_ rfl
          rintro member ⟨⟩
          exact ⟨term, current, rfl⟩

theorem replicaStep_of_act? (admitted : fleet.admits (.proceed id branch candidate duration) = true)
    (acted : fleet.act? (.proceed id branch candidate duration) = some next) :
    ∃ replica activity contest, fleet.replicas[id]? = some replica ∧
      (branch = .join → candidate.text ≠ "") ∧
      fleet.ReplicaStep replica branch candidate activity contest ∧
      next = fleet.advance id replica (some branch) activity contest := by
  simp only [act?] at acted
  split at acted
  · rename_i able
    cases found : fleet.replicas[id]? with
    | none =>
        rw [found] at able
        cases able
    | some replica =>
        rw [found] at able
        cases acted
        have offer := offer_of_branch (of_decide_eq_true able)
        obtain ⟨activity, contest, step, after⟩ :=
          @replicaStep_of_offer fleet id replica branch candidate duration found offer
        refine ⟨replica, activity, contest, rfl, ?_, step, after⟩
        rintro rfl
        exact of_decide_eq_true admitted
  · cases acted

private theorem eventEffect_of_act? {action : FleetAction} (admitted : fleet.admits action = true)
    (acted : fleet.act? action = some next) : fleet.EventEffect (.act action) next := by
  cases action with
  | add assignment =>
      cases acted
      refine .grown _ _ (fun _ => rfl) ?_
      intro recruit present
      rw [List.mem_singleton.mp present]
  | spawn settings context =>
      simp only [act?, spawn, foldl_add, Option.some.injEq] at acted
      subst acted
      refine .grown _ _ (fun _ => rfl) ?_
      intro recruit present
      obtain ⟨function, _, rfl⟩ := List.mem_map.mp present
      rfl
  | proceed id branch candidate duration =>
      obtain ⟨replica, activity, contest, found, named, step, rfl⟩ :=
        replicaStep_of_act? admitted acted
      exact .proceeded id replica branch candidate duration activity contest found named step
  | abort id =>
      cases acted
      exact eventEffect_of_abort id
  | among action =>
      obtain ⟨contest, stands, happened, rfl⟩ := among_of_act? acted
      have turn := Contest.turn_of_act? happened
      refine .drifted _ action.asked? contest (fun _ => rfl) turn.onward ?_ (turn.stands stands)
      intro replica present term current
      have unasked := List.all_eq_true.mp admitted replica present
      rw [current] at unasked
      exact of_decide_eq_true unasked
  | passTo instant =>
      obtain ⟨contest, quiet, happened, after⟩ := passed_of_act? acted
      simp only [act?, passTo?] at acted
      split at acted
      · rename_i allowed
        simp only [Bool.and_eq_true, decide_eq_true_eq] at allowed
        obtain ⟨⟨_, later⟩, awake⟩ := allowed
        cases acted
        cases after
        refine .passed instant _ quiet later ?_ (Contest.turn_of_act? happened).onward
        intro replica present wake wakes
        exact Contest.le_of_min? awake
          (List.mem_append_right _ (List.mem_filterMap.mpr ⟨replica, present, wakes⟩))
      · cases acted

theorem eventEffect_of_step? {event : FleetEvent} (stepped : fleet.step? event = some next) :
    fleet.EventEffect event next := by
  cases event with
  | act action =>
      simp only [step?] at stepped
      split at stepped
      · rename_i admitted
        exact eventEffect_of_act? admitted stepped
      · cases stepped
  | dictate member answer =>
      cases stepped
      exact .drifted _ none _ (fun _ => rfl) (Contest.onward_dictate fleet.contest member answer)
        (fun _ _ _ _ never => (nomatch never)) rfl

theorem replicaStep_of_step?
    (stepped : fleet.step? (.act (.proceed id branch candidate duration)) = some next) :
    ∃ replica activity contest, fleet.replicas[id]? = some replica ∧
      (branch = .join → candidate.text ≠ "") ∧
      fleet.ReplicaStep replica branch candidate activity contest ∧
      next = fleet.advance id replica (some branch) activity contest := by
  simp only [step?] at stepped
  split at stepped
  · rename_i admitted
    exact replicaStep_of_act? admitted stepped
  · cases stepped

end Fleet

end Leasehold
