import Leasehold.Proofs.Contest.Instant
import Leasehold.Proofs.Scaling.Shift

set_option autoImplicit false

/-!
A replica reconciles only under a lease of its own.

What a replica knows of its election may be out of date, but only by what has happened at this very
instant, for time does not pass over news that nobody has heard. So it is enough that the lease of a
leader outlives its election to the end of the instant (`Contest.Since`). The invariant is
`Fleet.Guarded`.
-/

namespace Leasehold

def Contest.Distinct (contest : Contest) (key : String) : Prop :=
  ∀ (id other : Nat) (member rival : Member), contest.members[id]? = some member →
    contest.members[other]? = some rival → member.key = key → rival.key = key →
    member.candidate.candidacy.candidate = rival.candidate.candidacy.candidate → id = other

/-- Third parties neither delete nor update the key, reconciles take no time, and each replica
contests the key of its function. -/
def FleetAction.Gentle (key : String) : FleetAction → Prop
  | .add assignment => assignment.Proper
  | .proceed _ .reconcile _ duration => duration = 0
  | .among action => action.Spares key
  | _ => True

namespace Contest

variable {contest next : Contest} {key : String} {id other : Nat}

theorem Distinct.before (distinct : next.Distinct key)
    (persist : ∀ (id : Nat) (member : Member), contest.members[id]? = some member →
      ∃ after, next.members[id]? = some after ∧
        after.candidate.candidacy = member.candidate.candidacy) : contest.Distinct key := by
  intro id other member rival found foundRival named namedRival same
  obtain ⟨after, foundAfter, terms⟩ := persist id member found
  obtain ⟨later, foundLater, termsRival⟩ := persist other rival foundRival
  refine distinct id other after later foundAfter foundLater
    ((congrArg Candidacy.key terms).trans named)
    ((congrArg Candidacy.key termsRival).trans namedRival) ?_
  rw [terms, termsRival]
  exact same

theorem Shows.unique (shown : contest.Shows key id) (shownToo : contest.Shows key other)
    (distinct : contest.Distinct key) : id = other := by
  obtain ⟨member, record, found, named, live, value⟩ := shown
  obtain ⟨rival, recordToo, foundRival, namedRival, liveToo, valueToo⟩ := shownToo
  rw [live] at liveToo
  cases liveToo
  apply distinct id other member rival found foundRival named namedRival
  have bytes : Text.encode member.candidate.candidacy.candidate.text =
      Text.encode rival.candidate.candidacy.candidate.text := value.symm.trans valueToo
  exact congrArg CandidateName.mk (Text.encode_inj.mp bytes)

theorem Shows.lt_length (shown : contest.Shows key id) : id < contest.members.length := by
  obtain ⟨_, _, found, _⟩ := shown
  exact (List.getElem?_eq_some_iff.mp found).1

end Contest

namespace Fleet

def Contends (replicas : List Replica) (key : String) (id : Nat) : Prop :=
  ∃ replica, replicas[id]? = some replica ∧ replica.assignment.candidacy.key = key

/-- What a replica knows of its election is true as far as it goes. -/
def Informed (contest : Contest) (replica : Replica) (term : Term) : Prop :=
  ∃ member, contest.members[term.member]? = some member ∧
    member.key = replica.assignment.candidacy.key ∧
    term.heard ≤ member.candidate.reports.length ∧
    (term.leading = true → (member.candidate.reports.take term.heard).getLast? = some .won)

def Covered (contest : Contest) (key : String) (term : Term) : Prop :=
  ∀ member, contest.members[term.member]? = some member → member.key = key →
    term.leading = true ∨ .won ∈ member.candidate.reports.drop term.heard →
    contest.Shows key term.member

structure Guarded (fleet : Fleet) (key : String) : Prop where
  informed : ∀ (id : Nat) (replica : Replica) (term : Term),
    fleet.replicas[id]? = some replica → replica.term? = some term →
    Informed fleet.contest replica term
  covered : ∀ (id : Nat) (replica : Replica) (term : Term),
    fleet.replicas[id]? = some replica → replica.term? = some term →
    Covered fleet.contest key term
  separate : ∀ (id other : Nat) (replica rival : Replica) (term reign : Term),
    fleet.replicas[id]? = some replica → fleet.replicas[other]? = some rival →
    replica.term? = some term → rival.term? = some reign → term.member = reign.member → id = other
  prompt : ∀ (id : Nat) (replica : Replica) (term : Term) (doneAt : Nat),
    fleet.replicas[id]? = some replica → replica.activity = .reconciling term doneAt →
    doneAt ≤ fleet.contest.now
  past : ∀ record ∈ fleet.reconciles,
    record.startedAt ≤ fleet.contest.now ∧ record.replica < fleet.replicas.length
  recent : ∀ record ∈ fleet.reconciles, record.startedAt = fleet.contest.now →
    Contends fleet.replicas key record.replica → ∃ shown, fleet.contest.Shows key shown ∧
      ∀ (id : Nat) (replica : Replica) (term : Term), fleet.replicas[id]? = some replica →
        replica.term? = some term → id ≠ record.replica → term.member ≠ shown
  apart : ∀ one ∈ fleet.reconciles, ∀ two ∈ fleet.reconciles, one.startedAt = two.startedAt →
    Contends fleet.replicas key one.replica → Contends fleet.replicas key two.replica →
    one.replica = two.replica

variable {fleet : Fleet} {key : String} {id : Nat} {replica : Replica} {term : Term}

/-! ### The contest goes on -/

theorem Informed.since {contest after : Contest} (informed : Informed contest replica term)
    (since : contest.Since key after) : Informed after replica term := by
  obtain ⟨member, found, named, heard, leading⟩ := informed
  obtain ⟨later, extra, foundLater, terms, reports, _⟩ := since.reported term.member member found
  refine ⟨later, foundLater, (congrArg Candidacy.key terms).trans named, ?_, ?_⟩
  · rw [reports, List.length_append]
    exact Nat.le_add_right_of_le heard
  · rw [reports, List.take_append_of_le_length heard]
    exact leading

theorem Covered.since {contest after : Contest} (covered : Covered contest key term)
    (informed : Informed contest replica term) (since : contest.Since key after) :
    Covered after key term := by
  intro later foundLater namedLater knows
  obtain ⟨member, found, _, heard, _⟩ := informed
  obtain ⟨same, extra, foundSame, terms, reports, won⟩ := since.reported term.member member found
  obtain rfl : later = same := Option.some.inj (foundLater.symm.trans foundSame)
  have named : member.key = key := (congrArg Candidacy.key terms).symm.trans namedLater
  have before (knows : term.leading = true ∨ .won ∈ member.candidate.reports.drop term.heard) :
      after.Shows key term.member := since.shows _ (covered member found named knows)
  rcases knows with leads | news
  · exact before (Or.inl leads)
  · rw [reports, List.drop_append_of_le_length heard] at news
    rcases List.mem_append.mp news with old | fresh
    · exact before (Or.inr old)
    · exact won fresh named

theorem contends_of_set {replicas : List Replica} {activity : Activity}
    (found : replicas[id]? = some replica) {other : Nat}
    (contends : Contends (replicas.set id { replica with activity }) key other) :
    Contends replicas key other := by
  obtain ⟨rival, foundRival, named⟩ := contends
  rcases Contest.found_in_set foundRival with ⟨rfl, rfl⟩ | ⟨_, was⟩
  · exact ⟨replica, found, named⟩
  · exact ⟨rival, was, named⟩

def Takes (fleet : Fleet) (replica : Replica) (term : Term) : Prop :=
  (∃ old, replica.term? = some old ∧ old.member = term.member) ∨
    fleet.contest.members.length ≤ term.member

theorem Guarded.takes_apart (guarded : fleet.Guarded key) {other : Nat} {rival : Replica}
    {reign : Term} (found : fleet.replicas[id]? = some replica) (takes : fleet.Takes replica term)
    (was : fleet.replicas[other]? = some rival) (serving : rival.term? = some reign)
    (apart : other ≠ id) : term.member ≠ reign.member := by
  intro same
  rcases takes with ⟨old, before, kept⟩ | fresh
  · apply apart
    exact guarded.separate other id rival replica reign old was found serving before
      (same.symm.trans kept.symm)
  · obtain ⟨member, seated, _⟩ := guarded.informed other rival reign was serving
    have inside := (List.getElem?_eq_some_iff.mp seated).1
    omega

theorem Guarded.replace {contest : Contest} {activity : Activity} {endings : List Nat}
    (guarded : fleet.Guarded key) (since : fleet.contest.Since key contest)
    (found : fleet.replicas[id]? = some replica)
    (claim : ∀ term, Replica.term? { replica with activity } = some term →
      Informed contest replica term ∧ Covered contest key term ∧ fleet.Takes replica term)
    (prompt : ∀ term doneAt, activity = .reconciling term doneAt → doneAt ≤ contest.now) :
    Guarded { fleet.put id replica activity with contest, endings } key where
  informed := by
    intro other rival reign foundRival current
    rcases Contest.found_in_set foundRival with ⟨rfl, rfl⟩ | ⟨_, was⟩
    · exact (claim reign current).1
    · exact (guarded.informed other rival reign was current).since since
  covered := by
    intro other rival reign foundRival current
    rcases Contest.found_in_set foundRival with ⟨rfl, rfl⟩ | ⟨_, was⟩
    · exact (claim reign current).2.1
    · have informed := guarded.informed other rival reign was current
      exact (guarded.covered other rival reign was current).since informed since
  separate := by
    intro one other first second term reign foundOne foundOther current serving same
    rcases Contest.found_in_set foundOne with ⟨rfl, rfl⟩ | ⟨apartOne, wasOne⟩
    · rcases Contest.found_in_set foundOther with ⟨rfl, rfl⟩ | ⟨apartOther, wasOther⟩
      · rfl
      · have takes := (claim term current).2.2
        exact absurd same (guarded.takes_apart found takes wasOther serving apartOther)
    · rcases Contest.found_in_set foundOther with ⟨rfl, rfl⟩ | ⟨_, wasOther⟩
      · have takes := (claim reign serving).2.2
        exact absurd same.symm (guarded.takes_apart found takes wasOne current apartOne)
      · exact guarded.separate one other first second term reign wasOne wasOther current serving same
  prompt := by
    intro other rival reign doneAt foundRival busy
    rcases Contest.found_in_set foundRival with ⟨rfl, rfl⟩ | ⟨_, was⟩
    · exact prompt reign doneAt busy
    · rw [since.clock]
      exact guarded.prompt other rival reign doneAt was busy
  past := by
    intro record done
    rw [since.clock]
    refine ⟨(guarded.past record done).1, ?_⟩
    rw [put, List.length_set]
    exact (guarded.past record done).2
  recent := by
    intro record done today contends
    rw [since.clock] at today
    obtain ⟨shown, shows, others⟩ :=
      guarded.recent record done today (contends_of_set found contends)
    refine ⟨shown, since.shows shown shows, ?_⟩
    intro other rival reign foundRival current apart
    rcases Contest.found_in_set foundRival with ⟨rfl, rfl⟩ | ⟨_, was⟩
    · rcases (claim reign current).2.2 with ⟨old, before, kept⟩ | fresh
      · exact kept ▸ others other replica old found before apart
      -- The name that is shown is that of an earlier member.
      · have inside := shows.lt_length
        omega
    · exact others other rival reign was current apart
  apart := by
    intro one done two doneToo same contends contendsToo
    exact guarded.apart one done two doneToo same (contends_of_set found contends)
      (contends_of_set found contendsToo)

theorem Guarded.since {contest : Contest} (guarded : fleet.Guarded key)
    (since : fleet.contest.Since key contest) : Guarded { fleet with contest } key where
  informed := fun id replica term found current =>
    (guarded.informed id replica term found current).since since
  covered := fun id replica term found current =>
    (guarded.covered id replica term found current).since
      (guarded.informed id replica term found current) since
  separate := guarded.separate
  prompt := by
    rw [since.clock]
    exact guarded.prompt
  past := by
    rw [since.clock]
    exact guarded.past
  recent := by
    intro record done today contends
    rw [since.clock] at today
    obtain ⟨shown, shows, others⟩ := guarded.recent record done today contends
    exact ⟨shown, since.shows shown shows, others⟩
  apart := guarded.apart

/-! ### New replicas, a new reconcile and the clock -/

theorem found_of_grown {replicas recruits : List Replica} (idle : ∀ recruit ∈ recruits,
    recruit.term? = none) (found : (replicas ++ recruits)[id]? = some replica)
    (current : replica.term? = some term) : replicas[id]? = some replica := by
  rw [List.getElem?_append] at found
  split at found
  · exact found
  · rw [idle replica (List.mem_of_getElem? found)] at current
    cases current

theorem Guarded.grow (guarded : fleet.Guarded key) {recruits : List Replica}
    (idle : ∀ recruit ∈ recruits, recruit.term? = none) :
    Guarded { fleet with replicas := fleet.replicas ++ recruits } key := by
  have contends {record : ReconcileRecord} (done : record ∈ fleet.reconciles)
      (contends : Contends (fleet.replicas ++ recruits) key record.replica) :
      Contends fleet.replicas key record.replica := by
    obtain ⟨replica, found, named⟩ := contends
    rw [List.getElem?_append_left (guarded.past record done).2] at found
    exact ⟨replica, found, named⟩
  refine ⟨?_, ?_, ?_, ?_, ?_, ?_, ?_⟩
  · intro id replica term found current
    exact guarded.informed id replica term (found_of_grown idle found current) current
  · intro id replica term found current
    exact guarded.covered id replica term (found_of_grown idle found current) current
  · intro id other replica rival term reign found foundRival current serving same
    exact guarded.separate id other replica rival term reign (found_of_grown idle found current)
      (found_of_grown idle foundRival serving) current serving same
  · intro id replica term doneAt found busy
    have current : replica.term? = some term := by rw [Replica.term?, busy]
    exact guarded.prompt id replica term doneAt (found_of_grown idle found current) busy
  · intro record done
    rw [List.length_append]
    exact ⟨(guarded.past record done).1, Nat.lt_add_right _ (guarded.past record done).2⟩
  · intro record done today standing
    obtain ⟨shown, shows, others⟩ := guarded.recent record done today (contends done standing)
    refine ⟨shown, shows, ?_⟩
    intro id replica term found current
    exact others id replica term (found_of_grown idle found current) current
  · intro one done two doneToo same standing standingToo
    exact guarded.apart one done two doneToo same (contends done standing)
      (contends doneToo standingToo)

/-- A replica with the lease begins to reconcile: nobody else has done so at this instant. -/
theorem Guarded.record (guarded : fleet.Guarded key) (distinct : fleet.contest.Distinct key)
    (found : fleet.replicas[id]? = some replica) (current : replica.term? = some term)
    (leads : term.leading = true) :
    Guarded { fleet with reconciles := ⟨id, fleet.contest.now⟩ :: fleet.reconciles } key := by
  have shows (contends : Contends fleet.replicas key id) :
      fleet.contest.Shows key term.member := by
    obtain ⟨same, again, named⟩ := contends
    rw [found] at again
    cases again
    obtain ⟨member, seated, sameKey, _⟩ := guarded.informed id replica term found current
    exact guarded.covered id replica term found current member seated (sameKey.trans named)
      (Or.inl leads)
  have alone (two : ReconcileRecord) (done : two ∈ fleet.reconciles)
      (today : two.startedAt = fleet.contest.now) (contends : Contends fleet.replicas key id)
      (contendsToo : Contends fleet.replicas key two.replica) : id = two.replica := by
    by_contra apart
    obtain ⟨shown, shownToo, others⟩ := guarded.recent two done today contendsToo
    exact others id replica term found current apart ((shows contends).unique shownToo distinct)
  refine ⟨guarded.informed, guarded.covered, guarded.separate, guarded.prompt, ?_, ?_, ?_⟩
  · intro record done
    rcases List.mem_cons.mp done with rfl | old
    · exact ⟨Nat.le_refl _, (List.getElem?_eq_some_iff.mp found).1⟩
    · exact guarded.past record old
  · intro record done today contends
    rcases List.mem_cons.mp done with rfl | old
    · refine ⟨term.member, shows contends, ?_⟩
      intro other rival reign foundRival serving apart same
      exact apart (guarded.separate other id rival replica reign term foundRival found serving
        current same)
    · exact guarded.recent record old today contends
  · intro one done two doneToo same contends contendsToo
    rcases List.mem_cons.mp done with rfl | old
    · rcases List.mem_cons.mp doneToo with rfl | oldToo
      · rfl
      · exact alone two oldToo same.symm contends contendsToo
    · rcases List.mem_cons.mp doneToo with rfl | oldToo
      · exact (alone one old same contendsToo contends).symm
      · exact guarded.apart one old two oldToo same contends contendsToo

/-- A replica with nothing to do has heard all there is to hear, and its election is on. -/
theorem at_ease (quiet : fleet.quiet = true) (found : fleet.replicas[id]? = some replica)
    (current : replica.term? = some term)
    (prompt : ∀ doneAt, replica.activity = .reconciling term doneAt →
      doneAt ≤ fleet.contest.now) {member : Member}
    (seated : fleet.contest.members[term.member]? = some member) :
    member.candidate.reports.length ≤ term.heard ∧ member.candidate.closed = false := by
  have idle : fleet.branches replica = [] := List.isEmpty_iff.mp
    (List.all_eq_true.mp (Bool.and_eq_true_iff.mp quiet).2 replica (List.mem_of_getElem? found))
  cases activity : replica.activity with
  | watching same =>
      obtain rfl : same = term := by
        rw [Replica.term?, activity] at current
        exact Option.some.inj current
      simp only [branches, Replica.branches, Replica.term?, activity, candidate?, seated,
        Option.bind_some, Option.map_some, Option.any_some, List.append_eq_nil_iff] at idle
      have calm := idle.1.1
      split at calm
      · cases calm
      · rename_i news
        rw [Bool.not_eq_true, Bool.or_eq_false_iff, decide_eq_false_iff_not, Nat.not_lt] at news
        exact news
  | reconciling same doneAt =>
      obtain rfl : same = term := by
        rw [Replica.term?, activity] at current
        exact Option.some.inj current
      simp only [branches, Replica.branches, activity, if_pos (prompt doneAt activity)] at idle
      cases idle
  | joining | backingOff | done | crashed | aborted =>
      rw [Replica.term?, activity] at current
      cases current

/-- Time passes only when every leader still leads, and then its lease goes on. -/
theorem Guarded.pass {terms : BucketTerms} {contest : Contest} {instant bound : Nat}
    (guarded : fleet.Guarded key) (spared : Contest.Spared terms key fleet.contest)
    (quiet : fleet.quiet = true) (acted : fleet.contest.act? (.passTo instant) = some contest)
    (paced : contest.Paced key bound) : Guarded { fleet with contest } key := by
  have sparedThen := spared.act (Action.spares_of_ne_perform (fun _ => Action.noConfusion)) acted
  have turn := Contest.turn_of_act? acted
  cases turn with
  | ignored id _ asks => cases asks
  | passed _ still later =>
      refine ⟨guarded.informed, ?_, guarded.separate, ?_, ?_, ?_, guarded.apart⟩
      · intro id replica term found current member seated named knows
        obtain ⟨all, going⟩ :=
          at_ease quiet found current (guarded.prompt id replica term · found) seated
        -- All has been heard, so whoever leads by what it has heard leads in truth.
        have coherent := spared.coherent member (List.mem_of_getElem? seated)
        rcases knows with leads | news
        · obtain ⟨same, again, _, _, won⟩ := guarded.informed id replica term found current
          rw [show fleet.contest.members[term.member]? = some member from seated] at again
          cases again
          have last := won leads
          rw [List.take_of_length_le all] at last
          exact sparedThen.shows paced seated named (coherent.leading_of_won going last)
        · rw [List.drop_of_length_le all] at news
          cases news
      · intro id replica term doneAt found busy
        exact Nat.le_trans (guarded.prompt id replica term doneAt found busy) later
      · intro record done
        exact ⟨Nat.le_trans (guarded.past record done).1 later, (guarded.past record done).2⟩
      · intro record done today contends
        have stands : instant = fleet.contest.now :=
          Nat.le_antisymm (Nat.le_trans (Nat.le_of_eq today.symm) (guarded.past record done).1) later
        subst stands
        exact guarded.recent record done today contends

/-! ### All shifts and all runs -/

theorem gentle_of_requests {requests : List Action}
    (requested : ∀ request ∈ requests, request.IsRequest) (request : Action)
    (present : request ∈ requests) :
    request.Spares key ∧ ∀ instant, request ≠ .passTo instant := by
  cases requested request present with
  | _ => exact ⟨Action.spares_of_ne_perform (fun _ => Action.noConfusion), fun _ => Action.noConfusion⟩

variable {next : Fleet} {action : FleetAction} {terms : BucketTerms} {bound : Nat}

theorem since_of_asked {contest after : Contest} (spared : Contest.Spared terms key contest)
    (asked : contest.Asked after) (paced : after.Paced key bound) : contest.Since key after := by
  obtain ⟨requests, run, requested⟩ := asked
  exact spared.since_run run (gentle_of_requests requested) paced

theorem Shift.run (shift : Shift fleet action next) (gentle : action.Gentle key) :
    ∃ actions, fleet.contest.run? actions = some next.contest ∧
      ∀ action ∈ actions, action.Spares key := by
  have single {after : Contest} {action : Action} (spares : action.Spares key)
      (acted : fleet.contest.act? action = some after) :
      ∃ actions, fleet.contest.run? actions = some after ∧
        ∀ action ∈ actions, action.Spares key := by
    refine ⟨[action], ?_, ?_⟩
    · rw [Contest.run?, List.foldlM_cons, acted]
      rfl
    · intro other present
      rw [List.mem_singleton.mp present]
      exact spares
  have several {after : Contest} (asked : fleet.contest.Asked after) :
      ∃ actions, fleet.contest.run? actions = some after ∧
        ∀ action ∈ actions, action.Spares key := by
    obtain ⟨requests, run, requested⟩ := asked
    exact ⟨requests, run, fun request present =>
      (gentle_of_requests requested request present).1⟩
  cases shift with
  | grown | ignored | heard | reconciled => exact several (asked_refl fleet.contest)
  | among action contest acted => exact single gentle acted
  | passed instant contest quiet acted =>
      exact single (Action.spares_of_ne_perform (fun _ => Action.noConfusion)) acted
  | left _ _ _ _ _ _ _ requests | kept _ _ _ _ _ _ _ _ requests | joined _ _ _ _ _ _ _ requests =>
      exact several requests

theorem informed_of_joined {contest : Contest} {member : Member}
    (unheard : term.heard = 0) (idle : term.leading = false)
    (seated : contest.members[term.member]? = some member)
    (named : member.key = replica.assignment.candidacy.key) : Informed contest replica term := by
  refine ⟨member, seated, named, ?_, ?_⟩
  · rw [unheard]
    exact Nat.zero_le _
  · intro leads
    rw [idle] at leads
    cases leads

theorem covered_of_joined {contest : Contest} {member : Member} (idle : term.leading = false)
    (seated : contest.members[term.member]? = some member)
    (silent : member.candidate.reports = []) : Covered contest key term := by
  intro same again _ knows
  obtain rfl : member = same := Option.some.inj (seated.symm.trans again)
  rcases knows with leads | news
  · rw [idle] at leads
    cases leads
  · rw [silent, List.drop_nil] at news
    cases news

theorem informed_of_heard {contest : Contest} {member : Member} {outcome : Outcome} {leading : Bool}
    {ticker : Ticker} (informed : Informed contest replica term)
    (seated : contest.members[term.member]? = some member)
    (report : member.candidate.reports[term.heard]? = some outcome)
    (meaning : outcome = .won ∧ leading = true ∨ outcome = .lost ∧ leading = false) :
    Informed contest replica { term with heard := term.heard + 1, leading, ticker } := by
  obtain ⟨same, again, named, _, _⟩ := informed
  obtain rfl : member = same := Option.some.inj (seated.symm.trans again)
  refine ⟨member, seated, named, (List.getElem?_eq_some_iff.mp report).1, ?_⟩
  intro leads
  rcases meaning with ⟨rfl, _⟩ | ⟨_, never⟩
  · rw [List.take_add_one, report]
    exact List.getLast?_concat
  · rw [show leading = true from leads] at never
    cases never

theorem covered_of_heard {contest : Contest} {member : Member} {outcome : Outcome} {leading : Bool}
    {ticker : Ticker} (covered : Covered contest key term)
    (seated : contest.members[term.member]? = some member)
    (report : member.candidate.reports[term.heard]? = some outcome)
    (meaning : outcome = .won ∧ leading = true ∨ outcome = .lost ∧ leading = false) :
    Covered contest key { term with heard := term.heard + 1, leading, ticker } := by
  obtain ⟨inside, value⟩ := List.getElem?_eq_some_iff.mp report
  have rest : member.candidate.reports.drop term.heard =
      outcome :: member.candidate.reports.drop (term.heard + 1) := by
    rw [List.drop_eq_getElem_cons inside, value]
  intro same again named knows
  obtain rfl : member = same := Option.some.inj (seated.symm.trans again)
  refine covered member seated named (Or.inr ?_)
  rw [rest]
  rcases knows with leads | news
  · rcases meaning with ⟨rfl, _⟩ | ⟨_, never⟩
    · exact List.mem_cons_self
    · rw [show leading = true from leads] at never
      cases never
  · exact List.mem_cons_of_mem _ news

theorem Guarded.shift (guarded : fleet.Guarded key) (shift : Shift fleet action next)
    (gentle : action.Gentle key) (spared : Contest.Spared terms key fleet.contest)
    (paced : next.contest.Paced key bound) (distinct : next.contest.Distinct key) :
    next.Guarded key := by
  cases shift with
  | ignored => exact guarded
  | grown _ recruits idle => exact guarded.grow idle
  | among action contest acted stands =>
      exact guarded.since (spared.since_act gentle stands acted paced)
  | passed instant contest quiet acted => exact guarded.pass spared quiet acted paced
  | left _ id replica activity contest endings found requests out =>
      apply guarded.replace (since_of_asked spared requests paced) found
      · intro term current
        rw [out] at current
        cases current
      · intro term doneAt busy
        rw [Replica.term?, busy] at out
        cases out
  | joined _ id replica term contest member found requests fresh unheard idle seated named silent =>
      apply guarded.replace (since_of_asked spared requests paced) found
      · intro same current
        cases current
        exact ⟨informed_of_joined unheard idle seated named, covered_of_joined idle seated silent,
          Or.inr (Nat.le_of_eq fresh.symm)⟩
      · intro _ _ never
        cases never
  | heard _ id replica term member outcome leading ticker found watching seated report meaning =>
      have current : replica.term? = some term := by rw [Replica.term?, watching]
      apply guarded.replace (.refl fleet.contest key) found
      · intro same now
        cases now
        have informed := guarded.informed id replica term found current
        have covered := guarded.covered id replica term found current
        exact ⟨informed_of_heard informed seated report meaning,
          covered_of_heard covered seated report meaning, Or.inl ⟨term, current, rfl⟩⟩
      · intro _ _ never
        cases never
  | kept _ id replica term stopping contest found current requests =>
      have since := since_of_asked spared requests paced
      apply guarded.replace since found
      · intro same now
        cases now
        have informed := guarded.informed id replica term found current
        exact ⟨informed.since since,
          (guarded.covered id replica term found current).since informed since,
          Or.inl ⟨term, current, rfl⟩⟩
      · intro _ _ never
        cases never
  | reconciled id candidate duration replica term found watching leads =>
      have current : replica.term? = some term := by rw [Replica.term?, watching]
      have busy : Guarded (fleet.put id replica (.reconciling
          { term with ticker := term.ticker.take fleet.contest.now }
          (fleet.contest.now + duration))) key := by
        apply guarded.replace (.refl fleet.contest key) found
        · intro same now
          cases now
          exact ⟨guarded.informed id replica term found current,
            guarded.covered id replica term found current, Or.inl ⟨term, current, rfl⟩⟩
        · intro same doneAt done
          cases done
          exact Nat.le_of_eq (congrArg (fleet.contest.now + ·) gentle)
      refine busy.record distinct (List.getElem?_set_self ?_) rfl leads
      exact (List.getElem?_eq_some_iff.mp found).1

theorem guarded_opening (terms : BucketTerms) : (opening terms).Guarded key where
  informed := by
    intro id replica term found
    cases found
  covered := by
    intro id replica term found
    cases found
  separate := by
    intro id other replica rival term reign found
    cases found
  prompt := by
    intro id replica term doneAt found
    cases found
  past := by
    intro record never
    cases never
  recent := by
    intro record never
    cases never
  apart := by
    intro one never
    cases never

theorem guarded_of_run {actions : List FleetAction} (run : (opening terms).run? actions = some fleet)
    (gentle : ∀ action ∈ actions, action.Gentle key) (paced : fleet.contest.Paced key bound)
    (distinct : fleet.contest.Distinct key) : fleet.Guarded key := by
  refine (Runs.induct (motive := fun actions fleet => (∀ action ∈ actions, action.Gentle key) →
    Contest.Spared terms key fleet.contest ∧ (fleet.contest.Paced key bound →
      fleet.contest.Distinct key → fleet.Guarded key)) ?_ ?_ actions run gentle).2 paced distinct
  · intro _
    refine ⟨⟨[], rfl, ?_⟩, fun _ _ => guarded_opening terms⟩
    intro action never
    cases never
  · intro actions fleet action next _ ih acted gentle
    have shift := shift_of_act? acted
    have gentleLast := gentle action (List.mem_append_right _ List.mem_cons_self)
    obtain ⟨spared, guarded⟩ := ih (fun other present => gentle other (List.mem_append_left _ present))
    obtain ⟨among, ran, spare⟩ := shift.run gentleLast
    refine ⟨spared.run ran spare, ?_⟩
    intro paced distinct
    have distinctBefore : fleet.contest.Distinct key :=
      distinct.before (fun id member found => Contest.persists_of_run ran found)
    exact (guarded (paced.before_run ran) distinctBefore).shift shift gentleLast spared paced distinct

theorem Shift.proper (shift : Shift fleet action next)
    (added : ∀ assignment, action = .add assignment → assignment.Proper)
    (proper : ∀ replica ∈ fleet.replicas, replica.assignment.Proper) :
    ∀ replica ∈ next.replicas, replica.assignment.Proper := by
  have changed {id : Nat} {replica : Replica} (found : fleet.replicas[id]? = some replica)
      (activity : Activity) :
      ∀ other ∈ fleet.replicas.set id { replica with activity }, other.assignment.Proper := by
    intro other present
    rcases List.mem_or_eq_of_mem_set present with old | rfl
    · exact proper other old
    · exact proper replica (List.mem_of_getElem? found)
  cases shift with
  | grown action recruits _ hired =>
      intro replica present
      rcases List.mem_append.mp present with old | new
      · exact proper replica old
      · exact hired added replica new
  | among | passed | ignored => exact proper
  | left _ _ _ _ _ _ found | joined _ _ _ _ _ _ found | heard _ _ _ _ _ _ _ _ found
  | kept _ _ _ _ _ _ found | reconciled _ _ _ _ _ found => exact changed found _

theorem proper_of_added {actions : List FleetAction}
    (run : (opening terms).run? actions = some fleet)
    (added : ∀ assignment, .add assignment ∈ actions → assignment.Proper) :
    ∀ replica ∈ fleet.replicas, replica.assignment.Proper := by
  refine Runs.induct (motive := fun actions fleet =>
    (∀ assignment, .add assignment ∈ actions → assignment.Proper) →
      ∀ replica ∈ fleet.replicas, replica.assignment.Proper) ?_ ?_ actions run added
  · intro _ replica never
    cases never
  · intro actions fleet action next _ ih acted added
    refine (shift_of_act? acted).proper ?_
      (ih fun assignment present => added assignment (List.mem_append_left _ present))
    rintro assignment rfl
    exact added assignment (List.mem_append_right _ List.mem_cons_self)

theorem proper_of_run {actions : List FleetAction} (run : (opening terms).run? actions = some fleet)
    (gentle : ∀ action ∈ actions, action.Gentle key) :
    ∀ replica ∈ fleet.replicas, replica.assignment.Proper :=
  proper_of_added run fun _ present => gentle _ present

def Scales (fleet : Fleet) (function : String) (id : Nat) : Prop :=
  ∃ replica, fleet.replicas[id]? = some replica ∧ replica.assignment.function = function

/-- Whenever a replica of a function may begin to reconcile, the leader key of the function holds a
live record with the name under which the replica stands in its present election. No two replicas of
the function have ever begun to reconcile at the same instant. -/
structure Protected (fleet : Fleet) (function : String) : Prop where
  leased : ∀ (id : Nat) (replica : Replica), fleet.replicas[id]? = some replica →
    replica.assignment.function = function → .reconcile ∈ fleet.branches replica →
    ∃ term member record, replica.activity = .watching term ∧
      fleet.contest.members[term.member]? = some member ∧
      fleet.contest.bucket.live? fleet.contest.now (leaderKey function) = some record ∧
      record.value = member.candidate.candidacy.candidate.bytes
  apart : ∀ one ∈ fleet.reconciles, ∀ two ∈ fleet.reconciles, one.startedAt = two.startedAt →
    fleet.Scales function one.replica → fleet.Scales function two.replica →
    one.replica = two.replica

/-- Replicas of a function are protected by their lease, over any number of elections, whatever
fails, whoever is cancelled or broken off, and in whatever order things happen at one instant. -/
theorem protected_of_run {actions : List FleetAction} {function : String}
    (run : (opening terms).run? actions = some fleet)
    (gentle : ∀ action ∈ actions, action.Gentle (leaderKey function))
    (paced : fleet.contest.Paced (leaderKey function) bound)
    (distinct : fleet.contest.Distinct (leaderKey function)) : fleet.Protected function := by
  have guarded := guarded_of_run run gentle paced distinct
  have named {id : Nat} {replica : Replica} (found : fleet.replicas[id]? = some replica)
      (scales : replica.assignment.function = function) :
      replica.assignment.candidacy.key = leaderKey function := by
    rw [← scales]
    exact proper_of_run run gentle replica (List.mem_of_getElem? found)
  constructor
  · intro id replica found scales offered
    obtain ⟨term, watching, leads⟩ := leading_of_reconcile offered
    have current : replica.term? = some term := by rw [Replica.term?, watching]
    obtain ⟨member, seated, sameKey, _⟩ := guarded.informed id replica term found current
    obtain ⟨same, record, again, _, live, value⟩ := guarded.covered id replica term found current
      member seated (sameKey.trans (named found scales)) (Or.inl leads)
    exact ⟨term, same, record, watching, again, live, value⟩
  · intro one done two doneToo same first second
    obtain ⟨replica, found, scales⟩ := first
    obtain ⟨rival, foundRival, scalesToo⟩ := second
    exact guarded.apart one done two doneToo same ⟨replica, found, named found scales⟩
      ⟨rival, foundRival, named foundRival scalesToo⟩

def twin : Assignment :=
  .of "f" { key := "", candidate := ⟨""⟩, renewEveryMs := 1500, pollEveryMs := 1000 } {} "c"

/-- Two replicas join at once. One of them wins and reconciles, and a second later it is due again. -/
def twins : List FleetAction :=
  [.add twin, .add twin, .proceed 0 .join ⟨"x"⟩ 0, .proceed 1 .join ⟨"y"⟩ 0,
    .among (.proceed 0 {}), .among (.proceed 1 {}), .among (.proceed 0 {}),
    .among (.proceed 1 {}), .among (.proceed 0 {}), .among (.proceed 1 {}),
    .proceed 1 .hear ⟨""⟩ 0, .proceed 0 .hear ⟨""⟩ 0, .proceed 0 .reconcile ⟨""⟩ 0,
    .proceed 0 .resume ⟨""⟩ 0, .passTo 1_000_000_000]

def afterTwins : Fleet where
  contest :=
    { bucket :=
        { terms := ⟨"b", 2_000_000_000⟩
          records := [("f-leader", ⟨Text.encode "x", ⟨1⟩, 0⟩)]
          revision := ⟨1⟩ }
      now := 1_000_000_000
      members :=
        [{ candidate :=
            { candidacy := { twin.candidacy with candidate := ⟨"x"⟩ }
              task := .between (.leading ⟨1⟩ ⟨1_500_000_000, 1_500_000_000⟩)
              listening := true
              reports := [.won] }
           context := "c" },
          { candidate :=
            { candidacy := { twin.candidacy with candidate := ⟨"y"⟩ }
              task := .between (.following ⟨1_000_000_000, 1_000_000_000⟩)
              listening := true
              reports := [.lost] }
            context := "c" }]
      calls :=
        [⟨1, .create, 0, 0, some (0, .error (.keyExists "f-leader")), false⟩,
          ⟨0, .create, 0, 0, some (0, .ok ⟨"f-leader", Text.encode "x", ⟨1⟩⟩), false⟩] }
  replicas :=
    [⟨twin, .watching ⟨0, 1, true, false, ⟨1_000_000_000, 1_000_000_000⟩⟩⟩,
      ⟨twin, .watching ⟨1, 1, false, false, ⟨0, 1_000_000_000⟩⟩⟩]
  reconciles := [⟨0, 0⟩]

theorem run_twins : (opening ⟨"b", 2_000_000_000⟩).run? twins = some afterTwins := by
  rfl

theorem gentle_twins : ∀ action ∈ twins, action.Gentle (leaderKey "f") := by
  have goes (id : Nat) : FleetAction.Gentle (leaderKey "f") (.among (.proceed id {})) :=
    Action.spares_of_ne_perform (fun _ => Action.noConfusion)
  simp only [twins, List.forall_mem_cons]
  exact ⟨rfl, rfl, trivial, trivial, goes 0, goes 1, goes 0, goes 1, goes 0, goes 1, trivial,
    trivial, rfl, trivial, trivial, fun _ never => nomatch never⟩

theorem paced_afterTwins : afterTwins.contest.Paced (leaderKey "f") 0 := by
  constructor <;> simp [afterTwins, twin, Assignment.of, Candidacy.renewEvery, Duration.ofMillis]

theorem distinct_afterTwins : afterTwins.contest.Distinct (leaderKey "f") := by
  have named (id : Nat) (member : Member) (found : afterTwins.contest.members[id]? = some member) :
      id = 0 ∧ member.candidate.candidacy.candidate = ⟨"x"⟩ ∨
        id = 1 ∧ member.candidate.candidacy.candidate = ⟨"y"⟩ := by
    match id, found with
    | 0, rfl => exact Or.inl ⟨rfl, rfl⟩
    | 1, rfl => exact Or.inr ⟨rfl, rfl⟩
  intro id other member rival found foundRival _ _ same
  rcases named id member found with ⟨rfl, one⟩ | ⟨rfl, one⟩ <;>
    rcases named other rival foundRival with ⟨rfl, two⟩ | ⟨rfl, two⟩
  · rfl
  · exact absurd (one.symm.trans (same.trans two)) (by decide)
  · exact absurd (one.symm.trans (same.trans two)) (by decide)
  · rfl

theorem protected_afterTwins :
    (opening ⟨"b", 2_000_000_000⟩).run? twins = some afterTwins ∧
      (∀ action ∈ twins, action.Gentle (leaderKey "f")) ∧
      afterTwins.contest.Paced (leaderKey "f") 0 ∧ afterTwins.contest.Distinct (leaderKey "f") ∧
      afterTwins.Protected "f" :=
  ⟨run_twins, gentle_twins, paced_afterTwins, distinct_afterTwins,
    protected_of_run run_twins gentle_twins paced_afterTwins distinct_afterTwins⟩

end Fleet

end Leasehold
