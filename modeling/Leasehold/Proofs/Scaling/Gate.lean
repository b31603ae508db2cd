import Leasehold.Proofs.Scaling.Protection

set_option autoImplicit false

/-!
What the gate of a reconcile loop follows: the last outcome that the replica has heard.

Outcomes wait to be heard while a replica reconciles. When it is done, a reconcile that has come due
may begin before they are heard, although the election has reported a defeat by then. This is as far
as it goes, for time does not pass over a replica that waits with something left to hear.
-/

namespace Leasehold

namespace Contest

/-- Reports are only added to. -/
theorem reports_of_run {contest after : Contest} {actions : List Action} {id : Nat} {member : Member}
    (run : contest.run? actions = some after) (found : contest.members[id]? = some member) :
    ∃ later extra, after.members[id]? = some later ∧
      later.candidate.candidacy = member.candidate.candidacy ∧
      later.candidate.reports = member.candidate.reports ++ extra := by
  refine run_induction (motive := fun _ after => ∃ later extra, after.members[id]? = some later ∧
    later.candidate.candidacy = member.candidate.candidacy ∧
    later.candidate.reports = member.candidate.reports ++ extra) ?_ ?_ actions after run
  · exact ⟨member, [], found, rfl, (List.append_nil _).symm⟩
  · intro _ middle action next _ ih turn
    obtain ⟨between, extra, there, terms, reports⟩ := ih
    obtain ⟨later, foundLater, termsLater, new, reportsLater, _⟩ := turn.reported there
    refine ⟨later, extra ++ new, foundLater, termsLater.trans terms, ?_⟩
    rw [reportsLater, reports, List.append_assoc]

theorem stands_of_run {contest after : Contest} {actions : List Action}
    (run : contest.run? actions = some after)
    (going : ∀ action ∈ actions, ∀ instant, action ≠ .passTo instant) :
    after.now = contest.now := by
  refine run_induction (motive := fun actions after =>
    (∀ action ∈ actions, ∀ instant, action ≠ .passTo instant) → after.now = contest.now)
    (fun _ => rfl) ?_ actions after run going
  intro actions middle action after _ ih turn going
  have last := turn.stands (going action (List.mem_append_right _ List.mem_cons_self))
  exact last.trans (ih fun other present => going other (List.mem_append_left _ present))

end Contest

namespace Fleet

variable {fleet next : Fleet} {action : FleetAction} {actions : List FleetAction}
  {terms : BucketTerms} {id : Nat} {replica : Replica} {term : Term}

/-! ### What replicas know, whatever happens -/

theorem Informed.onward {contest after : Contest} {requests : List Action}
    (informed : Informed contest replica term) (run : contest.run? requests = some after) :
    Informed after replica term := by
  obtain ⟨member, seated, named, heard, leading⟩ := informed
  obtain ⟨later, extra, foundLater, same, reports⟩ := Contest.reports_of_run run seated
  refine ⟨later, foundLater, (congrArg Candidacy.key same).trans named, ?_, ?_⟩
  · rw [reports, List.length_append]
    exact Nat.le_add_right_of_le heard
  · rw [reports, List.take_append_of_le_length heard]
    exact leading

theorem Shift.contest_run (shift : Shift fleet action next) :
    ∃ requests, fleet.contest.run? requests = some next.contest := by
  have single {after : Contest} {action : Action} (acted : fleet.contest.act? action = some after) :
      ∃ requests, fleet.contest.run? requests = some after :=
    ⟨[action], (Contest.run?_cons acted).trans rfl⟩
  cases shift with
  | grown | ignored | heard | reconciled => exact ⟨[], rfl⟩
  | among action contest acted => exact single acted
  | passed instant contest quiet acted => exact single acted
  | left _ _ _ _ _ _ _ asked | kept _ _ _ _ _ _ _ _ asked | joined _ _ _ _ _ _ _ asked =>
      obtain ⟨requests, run, _⟩ := asked
      exact ⟨requests, run⟩

def Aware (fleet : Fleet) : Prop :=
  ∀ (id : Nat) (replica : Replica) (term : Term), fleet.replicas[id]? = some replica →
    replica.term? = some term → Informed fleet.contest replica term

theorem Aware.replace {contest : Contest} {activity : Activity} (aware : fleet.Aware)
    (run : ∃ requests, fleet.contest.run? requests = some contest)
    (members : next.contest = contest)
    (replicas : next.replicas = fleet.replicas.set id { replica with activity })
    (claim : ∀ term, Replica.term? { replica with activity } = some term →
      Informed contest { replica with activity } term) : next.Aware := by
  obtain ⟨requests, ran⟩ := run
  intro other rival reign found current
  rw [members]
  rw [replicas] at found
  rcases Contest.found_in_set found with ⟨rfl, rfl⟩ | ⟨_, was⟩
  · exact claim reign current
  · exact (aware other rival reign was current).onward ran

theorem Shift.aware (shift : Shift fleet action next) (aware : fleet.Aware) : next.Aware := by
  have run := shift.contest_run
  cases shift with
  | ignored => exact aware
  | grown _ recruits idle =>
      intro id replica term found current
      exact aware id replica term (found_of_grown idle found current) current
  | among | passed =>
      obtain ⟨requests, ran⟩ := run
      intro id replica term found current
      exact (aware id replica term found current).onward ran
  | left _ id replica activity contest endings found asked out =>
      refine aware.replace run rfl rfl ?_
      intro term current
      rw [out] at current
      cases current
  | joined _ id replica term contest member found asked fresh unheard idle seated named =>
      refine aware.replace run rfl rfl ?_
      intro same current
      cases current
      exact informed_of_joined unheard idle seated named
  | heard _ id replica term member outcome leading ticker found watching seated report meaning =>
      refine aware.replace run rfl rfl ?_
      intro same current
      cases current
      exact informed_of_heard (aware id replica term found (by rw [Replica.term?, watching])) seated
        report meaning
  | kept _ id replica term stopping contest found current =>
      obtain ⟨requests, ran⟩ := run
      refine aware.replace ⟨requests, ran⟩ rfl rfl ?_
      intro same now
      cases now
      exact (aware id replica term found current).onward ran
  | reconciled id _ duration replica term found watching =>
      refine aware.replace run rfl rfl ?_
      intro same current
      cases current
      exact aware id replica term found (by rw [Replica.term?, watching])

theorem aware_of_run (run : (opening terms).run? actions = some fleet) : fleet.Aware := by
  refine Runs.induct (motive := fun _ fleet => fleet.Aware) ?_ ?_ actions run
  · intro id replica term never
    cases never
  · intro _ _ _ _ _ aware acted
    exact (shift_of_act? acted).aware aware

/-! ### What has been heard -/

def Unoccupied (first : Fleet) (id : Nat) (actions : List FleetAction) : Prop :=
  ∀ done rest fleet replica term doneAt, actions = done ++ rest → first.run? done = some fleet →
    fleet.replicas[id]? = some replica → replica.activity ≠ .reconciling term doneAt

theorem Unoccupied.before {first : Fleet} {done rest : List FleetAction}
    (unoccupied : first.Unoccupied id (done ++ rest)) : first.Unoccupied id done := by
  intro earlier later fleet replica term doneAt split
  refine unoccupied earlier (later ++ rest) fleet replica term doneAt ?_
  rw [split, List.append_assoc]

/-- Who waits in an election has been waiting in it, or has come from a reconcile, or has just joined
it. -/
theorem Shift.watching_cases {after : Replica} (shift : Shift fleet action next)
    (found : next.replicas[id]? = some after) (watching : after.activity = .watching term) :
    (∃ replica old, fleet.replicas[id]? = some replica ∧ replica.term? = some old ∧
        old.member = term.member ∧ old.heard ≤ term.heard) ∨
      fleet.contest.members.length ≤ term.member := by
  have current : after.term? = some term := by rw [Replica.term?, watching]
  have stays (was : fleet.replicas[id]? = some after) :
      ∃ replica old, fleet.replicas[id]? = some replica ∧ replica.term? = some old ∧
        old.member = term.member ∧ old.heard ≤ term.heard :=
    ⟨after, term, was, current, rfl, Nat.le_refl _⟩
  cases shift with
  | ignored | among | passed => exact Or.inl (stays found)
  | grown _ recruits idle => exact Or.inl (stays (found_of_grown idle found current))
  | left _ other replica activity contest endings was asked out =>
      rcases Contest.found_in_set found with ⟨rfl, rfl⟩ | ⟨_, old⟩
      · rw [out] at current
        cases current
      · exact Or.inl (stays old)
  | joined _ other replica taken contest member was asked fresh =>
      rcases Contest.found_in_set found with ⟨rfl, rfl⟩ | ⟨_, old⟩
      · cases watching
        exact Or.inr (Nat.le_of_eq fresh.symm)
      · exact Or.inl (stays old)
  | heard _ other replica taken member outcome leading ticker was watched =>
      rcases Contest.found_in_set found with ⟨rfl, rfl⟩ | ⟨_, old⟩
      · cases watching
        exact Or.inl ⟨replica, taken, was, by rw [Replica.term?, watched], rfl, Nat.le_succ _⟩
      · exact Or.inl (stays old)
  | kept _ other replica taken stopping contest was held =>
      rcases Contest.found_in_set found with ⟨rfl, rfl⟩ | ⟨_, old⟩
      · cases watching
        exact Or.inl ⟨replica, taken, was, held, rfl, Nat.le_refl _⟩
      · exact Or.inl (stays old)
  | reconciled other _ duration replica taken was =>
      rcases Contest.found_in_set found with ⟨rfl, rfl⟩ | ⟨_, old⟩
      · cases watching
      · exact Or.inl (stays old)

/-- Time passes only when nobody has anything to do, and then nothing else happens. -/
theorem Shift.clock_cases (shift : Shift fleet action next) :
    next.contest.now = fleet.contest.now ∨ fleet.quiet = true ∧ next.replicas = fleet.replicas := by
  have requested {contest : Contest} (asked : fleet.contest.Asked contest) :
      contest.now = fleet.contest.now := by
    obtain ⟨requests, run, requested⟩ := asked
    exact Contest.stands_of_run run fun request present =>
      (@gentle_of_requests "" requests requested request present).2
  cases shift with
  | grown | ignored | heard | reconciled => exact Or.inl rfl
  | among action contest acted stands =>
      exact Or.inl ((Contest.turn_of_act? acted).stands stands)
  | passed instant contest quiet => exact Or.inr ⟨quiet, rfl⟩
  | left _ _ _ _ _ _ _ asked | kept _ _ _ _ _ _ _ _ asked | joined _ _ _ _ _ _ _ asked =>
      exact Or.inl (requested asked)

/-- All that was reported before this instant has been heard, unless the replica has reconciled
since. -/
theorem heard_of_run {earlier : Fleet} {after : Replica} {member : Member}
    (run : earlier.run? actions = some fleet) (unoccupied : earlier.Unoccupied id actions)
    (past : earlier.contest.now < fleet.contest.now) (found : fleet.replicas[id]? = some after)
    (watching : after.activity = .watching term)
    (seated : earlier.contest.members[term.member]? = some member) :
    member.candidate.reports.length ≤ term.heard := by
  refine (Runs.induct (motive := fun actions fleet =>
    (∃ requests, earlier.contest.run? requests = some fleet.contest) ∧
      (earlier.Unoccupied id actions → earlier.contest.now < fleet.contest.now →
        ∀ after term, fleet.replicas[id]? = some after → after.activity = .watching term →
          ∀ member, earlier.contest.members[term.member]? = some member →
            member.candidate.reports.length ≤ term.heard)) ?_ ?_ actions run).2
    unoccupied past after term found watching member seated
  · refine ⟨⟨[], rfl⟩, ?_⟩
    intro _ never
    exact absurd never (Nat.lt_irrefl _)
  · intro actions fleet action next ran ih acted
    have shift := shift_of_act? acted
    obtain ⟨⟨requests, before⟩, heard⟩ := ih
    obtain ⟨more, onward⟩ := shift.contest_run
    refine ⟨⟨requests ++ more, Contest.run?_append before onward⟩, ?_⟩
    intro unoccupied past after term found watching member seated
    obtain ⟨later, extra, there, _, reports⟩ := Contest.reports_of_run before seated
    rcases shift.clock_cases with still | ⟨quiet, same⟩
    · rcases shift.watching_cases found watching with ⟨replica, old, was, current, same, less⟩ | fresh
      · cases activity : replica.activity with
        | watching mine =>
            obtain rfl : mine = old := by
              rw [Replica.term?, activity] at current
              exact Option.some.inj current
            have known := heard unoccupied.before (still ▸ past) replica mine was activity member
              (same ▸ seated)
            exact Nat.le_trans known less
        | reconciling mine doneAt =>
            exact absurd activity
              (unoccupied actions [action] fleet replica mine doneAt rfl ran was)
        | joining | backingOff | done | crashed | aborted =>
            rw [Replica.term?, activity] at current
            cases current
      · have inside := (List.getElem?_eq_some_iff.mp there).1
        omega
    · -- Time passes over those who wait only when they have heard everything.
      have current : after.term? = some term := by rw [Replica.term?, watching]
      have waits (doneAt : Nat) (busy : after.activity = .reconciling term doneAt) :
          doneAt ≤ fleet.contest.now := by
        rw [watching] at busy
        cases busy
      have all := (at_ease quiet (same ▸ found) current waits there).1
      rw [reports, List.length_append] at all
      omega

/-- Whoever may begin to reconcile has heard of a victory last. Whoever waits in an election has heard
all that had been reported at any earlier instant since its last reconcile. -/
structure Gated (fleet : Fleet) (terms : BucketTerms) (actions : List FleetAction) : Prop where
  won : ∀ (id : Nat) (replica : Replica), fleet.replicas[id]? = some replica →
    .reconcile ∈ fleet.branches replica → ∃ term member, replica.activity = .watching term ∧
      fleet.contest.members[term.member]? = some member ∧
      term.heard ≤ member.candidate.reports.length ∧
      (member.candidate.reports.take term.heard).getLast? = some .won
  heard : ∀ (id : Nat) (replica : Replica) (term : Term), fleet.replicas[id]? = some replica →
    replica.activity = .watching term →
    ∀ done rest earlier member, actions = done ++ rest →
      (opening terms).run? done = some earlier → earlier.contest.now < fleet.contest.now →
      earlier.Unoccupied id rest → earlier.contest.members[term.member]? = some member →
      member.candidate.reports.length ≤ term.heard

/-- Whatever fails and in whatever order things happen at one instant, a replica begins to reconcile
only if it has heard of a victory last, and what it has not heard yet was reported at this instant or
before the end of its last reconcile. -/
theorem gated_of_run (run : (opening terms).run? actions = some fleet) :
    fleet.Gated terms actions where
  won := by
    intro id replica found offered
    obtain ⟨term, watching, leads⟩ := leading_of_reconcile offered
    obtain ⟨member, seated, _, heard, won⟩ :=
      aware_of_run run id replica term found (by rw [Replica.term?, watching])
    exact ⟨term, member, watching, seated, heard, won leads⟩
  heard := by
    intro id replica term found watching done rest earlier member split ran past unoccupied seated
    rw [split, run?, List.foldlM_append, ← run?, ran] at run
    exact heard_of_run run unoccupied past found watching seated

/-- A replica wins and reconciles for longer than its lease is safe: the record is taken away, the
renewal fails and a defeat is reported. When the reconcile is done, the next one is due. -/
def deposed : List FleetAction :=
  [.add twin, .proceed 0 .join ⟨"x"⟩ 0, .among (.proceed 0 {}), .among (.proceed 0 {}),
    .among (.proceed 0 {}), .proceed 0 .hear ⟨""⟩ 0, .proceed 0 .reconcile ⟨""⟩ 1_500_000_000,
    .passTo 1_500_000_000, .among (.perform (.delete "f-leader")), .among (.proceed 0 {}),
    .among (.proceed 0 {}), .among (.proceed 0 {}), .proceed 0 .resume ⟨""⟩ 0]

def afterDeposed : Fleet where
  contest :=
    { bucket := { terms := ⟨"b", 2_000_000_000⟩, revision := ⟨1⟩ }
      now := 1_500_000_000
      members :=
        [{ candidate :=
            { candidacy := { twin.candidacy with candidate := ⟨"x"⟩ }
              task := .between (.following ⟨2_500_000_000, 1_000_000_000⟩)
              listening := true
              reports := [.won, .lost] }
           context := "c" }]
      calls :=
        [⟨0, .renew ⟨1⟩, 1_500_000_000, 1_500_000_000,
            some (1_500_000_000, .error (.keyNotFound "f-leader")), false⟩,
          ⟨0, .create, 0, 0, some (0, .ok ⟨"f-leader", Text.encode "x", ⟨1⟩⟩), false⟩] }
  replicas := [⟨twin, .watching ⟨0, 1, true, false, ⟨1_000_000_000, 1_000_000_000⟩⟩⟩]
  reconciles := [⟨0, 0⟩]

theorem run_deposed : (opening ⟨"b", 2_000_000_000⟩).run? deposed = some afterDeposed := by
  rfl

theorem gated_afterDeposed :
    (opening ⟨"b", 2_000_000_000⟩).run? deposed = some afterDeposed ∧
      afterDeposed.Gated ⟨"b", 2_000_000_000⟩ deposed :=
  ⟨run_deposed, gated_of_run run_deposed⟩

/-- The gate does not follow the last outcome that the election has reported. -/
theorem reconciles_deposed :
    ¬∀ (terms : BucketTerms) (actions : List FleetAction) (fleet : Fleet) (id : Nat)
      (replica : Replica) (term : Term) (member : Member) (candidate : CandidateName)
      (duration : Nat) (next : Fleet), (opening terms).run? actions = some fleet →
      fleet.replicas[id]? = some replica → replica.activity = .watching term →
      fleet.contest.members[term.member]? = some member →
      fleet.act? (.proceed id .reconcile candidate duration) = some next →
      member.candidate.reports.getLast? = some .won := by
  intro follows
  have last := follows ⟨"b", 2_000_000_000⟩ deposed afterDeposed 0 _ _ _ ⟨""⟩ 0 _ run_deposed
    rfl rfl rfl rfl
  cases last

end Fleet

end Leasehold
