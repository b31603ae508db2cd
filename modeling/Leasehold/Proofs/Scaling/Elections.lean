import Leasehold.Proofs.Contest.Learned
import Leasehold.Proofs.Scaling.Gate

set_option autoImplicit false

/-!
The elections of a fleet form a contest: whatever the fleet does, its contest runs, and the history of
the bucket is that of this run.
-/

namespace Leasehold

def FleetAction.among? : FleetAction → Option Action
  | .among action => some action
  | _ => none

namespace Fleet

def deed? (fleet : Fleet) (action : FleetAction) : Option Deed :=
  action.among?.bind fleet.contest.deed?

def chronicle (first : Fleet) (actions : List FleetAction) : List Deed :=
  Runs.collect act? (fun fleet action => (fleet.deed? action).toList) first actions

def Faultless (actions : List FleetAction) : Prop :=
  Contest.Faultless (actions.filterMap FleetAction.among?)

variable {fleet next first : Fleet} {action : FleetAction} {actions done : List FleetAction}
  {terms : BucketTerms}

theorem chronicle_of_requests {contest : Contest} {requests : List Action}
    (requested : ∀ request ∈ requests, request.IsRequest) : contest.chronicle requests = [] := by
  induction requests generalizing contest with
  | nil => rfl
  | cons request rest ih =>
      have idle : contest.deed? request = none := by
        cases requested request List.mem_cons_self <;> rfl
      rw [Contest.chronicle, idle]
      cases contest.act? request with
      | none => rfl
      | some next => exact ih fun other present => requested other (List.mem_cons_of_mem _ present)

/-- Apart from what happens among the elections themselves and from the clock, the contest only gets
requests. -/
theorem asked_of_act? (acted : fleet.act? action = some next) (own : action.among? = none)
    (stands : ∀ instant, action ≠ .passTo instant) : fleet.contest.Asked next.contest := by
  cases shift_of_act? acted with
  | grown | ignored | heard | reconciled => exact asked_refl fleet.contest
  | among => cases own
  | passed instant => exact absurd rfl (stands instant)
  | left _ _ _ _ _ _ _ asked | joined _ _ _ _ _ _ _ asked | kept _ _ _ _ _ _ _ _ asked =>
      exact asked

/-- What a step of the fleet is for its elections. -/
theorem elections_of_act? (acted : fleet.act? action = some next) :
    ∃ elections, fleet.contest.run? elections = some next.contest ∧
      fleet.contest.chronicle elections = (fleet.deed? action).toList ∧
      ∀ other ∈ elections, action.among? = some other ∨ other.IsRequest ∨
        ∃ instant, other = .passTo instant := by
  have alone {other : Action} (happened : fleet.contest.act? other = some next.contest) :
      fleet.contest.run? [other] = some next.contest ∧
        fleet.contest.chronicle [other] = (fleet.contest.deed? other).toList :=
    ⟨Contest.run?_single happened, @Contest.chronicle_concat fleet.contest fleet.contest [] rfl other⟩
  have asked (own : action.among? = none) (stands : ∀ instant, action ≠ .passTo instant) :
      ∃ elections, fleet.contest.run? elections = some next.contest ∧
        fleet.contest.chronicle elections = (fleet.deed? action).toList ∧
        ∀ other ∈ elections, action.among? = some other ∨ other.IsRequest ∨
          ∃ instant, other = .passTo instant := by
    obtain ⟨requests, run, requested⟩ := asked_of_act? acted own stands
    refine ⟨requests, run, ?_, fun request present => Or.inr (Or.inl (requested request present))⟩
    rw [chronicle_of_requests requested, deed?, own]
    rfl
  cases action with
  | among other =>
      obtain ⟨contest, _, happened, rfl⟩ := among_of_act? acted
      obtain ⟨run, history⟩ := alone happened
      refine ⟨[other], run, history, ?_⟩
      intro same present
      rw [List.mem_singleton.mp present]
      exact Or.inl rfl
  | passTo instant =>
      obtain ⟨contest, _, happened, rfl⟩ := passed_of_act? acted
      obtain ⟨run, history⟩ := alone happened
      refine ⟨[.passTo instant], run, history, ?_⟩
      intro same present
      rw [List.mem_singleton.mp present]
      exact Or.inr (Or.inr ⟨instant, rfl⟩)
  | add | spawn | proceed | abort => exact asked rfl fun _ => FleetAction.noConfusion

theorem Faultless.before {rest : List FleetAction} (faultless : Faultless (done ++ rest)) :
    Faultless done := by
  unfold Faultless at faultless
  rw [List.filterMap_append] at faultless
  exact Contest.Faultless.before faultless

theorem chronicle_append (ran : first.run? done = some fleet) (rest : List FleetAction) :
    first.chronicle (done ++ rest) = first.chronicle done ++ fleet.chronicle rest :=
  Runs.collect_append ran rest

theorem chronicle_concat (ran : first.run? done = some fleet) (action : FleetAction) :
    first.chronicle (done ++ [action]) = first.chronicle done ++ (fleet.deed? action).toList :=
  Runs.collect_concat ran action

theorem chronicle_cons (acted : fleet.act? action = some next) (rest : List FleetAction) :
    fleet.chronicle (action :: rest) = (fleet.deed? action).toList ++ next.chronicle rest := by
  rw [chronicle, Runs.collect, acted]
  rfl

theorem elections_of_run (run : first.run? actions = some fleet) :
    ∃ elections, first.contest.run? elections = some fleet.contest ∧
      first.contest.chronicle elections = first.chronicle actions ∧
      (Faultless actions → Contest.Faultless elections) := by
  refine Runs.induct (motive := fun actions fleet => ∃ elections,
    first.contest.run? elections = some fleet.contest ∧
      first.contest.chronicle elections = first.chronicle actions ∧
      (Faultless actions → Contest.Faultless elections)) ?_ ?_ actions run
  · exact ⟨[], rfl, rfl, id⟩
  · intro actions fleet action next ran ih acted
    obtain ⟨earlier, before, history, calm⟩ := ih
    obtain ⟨new, after, deeds, kinds⟩ := elections_of_act? acted
    refine ⟨earlier ++ new, Contest.run?_append before after, ?_, ?_⟩
    · rw [Contest.chronicle_append before, history, deeds, chronicle_concat ran]
    · intro faultless
      have own {other : Action} (among : action.among? = some other) :
          other ∈ (actions ++ [action]).filterMap FleetAction.among? :=
        List.mem_filterMap.mpr ⟨action, List.mem_append_right _ List.mem_cons_self, among⟩
      constructor
      · intro failure present
        rcases List.mem_append.mp present with old | fresh
        · exact (calm faultless.before).uninjected failure old
        · rcases kinds _ fresh with among | request | ⟨_, never⟩
          · exact Contest.Faultless.uninjected faultless failure (own among)
          · cases request
          · cases never
      · intro id plan present
        rcases List.mem_append.mp present with old | fresh
        · exact (calm faultless.before).unplanned id plan old
        · rcases kinds _ fresh with among | request | ⟨_, never⟩
          · exact Contest.Faultless.unplanned faultless id plan (own among)
          · cases request
          · cases never

/-! ### What is known of the elections of a run -/

theorem calm_of_run (run : (opening terms).run? actions = some fleet)
    (faultless : Faultless actions) : fleet.contest.Calm := by
  obtain ⟨elections, ran, _, calm⟩ := elections_of_run run
  obtain ⟨injected, unplanned⟩ := Contest.calm_of_faultless rfl
    (fun _ never => by cases never) ran (calm faultless)
  exact ⟨injected, unplanned⟩

theorem seated_of_run (run : (opening terms).run? actions = some fleet) :
    fleet.contest.Seated := by
  obtain ⟨elections, ran, _⟩ := elections_of_run run
  exact Contest.seated_of_run (fun _ never => by cases never) ran

theorem room_of_run (run : first.run? actions = some fleet)
    (room : fleet.contest.bucket.revision.toNat < Revision.last) :
    first.contest.bucket.revision.toNat < Revision.last := by
  obtain ⟨elections, ran, _⟩ := elections_of_run run
  exact Nat.lt_of_le_of_lt (Contest.revision_le_of_run ran) room

theorem annals_of_run (run : (opening terms).run? actions = some fleet)
    (room : fleet.contest.bucket.revision.toNat < Revision.last) :
    fleet.contest.Annals ((opening terms).chronicle actions) := by
  obtain ⟨elections, ran, history, _⟩ := elections_of_run run
  rw [← history]
  exact Contest.annals_of_run ran room

theorem learned_of_run (run : (opening terms).run? actions = some fleet)
    (room : fleet.contest.bucket.revision.toNat < Revision.last) (faultless : Faultless actions) :
    fleet.contest.Learned ((opening terms).chronicle actions) := by
  obtain ⟨elections, ran, history, calm⟩ := elections_of_run run
  rw [← history]
  exact Contest.learned_of_run ran room (calm faultless)

theorem keyed_of_run (run : (opening terms).run? actions = some fleet) :
    fleet.contest.Keyed ((opening terms).chronicle actions) := by
  obtain ⟨elections, ran, history, _⟩ := elections_of_run run
  rw [← history]
  exact Contest.keyed_of_run ran

theorem newer_of_run (run : first.run? actions = some fleet)
    (room : fleet.contest.bucket.revision.toNat < Revision.last) :
    ∀ deed ∈ first.chronicle actions, deed.kind ≠ .removed →
      first.contest.bucket.revision.toNat < deed.revision.toNat := by
  obtain ⟨elections, ran, history, _⟩ := elections_of_run run
  rw [← history]
  exact Contest.newer_of_run ran room

theorem countable_of_run {key : String} (run : first.run? actions = some fleet)
    (room : fleet.contest.bucket.revision.toNat < Revision.last) :
    (Deed.writes key (first.chronicle actions)).length < Revision.last := by
  obtain ⟨elections, ran, history, _⟩ := elections_of_run run
  rw [← history]
  exact Nat.lt_of_le_of_lt (Contest.countable_of_run ran room) room

theorem onward_of_run {last : Fleet} {rest : List FleetAction}
    (run : first.run? (done ++ rest) = some last) (ran : first.run? done = some fleet) :
    fleet.run? rest = some last := by
  rw [run?, List.foldlM_append, ← run?, ran] at run
  exact run

/-- A run goes through each of its actions. -/
theorem acted_of_run {last : Fleet} {rest : List FleetAction}
    (run : first.run? (done ++ action :: rest) = some last) (ran : first.run? done = some fleet) :
    ∃ next, fleet.act? action = some next ∧ next.run? rest = some last :=
  Option.bind_eq_some_iff.mp (onward_of_run run ran)

/-- The new numbers that come out of a whole run fit each of its actions. -/
theorem fits_of_run {last : Fleet} {rest : List FleetAction} {key : String} {other : Action}
    (run : (opening terms).run? (done ++ action :: rest) = some last)
    (room : last.contest.bucket.revision.toNat < Revision.last)
    (ran : (opening terms).run? done = some fleet) (among : action.among? = some other)
    (told : ∀ value expected, other = .perform (.update key value expected) →
      Deed.Given ((opening terms).chronicle done) key expected) :
    fleet.contest.Fits
      (Deed.renumber ((opening terms).chronicle (done ++ action :: rest)) key) key other := by
  obtain ⟨next, acted, onward⟩ := acted_of_run run ran
  have happened : fleet.contest.act? other = some next.contest := by
    cases action with
    | among action =>
        cases among
        obtain ⟨contest, _, happened, rfl⟩ := among_of_act? acted
        exact happened
    | _ => cases among
  have roomNext := room_of_run onward room
  have countable := @countable_of_run _ _ _ key run room
  have whole : (opening terms).chronicle (done ++ action :: rest) =
      (opening terms).chronicle done ++
        ((fleet.contest.deed? other).toList ++ next.chronicle rest) := by
    rw [chronicle_append ran, chronicle_cons acted, deed?, among]
    rfl
  have turn := Contest.turn_of_act? happened
  have roomNow := Nat.lt_of_le_of_lt turn.revision_le roomNext
  rw [whole] at countable ⊢
  exact turn.fits (annals_of_run ran roomNow) (keyed_of_run ran) roomNext
    (newer_of_run onward room) countable told

end Fleet

end Leasehold
