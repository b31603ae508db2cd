import Leasehold.Proofs.Scaling.Recess

set_option autoImplicit false

/-!
What a replica returns, and what it does about a failed election.

The verdict follows from the elections that the replica has entered. It is well only after the context
has been cancelled. It is an error of the settings only if no election has been entered, and an error
of the store only if the replica does not try again and its one election has failed with this error.
-/

namespace Leasehold

theorem Candidacy.accept_error {candidacy : Candidacy} {terms : BucketTerms} {cause : ElectionError}
    (refused : candidacy.accept terms = .error cause) :
    (∃ reason, cause = .invalidConfig reason) ∨ ∃ name, cause = .missingTtl name := by
  unfold accept validate at refused
  split at refused
  · cases refused
    exact Or.inr ⟨_, rfl⟩
  · split at refused
    · cases refused
      exact Or.inl ⟨_, rfl⟩
    · cases refused

namespace Fleet

variable {fleet : Fleet} {id : Nat} {replica : Replica} {terms : BucketTerms}
  {events : List FleetEvent} {elections : List Nat} {cause : StoreError}

structure Ruled (terms : BucketTerms) (events : List FleetEvent) (fleet : Fleet) (id : Nat)
    (replica : Replica) : Prop where
  well : ∀ status, replica.activity = .done (.ok status) →
    (status = .stopped ∨ status = .cancelled) ∧
      fleet.contest.isCancelled replica.assignment.context = true
  kinds : ∀ error, replica.activity = .done (.error error) →
    error.function = replica.assignment.function ∧
      ((∃ reason, error.cause = .invalidConfig reason) ∨ (∃ name, error.cause = .missingTtl name) ∨
        ∃ cause, error.cause = .store cause)
  /-- Only a first attempt can be refused, and nothing has been done then. -/
  refused : ∀ error, replica.activity = .done (.error error) →
    (∀ cause, error.cause ≠ .store cause) →
    (opening terms).elections id events = [] ∧ fleet.reconcilesOf id = []
  failed : ∀ error cause, replica.activity = .done (.error error) → error.cause = .store cause →
    replica.assignment.settings.recreateOnError = false ∧ ∃ last member,
      (opening terms).elections id events = [last] ∧
      fleet.contest.members[last]? = some member ∧ .error cause ∈ member.candidate.reports
  /-- If there is no second attempt, the failure of an election is what the replica returns. -/
  delivered : replica.assignment.settings.recreateOnError = false →
    ∀ entered member cause, entered ∈ (opening terms).elections id events →
      fleet.contest.members[entered]? = some member → .error cause ∈ member.candidate.reports →
      (opening terms).elections id events = [entered] ∧
        (∀ result, replica.activity = .done result →
          result = .error ⟨replica.assignment.function, .store cause⟩) ∧
        (fleet.quiet = true → replica.isOver = true ∨
          ∃ term doneAt, replica.activity = .reconciling term doneAt)
  /-- All elections of a replica but one are over. -/
  alone : ∀ one other, one ∈ (opening terms).elections id events →
    other ∈ (opening terms).elections id events → ¬fleet.contest.Over one →
    ¬fleet.contest.Over other → one = other
  paused : ∀ before event after failing was cause start, events = before ++ event :: after →
    Setback terms before id failing was event cause start →
    start.Paused id ((opening terms).elections id before)
      (failing.contest.now + was.assignment.settings.retryDelay) after fleet replica
  vain : ∀ before event after joining was new start, events = before ++ event :: after →
    Belated terms before id joining was event new start → start.Vain id new after fleet replica

theorem well_of_career {status : Status} (career : fleet.contest.Career replica elections)
    (returned : replica.activity = .done (.ok status)) :
    (status = .stopped ∨ status = .cancelled) ∧
      fleet.contest.isCancelled replica.assignment.context = true := by
  have doing := career.doing
  rw [returned] at doing
  cases doing with
  | engaged _ _ _ _ current => cases current
  | returned _ _ _ outcome _ _ _ _ farewell gone =>
      refine ⟨?_, gone⟩
      rcases farewell with rfl | rfl
      · exact Or.inl rfl
      · exact Or.inr rfl
  | gaveUp _ _ gone => exact ⟨Or.inr rfl, gone⟩
  | broken _ either => rcases either with never | never <;> cases never

/-- What a replica that returns an error has behind it. -/
theorem error_cases {error : ReplicaError} (career : fleet.contest.Career replica elections)
    (returned : replica.activity = .done (.error error)) :
    error.function = replica.assignment.function ∧
      ((elections = [] ∧ ∃ candidate : CandidateName, candidate.text ≠ "" ∧
          (replica.assignment.standing candidate).accept fleet.contest.bucket.terms =
            .error error.cause) ∨
        ∃ cause last member, error.cause = .store cause ∧
          replica.assignment.settings.recreateOnError = false ∧ elections = [last] ∧
          fleet.contest.members[last]? = some member ∧ .error cause ∈ member.candidate.reports) := by
  have doing := career.doing
  rw [returned] at doing
  cases doing with
  | engaged _ _ _ _ current => cases current
  | refused candidate cause none named refused =>
      exact ⟨rfl, Or.inl ⟨none, candidate, named, refused⟩⟩
  | failed last member cause whole final seated _ told =>
      exact ⟨rfl, Or.inr ⟨cause, last, member, rfl, final, whole, seated, told⟩⟩
  | broken _ either => rcases either with never | never <;> cases never

theorem delivered_of_career {entered : Nat} {member : Member}
    (career : fleet.contest.Career replica elections)
    (coherent : ∀ member ∈ fleet.contest.members, member.candidate.Coherent)
    (found : fleet.replicas[id]? = some replica)
    (final : replica.assignment.settings.recreateOnError = false) (present : entered ∈ elections)
    (seated : fleet.contest.members[entered]? = some member)
    (told : .error cause ∈ member.candidate.reports) :
    elections = [entered] ∧
      (∀ result, replica.activity = .done result →
        result = .error ⟨replica.assignment.function, .store cause⟩) ∧
      (fleet.quiet = true → replica.isOver = true ∨
        ∃ term doneAt, replica.activity = .reconciling term doneAt) := by
  have truthful := coherent member (List.mem_of_getElem? seated)
  have ended := truthful.ended_of_terminal told rfl
  have only : elections = [entered] := by
    have once := career.once final
    match elections, present with
    | [_], here => rw [List.mem_singleton.mp here]
    | _ :: _ :: _, _ => exact absurd once (by simp)
  have doing := career.doing
  subst only
  refine ⟨rfl, ?_, ?_⟩
  · intro result returned
    rw [returned] at doing
    cases doing with
    | engaged _ _ _ _ current => cases current
    | returned former last rival outcome whole _ was report farewell =>
        have same : last ∈ [entered] := by
          rw [whole]
          exact List.mem_concat_self
        obtain rfl := List.mem_singleton.mp same
        cases seated.symm.trans was
        rcases farewell with rfl | rfl
        · cases truthful.terminal_unique told rfl report rfl
        · cases truthful.terminal_unique told rfl report rfl
    | gaveUp _ again => cases final.symm.trans again
    | refused _ _ none => cases none
    | failed last rival other whole _ was _ report =>
        cases whole
        cases seated.symm.trans was
        cases truthful.terminal_unique told rfl report rfl
        rfl
    | broken _ either => rcases either with never | never <;> cases never
  · intro quiet
    cases at_rest_of_quiet quiet found with
    | finished finished => exact Or.inl finished
    | reconciling term doneAt activity => exact Or.inr ⟨term, doneAt, activity⟩
    | backingOff _ activity => cases final.symm.trans (career.backingOff activity).2.2
    | watching term activity unclosed =>
        obtain ⟨former, _, whole, _⟩ := doing.engagement (Replica.term?_of_watching activity)
        have same : term.member ∈ [entered] := by
          rw [whole]
          exact List.mem_concat_self
        rw [List.mem_singleton.mp same] at unclosed
        cases (unclosed member seated).symm.trans (Candidate.closed_of_ended ended)

theorem alone_of_career {one other : Nat} (career : fleet.contest.Career replica elections)
    (first : one ∈ elections) (second : other ∈ elections) (going : ¬fleet.contest.Over one)
    (likewise : ¬fleet.contest.Over other) : one = other := by
  have last {entered : Nat} (present : entered ∈ elections)
      (going : ¬fleet.contest.Over entered) :
      entered = elections.getLast (List.ne_nil_of_mem present) := by
    by_contra earlier
    exact going (career.doing.over_of_dropLast entered
      (List.mem_dropLast_of_mem_of_ne_getLast present earlier))
  rw [last first going, last second likewise]

theorem split_of_run {before after : List FleetEvent} {event : FleetEvent} {earlier start : Fleet}
    (run : (opening terms).steps? (before ++ event :: after) = some fleet)
    (ran : (opening terms).steps? before = some earlier) (stepped : earlier.step? event = some start) :
    start.steps? after = some fleet := by
  rw [steps?_append ran, steps?_cons stepped] at run
  exact run

/-- Whatever the store answers and whenever the context is cancelled: what a replica returns is ruled
by what its elections have come to. -/
theorem ruled_of_run (run : (opening terms).steps? events = some fleet)
    (found : fleet.replicas[id]? = some replica) : Ruled terms events fleet id replica := by
  have careers := careers_of_run run
  have career := careers.career id replica found
  refine ⟨fun status returned => well_of_career career returned, ?_, ?_, ?_, ?_, ?_, ?_, ?_⟩
  · intro error returned
    obtain ⟨named, ⟨_, _, _, refused⟩ | ⟨cause, _, _, same, _⟩⟩ := error_cases career returned
    · refine ⟨named, ?_⟩
      rcases Candidacy.accept_error refused with invalid | missing
      · exact Or.inl invalid
      · exact Or.inr (Or.inl missing)
    · exact ⟨named, Or.inr (Or.inr ⟨cause, same⟩)⟩
  · intro error returned other
    obtain ⟨_, ⟨none, _⟩ | ⟨cause, _, _, same, _⟩⟩ := error_cases career returned
    · exact ⟨none, careers.unworked id none⟩
    · exact absurd same (other cause)
  · intro error cause returned store
    obtain ⟨_, ⟨_, _, _, refused⟩ | ⟨other, last, member, same, final, whole, seated, told⟩⟩ :=
      error_cases career returned
    · rcases Candidacy.accept_error refused with ⟨_, never⟩ | ⟨_, never⟩
      · cases store.symm.trans never
      · cases store.symm.trans never
    · cases store.symm.trans same
      exact ⟨final, last, member, whole, seated, told⟩
  · intro final entered member cause present seated told
    exact delivered_of_career career careers.coherent found final present seated told
  · intro one other first second going likewise
    exact alone_of_career career first second going likewise
  · intro before event after failing was cause start whole setback
    rw [whole] at run
    exact setback.paused_of_run (split_of_run run setback.ran setback.stepped) found
  · intro before event after joining was new start whole belated
    rw [whole] at run
    exact belated.vain_of_run (split_of_run run belated.ran belated.stepped) found

def steadfast : Assignment :=
  .of "f" { key := "", candidate := ⟨""⟩, renewEveryMs := 1500, pollEveryMs := 1000 }
    { retryDelayMs := 1 } "c"

/-- The first call fails and the replica waits. It is about to stand again when it is cancelled. -/
def discouraged : List FleetEvent :=
  [.act (.add steadfast), .act (.proceed 0 .join ⟨"x"⟩ 0), .act (.among (.proceed 0 {})),
    .dictate 0 (.error (.unavailable "down")), .act (.among (.proceed 0 {})),
    .act (.proceed 0 .hear ⟨""⟩ 0), .act (.passTo 1_000_000), .act (.proceed 0 .rejoin ⟨""⟩ 0),
    .act (.among (.cancel "c")), .act (.proceed 0 .join ⟨"y"⟩ 0), .act (.among (.proceed 1 {})),
    .act (.proceed 0 .hear ⟨""⟩ 0)]

def afterDiscouraged : Fleet where
  contest :=
    { bucket := { terms := ⟨"b", 2_000_000_000⟩ }
      now := 1_000_000
      cancelled := ["c"]
      members :=
        [{ candidate :=
            { candidacy := steadfast.standing ⟨"x"⟩
              task := .ended
              stopRequested := true
              reports := [.error (.unavailable "down")] }
           context := "c" },
          { candidate :=
            { candidacy := steadfast.standing ⟨"y"⟩
              task := .ended
              stopRequested := true
              reports := [.cancelled] }
            context := "c" }]
      calls := [⟨0, .create, 0, 0, some (0, .error (.unavailable "down")), false⟩] }
  replicas := [⟨steadfast, .done (.ok .cancelled)⟩]
  endings := [0]

theorem run_discouraged :
    (opening ⟨"b", 2_000_000_000⟩).steps? discouraged = some afterDiscouraged := by
  rfl

theorem ruled_afterDiscouraged :
    (opening ⟨"b", 2_000_000_000⟩).steps? discouraged = some afterDiscouraged ∧
      ∃ replica, afterDiscouraged.replicas[0]? = some replica ∧
        Ruled ⟨"b", 2_000_000_000⟩ discouraged afterDiscouraged 0 replica :=
  ⟨run_discouraged, _, rfl, ruled_of_run run_discouraged rfl⟩

end Fleet

end Leasehold
