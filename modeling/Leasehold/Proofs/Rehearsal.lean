import Leasehold.Rehearsal.Elections
import Leasehold.Rehearsal.Scalers
import Leasehold.Proofs.Scaling.Shift

set_option autoImplicit false

/-!
A rehearsal is a run.

Whoever a rehearsal lets go on could have gone on, and it lets time pass only while all wait for the
clock. So each of its steps is an action of the fleet, and whatever a script shows is a state that a
fleet can reach. A rehearsal takes only one of the steps that are open, but it takes one as long as
any is.
-/

namespace Leasehold

namespace Fleet

variable {terms : BucketTerms} {fleet next : Fleet}

theorem Reachable.act (reached : Reachable terms fleet) (action : FleetAction)
    (acted : fleet.act? action = some next) : Reachable terms next := by
  obtain ⟨actions, run⟩ := reached
  refine ⟨actions ++ [action], ?_⟩
  rw [run?, Runs.foldlM_concat, ← run?, run, Option.bind_some]
  exact acted

theorem Reachable.among {contest : Contest} (reached : Reachable terms fleet) (action : Action)
    (acted : fleet.contest.act? action = some contest)
    (stands : ∀ instant, action ≠ .passTo instant) :
    Reachable terms { fleet with contest } := by
  refine reached.act (.among action) ?_
  rw [act?_among stands, acted]
  rfl

end Fleet

namespace Rehearsal

variable {terms : BucketTerms} {rehearsal next : Rehearsal} {id : Nat} {member : Member}
  {replica : Replica} {branch : Branch}

/-! ### One step -/

theorem branch_of_nextBranch? (chosen : rehearsal.nextBranch? replica = some branch) :
    branch ∈ rehearsal.fleet.branches replica := by
  simp only [nextBranch?] at chosen
  split at chosen
  · next due =>
    cases chosen
    exact due
  · exact List.mem_of_mem_head? chosen

theorem nextBranch?_eq_none_iff :
    rehearsal.nextBranch? replica = none ↔ rehearsal.fleet.branches replica = [] := by
  simp only [nextBranch?]
  split
  · next due => simp [List.ne_nil_of_mem due]
  · exact List.head?_eq_none_iff

theorem forall_mem_zipIdx {α : Type} (items : List α) (property : α → Prop) :
    (∀ entry ∈ items.zipIdx, property entry.1) ↔ ∀ item ∈ items, property item := by
  rw [← List.forall_mem_map, List.zipIdx_map_fst]

theorem found_of_nextReplica? (chosen : rehearsal.nextReplica? = some (id, replica, branch)) :
    rehearsal.fleet.replicas[id]? = some replica ∧ branch ∈ rehearsal.fleet.branches replica := by
  obtain ⟨⟨_, _⟩, present, chosen⟩ := List.exists_of_findSome?_eq_some chosen
  obtain ⟨_, open', same⟩ := Option.map_eq_some_iff.mp chosen
  cases same
  exact ⟨List.mk_mem_zipIdx_iff_getElem?.mp present, branch_of_nextBranch? open'⟩

theorem found_of_nextMember? (chosen : rehearsal.nextMember? = some (id, member)) :
    rehearsal.fleet.contest.members[id]? = some member ∧
      (rehearsal.fleet.contest.step? member).isSome = true := by
  obtain ⟨⟨_, _⟩, found, same⟩ := Option.map_eq_some_iff.mp chosen
  cases same
  have able := List.find?_some found
  exact ⟨List.mk_mem_zipIdx_iff_getElem?.mp (List.mem_of_find?_eq_some found), able⟩

theorem fleet_proceedReplica (rehearsal : Rehearsal) (id : Nat) (replica : Replica) (branch : Branch) :
    ∃ candidate duration, (rehearsal.proceedReplica id replica branch).fleet =
      rehearsal.fleet.proceed id branch candidate duration :=
  ⟨_, _, rfl⟩

theorem fleet_proceedMember (rehearsal : Rehearsal) (id : Nat) (member : Member) :
    ∃ plan, (rehearsal.proceedMember id member).fleet =
      { rehearsal.fleet with contest := rehearsal.fleet.contest.proceed id plan } := by
  unfold proceedMember
  split <;> exact ⟨_, rfl⟩

/-- A step of a rehearsal is an action that is open to the fleet. -/
theorem act?_of_step? (stepped : rehearsal.step? = some next) :
    ∃ action, rehearsal.fleet.act? action = some next.fleet := by
  unfold step? at stepped
  split at stepped
  · next id replica branch chosen =>
    cases stepped
    obtain ⟨found, offered⟩ := found_of_nextReplica? chosen
    obtain ⟨candidate, duration, proceeded⟩ := rehearsal.fleet_proceedReplica id replica branch
    refine ⟨.proceed id branch candidate duration, ?_⟩
    simp only [Fleet.act?, found, Option.any_some, offered, decide_true, if_true, proceeded]
  · obtain ⟨⟨id, member⟩, chosen, rfl⟩ := Option.map_eq_some_iff.mp stepped
    obtain ⟨found, able⟩ := found_of_nextMember? chosen
    obtain ⟨plan, proceeded⟩ := rehearsal.fleet_proceedMember id member
    refine ⟨.among (.proceed id plan), ?_⟩
    simp only [Fleet.act?, Contest.act?, found, Option.any_some, able, if_true, proceeded,
      Option.map_some]

/-- A rehearsal goes on as long as anybody can. -/
theorem step?_eq_none_iff : rehearsal.step? = none ↔ rehearsal.fleet.quiet = true := by
  have replicas : rehearsal.nextReplica? = none ↔
      ∀ replica ∈ rehearsal.fleet.replicas, rehearsal.fleet.branches replica = [] := by
    simp only [nextReplica?, List.findSome?_eq_none_iff, Option.map_eq_none_iff,
      nextBranch?_eq_none_iff]
    exact forall_mem_zipIdx _ (rehearsal.fleet.branches · = [])
  have members : rehearsal.nextMember? = none ↔ rehearsal.fleet.contest.quiet = true := by
    simp only [nextMember?, Option.map_eq_none_iff, List.find?_eq_none, Contest.quiet,
      List.all_eq_true, Option.not_isSome_iff_eq_none, Option.isNone_iff_eq_none]
    exact forall_mem_zipIdx _ (rehearsal.fleet.contest.step? · = none)
  rw [Fleet.quiet, Bool.and_eq_true, ← members, List.all_eq_true]
  simp only [List.isEmpty_iff, ← replicas, step?]
  cases chosen : rehearsal.nextReplica? with
  | none => simp
  | some next => simp

/-! ### One instant, and the passing of time -/

theorem reachable_settleWithin {steps : Nat} (reached : Fleet.Reachable terms rehearsal.fleet) :
    Fleet.Reachable terms (rehearsal.settleWithin steps).fleet := by
  induction steps generalizing rehearsal with
  | zero => exact reached
  | succ steps ih =>
      unfold settleWithin
      split
      · next stepped =>
        obtain ⟨action, acted⟩ := act?_of_step? stepped
        exact ih (reached.act action acted)
      · exact reached

theorem reachable_settle (reached : Fleet.Reachable terms rehearsal.fleet) :
    Fleet.Reachable terms rehearsal.settle.fleet :=
  reachable_settleWithin reached

theorem act?_of_passTo? {instant : Nat} (passed : rehearsal.passTo? instant = some next) :
    rehearsal.fleet.act? (.passTo instant) = some next.fleet := by
  obtain ⟨fleet, passes, rfl⟩ := Option.map_eq_some_iff.mp passed
  exact passes

theorem reachable_playUntil (goal : Rehearsal → Bool) (instant : Nat)
    (reached : Fleet.Reachable terms rehearsal.fleet) :
    Fleet.Reachable terms (playUntil goal instant rehearsal).fleet := by
  induction rehearsal using playUntil.induct goal instant with
  | case1 rehearsal settled reachedGoal =>
      rw [playUntil, if_pos reachedGoal]
      exact reachable_settle reached
  | case2 rehearsal settled farther stuck =>
      rw [playUntil, if_neg farther, stuck]
      exact reachable_settle reached
  | case3 rehearsal settled farther next passed early ih =>
      rw [playUntil, if_neg farther, passed]
      simp only [if_pos early]
      exact ih ((reachable_settle reached).act _ (act?_of_passTo? passed))
  | case4 rehearsal settled farther next passed late =>
      rw [playUntil, if_neg farther, passed]
      simp only [if_neg late]
      exact reachable_settle ((reachable_settle reached).act _ (act?_of_passTo? passed))

/-! ### Scripts -/

theorem reachable_withContest {contest : Contest}
    (reached : Fleet.Reachable terms rehearsal.fleet) (action : Action)
    (acted : rehearsal.fleet.contest.act? action = some contest)
    (stands : ∀ instant, action ≠ .passTo instant) :
    Fleet.Reachable terms (rehearsal.withContest contest).fleet :=
  reached.among action acted stands

theorem reachable_common (step : CommonStep) (reached : Fleet.Reachable terms rehearsal.fleet) :
    Fleet.Reachable terms (rehearsal.common step).2.fleet := by
  cases step with
  | advance duration => exact reachable_playUntil _ _ reached
  | cancel context =>
      exact reachable_withContest reached (.cancel context) rfl (by simp)
  | rule rule => exact reached
  | inject failure =>
      exact reachable_withContest reached (.inject failure) rfl (by simp)
  | perform operation =>
      exact reachable_withContest reached (.perform operation) rfl (by simp)

end Rehearsal

namespace ElectionScript

variable {terms : BucketTerms} {script : ElectionScript}

theorem reachable_dropElection (seat : Seat)
    (reached : Fleet.Reachable terms script.rehearsal.fleet) :
    Fleet.Reachable terms (script.dropElection seat).rehearsal.fleet := by
  unfold dropElection
  split
  · next election _ =>
    exact Rehearsal.reachable_withContest reached (.stop election) rfl (by simp)
  · exact reached

theorem reachable_dropReceiver (seat : Seat)
    (reached : Fleet.Reachable terms script.rehearsal.fleet) :
    Fleet.Reachable terms (script.dropReceiver seat).rehearsal.fleet := by
  unfold dropReceiver
  split
  · next election _ =>
    exact Rehearsal.reachable_withContest reached (.deafen election) rfl (by simp)
  · exact reached

theorem reachable_nominate (name : String) (candidacy : Candidacy)
    (reached : Fleet.Reachable terms script.rehearsal.fleet) :
    Fleet.Reachable terms (script.nominate name candidacy).2.rehearsal.fleet := by
  simp only [nominate]
  split
  · exact reached
  · next contest nominated =>
    have acted : script.contest.act? (.nominate candidacy) = some contest := by
      simp only [Contest.act?, nominated, Except.toOption]
    refine reachable_dropReceiver _ (reachable_dropElection _ ?_)
    exact Rehearsal.reachable_withContest reached _ acted (by simp)

theorem reachable_withElection {name : String} {act : Seat → Nat → ElectionAnswer × ElectionScript}
    (reached : Fleet.Reachable terms script.rehearsal.fleet)
    (acts : ∀ seat election, Fleet.Reachable terms (act seat election).2.rehearsal.fleet) :
    Fleet.Reachable terms (script.withElection name act).2.rehearsal.fleet := by
  simp only [withElection]
  split
  · exact acts _ _
  · exact reached

theorem reachable_take (step : ElectionStep)
    (reached : Fleet.Reachable terms script.rehearsal.fleet) :
    Fleet.Reachable terms (script.take step).2.rehearsal.fleet := by
  cases step with
  | nominate name candidacy => exact reachable_nominate name candidacy reached
  | start name context =>
      refine reachable_withElection reached fun seat election => ?_
      split
      · exact reached
      · next contest started =>
        have acted : script.contest.act? (.start election context) = some contest := by
          simp only [Contest.act?, started, Except.toOption]
        exact Rehearsal.reachable_withContest reached _ acted (by simp)
  | stop name =>
      refine reachable_withElection reached fun seat election => ?_
      exact Rehearsal.reachable_withContest reached (.stop election) rfl (by simp)
  | describe name =>
      refine reachable_withElection reached fun seat election => ?_
      split <;> exact reached
  | dropElection name =>
      exact reachable_withElection reached fun seat _ => reachable_dropElection seat reached
  | dropReceiver name => exact reachable_dropReceiver _ reached
  | common step => exact Rehearsal.reachable_common step reached

theorem reachable_step (step : ElectionStep)
    (reached : Fleet.Reachable terms script.rehearsal.fleet) :
    Fleet.Reachable terms (script.step step).2.rehearsal.fleet :=
  Rehearsal.reachable_settle (reachable_take step reached)

/-- What a script about elections shows is a state of a fleet, after any number of its steps. -/
theorem reachable_of_steps (terms : BucketTerms) (steps : List ElectionStep) :
    Fleet.Reachable terms
      (steps.foldl (fun script step => (script.step step).2) (opening terms)).rehearsal.fleet := by
  refine List.foldlRecOn (motive := fun (script : ElectionScript) =>
    Fleet.Reachable terms script.rehearsal.fleet) steps _ ⟨[], rfl⟩ ?_
  intro script reached step _
  exact reachable_step step reached

end ElectionScript

namespace ScalerScript

variable {terms : BucketTerms} {script : ScalerScript}

theorem reachable_run (name function : String) (settings : Settings) (context : String)
    (autoscaler? : Option (List (Rule String Nat)))
    (reached : Fleet.Reachable terms script.rehearsal.fleet) :
    Fleet.Reachable terms
      (script.run name function settings context autoscaler?).rehearsal.fleet := by
  have added := reached.act (.add (Fleet.assignmentFor settings context function)) rfl
  cases autoscaler? <;> exact added

theorem reachable_abort (crew : Crew) {fleet : Fleet} (reached : Fleet.Reachable terms fleet) :
    Fleet.Reachable terms (crew.abort fleet) := by
  unfold Crew.abort
  induction crew.replicas generalizing fleet with
  | nil => exact reached
  | cons id rest ih => exact ih (reached.act (.abort id) rfl)

theorem reachable_joinCrew (name : String) (crew : Crew) (timeout : Nat)
    (reached : Fleet.Reachable terms script.rehearsal.fleet) :
    Fleet.Reachable terms (script.joinCrew name crew timeout).2.rehearsal.fleet := by
  have played := Rehearsal.reachable_playUntil (fun rehearsal => crew.isOver rehearsal.fleet)
    (script.rehearsal.now + timeout) reached
  simp only [joinCrew]
  split
  · exact played
  · exact reachable_abort crew played

theorem reachable_take (step : ScalerStep)
    (reached : Fleet.Reachable terms script.rehearsal.fleet) :
    Fleet.Reachable terms (script.take step).2.rehearsal.fleet := by
  cases step with
  | run name function settings context autoscaler? =>
      exact reachable_run name function settings context autoscaler? reached
  | spawnCrew name settings context rules =>
      exact reached.act (.spawn settings context) rfl
  | shutdownCrew name =>
      simp only [take]
      split
      · next crew _ => exact reached.among (.cancel crew.context) rfl (by simp)
      · exact reached
  | countCrew name =>
      simp only [take]
      split <;> exact reached
  | joinCrew name timeout =>
      simp only [take]
      split
      · exact reachable_joinCrew name _ timeout reached
      · exact reached
  | common step =>
      have done := Rehearsal.reachable_common step reached
      simp only [take, common]
      split <;> exact done

theorem reachable_step (step : ScalerStep)
    (reached : Fleet.Reachable terms script.rehearsal.fleet) :
    Fleet.Reachable terms (script.step step).2.rehearsal.fleet :=
  Rehearsal.reachable_settle (reachable_take step reached)

/-- What a script about scalers shows is a state of a fleet, after any number of its steps. -/
theorem reachable_of_steps (terms : BucketTerms) (steps : List ScalerStep) :
    Fleet.Reachable terms
      (steps.foldl (fun script step => (script.step step).2) (opening terms)).rehearsal.fleet := by
  refine List.foldlRecOn (motive := fun (script : ScalerScript) =>
    Fleet.Reachable terms script.rehearsal.fleet) steps _ ⟨[], rfl⟩ ?_
  intro script reached step _
  exact reachable_step step reached

end ScalerScript

end Leasehold
