import Mathlib.Data.List.Nodup
import Leasehold.Proofs.Scaling.Verdict

set_option autoImplicit false

/-!
The end of a crew. Once its context has been cancelled, none of its elections begins a call, and each
of its replicas ends before time passes, unless it waits for a call or for a reconcile. Replicas that
have returned are listed once each: the results bear the functions of the settings, as often as these
list them.
-/

namespace Leasehold

namespace Fleet

variable {fleet next last gone : Fleet} {event : FleetEvent} {id : Nat}
  {replica after : Replica} {terms : BucketTerms} {events done rest : List FleetEvent}

/-! ### Who is there, and who has ended -/

theorem EventEffect.persists (happened : fleet.EventEffect event next)
    (found : fleet.replicas[id]? = some replica) :
    ∃ after, next.replicas[id]? = some after ∧ after.assignment = replica.assignment := by
  have moved {actor : Nat} {rival : Replica} {branch? : Option Branch} {activity : Activity}
      {contest : Contest} (was : fleet.replicas[actor]? = some rival) :
      ∃ after, (fleet.advance actor rival branch? activity contest).replicas[id]? = some after ∧
        after.assignment = replica.assignment := by
    by_cases own : actor = id
    · subst own
      cases found.symm.trans was
      exact ⟨_, found_advance found, rfl⟩
    · exact ⟨replica, (found_advance_of_ne own).trans found, rfl⟩
  cases happened with
  | drifted | passed | ignored => exact ⟨replica, found, rfl⟩
  | grown =>
      exact ⟨replica, (List.getElem?_append_left (List.getElem?_eq_some_iff.mp found).1).trans found,
        rfl⟩
  | proceeded _ _ _ _ _ _ _ was => exact moved was
  | broken _ _ _ _ was => exact moved was

theorem assigned_of_steps (found : fleet.replicas[id]? = some replica)
    (run : fleet.steps? events = some last) :
    ∃ after, last.replicas[id]? = some after ∧ after.assignment = replica.assignment := by
  refine Runs.induct (motive := fun _ last => ∃ after, last.replicas[id]? = some after ∧
    after.assignment = replica.assignment) ⟨replica, found, rfl⟩ ?_ events run
  intro _ state _ next _ ih stepped
  obtain ⟨middle, there, same⟩ := ih
  obtain ⟨after, thereNext, again⟩ := (eventEffect_of_step? stepped).persists there
  exact ⟨after, thereNext, again.trans same⟩

structure Closed (fleet : Fleet) : Prop where
  nodup : fleet.endings.Nodup
  listed : ∀ id, id ∈ fleet.endings ↔
    ∃ replica, fleet.replicas[id]? = some replica ∧ replica.isOver = true

theorem Closed.advance {branch? : Option Branch} {activity : Activity} {contest : Contest}
    (closed : fleet.Closed) (found : fleet.replicas[id]? = some replica)
    (going : replica.isOver = false) : (fleet.advance id replica branch? activity contest).Closed := by
  have unlisted : id ∉ fleet.endings := by
    intro early
    obtain ⟨same, again, finished⟩ := (closed.listed id).mp early
    cases found.symm.trans again
    cases going.symm.trans finished
  constructor
  · simp only [Fleet.advance]
    split
    · exact List.nodup_append.mpr ⟨closed.nodup, List.nodup_singleton id, by
        rintro one early other last rfl
        rw [List.mem_singleton.mp last] at early
        exact unlisted early⟩
    · exact closed.nodup
  · intro other
    by_cases own : other = id
    · subst own
      rw [found_advance found]
      simp only [Fleet.advance]
      split
      · rename_i finished
        exact iff_of_true (List.mem_concat_self) ⟨_, rfl, finished⟩
      · rename_i still
        refine iff_of_false unlisted ?_
        rintro ⟨after, ⟨⟩, finished⟩
        exact still finished
    · rw [found_advance_of_ne (Ne.symm own), ← closed.listed other]
      simp only [Fleet.advance]
      split
      · rw [List.mem_append, List.mem_singleton]
        exact or_iff_left own
      · exact Iff.rfl

theorem EventEffect.closed (happened : fleet.EventEffect event next) (closed : fleet.Closed) :
    next.Closed := by
  cases happened with
  | drifted | passed | ignored => exact ⟨closed.nodup, closed.listed⟩
  | grown _ recruits _ fresh =>
      refine ⟨closed.nodup, fun id => (closed.listed id).trans ?_⟩
      constructor
      · rintro ⟨replica, found, finished⟩
        exact ⟨replica, (List.getElem?_append_left
          (List.getElem?_eq_some_iff.mp found).1).trans found, finished⟩
      · rintro ⟨replica, found, finished⟩
        by_cases old : id < fleet.replicas.length
        · rw [List.getElem?_append_left old] at found
          exact ⟨replica, found, finished⟩
        · rw [List.getElem?_append_right (Nat.not_lt.mp old)] at found
          rw [Replica.isOver, fresh replica (List.mem_of_getElem? found)] at finished
          cases finished
  | proceeded _ _ _ _ _ _ _ found _ step => exact closed.advance found step.going
  | broken _ _ _ _ found going => exact closed.advance found going

theorem closed_of_run (run : (opening terms).steps? events = some fleet) : fleet.Closed := by
  refine Runs.induct (motive := fun _ fleet => fleet.Closed) ?_ ?_ events run
  · refine ⟨List.nodup_nil, fun id => iff_of_false List.not_mem_nil ?_⟩
    rintro ⟨_, never, _⟩
    cases never
  · intro _ _ _ _ _ ih stepped
    exact (eventEffect_of_step? stepped).closed ih

/-! ### After the context has been cancelled -/

/-- Under a cancelled context a replica begins no call, in whatever election. -/
theorem silent_of_gone (ran : (opening terms).steps? done = some gone)
    (found : gone.replicas[id]? = some replica)
    (cancelled : gone.contest.isCancelled replica.assignment.context = true)
    (run : gone.steps? rest = some last) :
    ∀ election ∈ (opening terms).elections id (done ++ rest),
      last.contest.issuedBy election = gone.contest.issuedBy election := by
  refine Runs.induct (motive := fun rest last =>
    ∀ election ∈ (opening terms).elections id (done ++ rest),
      last.contest.issuedBy election = gone.contest.issuedBy election) (fun _ _ => rfl) ?_ rest run
  intro rest fleet event next reached ih stepped election present
  have began := (steps?_append ran rest).trans reached
  obtain ⟨later, there, same⟩ := assigned_of_steps found reached
  have stillGone : fleet.contest.isCancelled later.assignment.context = true := by
    rw [same]
    exact gone_of_steps cancelled reached
  rw [← List.append_assoc, elections_concat began] at present
  rcases List.mem_append.mp present with old | new
  · obtain ⟨asked, onward⟩ := (eventEffect_of_step? stepped).onward
    obtain ⟨member, seated, begun, context⟩ :=
      ((careers_of_run began).career id later there).entered election old
    have interrupted : fleet.contest.Interrupted member :=
      Or.inr ⟨begun, by rw [context]; exact stillGone⟩
    exact (onward.silent election member seated (Or.inl interrupted)).trans (ih election old)
  · rcases entered_cases fleet id event with none | ⟨entrant, enters⟩
    · rw [none] at new
      cases new
    · rw [enters] at new
      obtain rfl := List.mem_singleton.mp new
      have belated : Belated terms (done ++ rest) id fleet later event election next :=
        ⟨began, there, stillGone, enters, stepped⟩
      obtain ⟨_, _, _, doomed⟩ := belated.doomed
      obtain ⟨_, _, _, fresh⟩ := event_of_entered enters
      have grown : gone.contest.members.length ≤ fleet.contest.members.length :=
        kept_of_steps (fun _ _ _ onward grown => Nat.le_trans grown onward.grown) (Nat.le_refl _)
          reached
      rw [doomed.silent, Contest.issuedBy_of_missing (List.getElem?_eq_none_iff.mpr (fresh ▸ grown))]

/-- A replica that waits for a call of its election or for a reconcile. -/
def Busy (fleet : Fleet) (replica : Replica) : Prop :=
  (∃ term doneAt, replica.activity = .reconciling term doneAt) ∨
    ∃ term member stage began, replica.activity = .watching term ∧
      fleet.contest.members[term.member]? = some member ∧
      member.candidate.task = .calling stage began

theorem over_of_gone (run : (opening terms).steps? events = some fleet)
    (found : fleet.replicas[id]? = some replica)
    (cancelled : fleet.contest.isCancelled replica.assignment.context = true)
    (quiet : fleet.quiet = true) (idle : ¬fleet.Busy replica) : replica.isOver = true := by
  have career := (careers_of_run run).career id replica found
  cases at_rest_of_quiet quiet found with
  | finished finished => exact finished
  | reconciling term doneAt activity => exact absurd (Or.inl ⟨term, doneAt, activity⟩) idle
  | backingOff _ _ going => cases going.symm.trans cancelled
  | watching term activity unclosed =>
      obtain ⟨former, member, whole, _, engaged⟩ :=
        career.doing.engagement (Replica.term?_of_watching activity)
      obtain ⟨same, seated, begun, context⟩ := career.entered term.member (by
        rw [whole]
        exact List.mem_concat_self)
      cases engaged.seated.symm.trans seated
      cases task : member.candidate.task with
      | unstarted => exact absurd task begun
      | between stage =>
          have interrupted : fleet.contest.Interrupted member :=
            Or.inr ⟨begun, by rw [context]; exact cancelled⟩
          exact absurd task (Contest.not_between_of_quiet (Bool.and_eq_true_iff.mp quiet).1 seated
            interrupted)
      | calling stage began =>
          exact absurd (Or.inr ⟨term, member, stage, began, activity, seated, task⟩) idle
      | ended => cases (unclosed member seated).symm.trans (Candidate.closed_of_ended task)

/-! ### What a crew returns -/

variable {crew : Crew} {settings : Settings} {context : String} {earlier : Fleet}
  {before later : List FleetEvent}

/-- The replicas of a crew that have returned are listed once each. -/
theorem results_perm (closed : fleet.Closed) (distinct : crew.replicas.Nodup)
    (finished : ∀ id ∈ crew.replicas, ∃ replica, fleet.replicas[id]? = some replica ∧
      replica.isOver = true) :
    (crew.results fleet).Perm (crew.replicas.filterMap (Crew.result? fleet)) := by
  apply List.Perm.filterMap
  refine (List.perm_ext_iff_of_nodup (closed.nodup.filter _) distinct).mpr fun id => ?_
  rw [List.mem_filter, decide_eq_true_eq]
  exact and_iff_right_of_imp fun present => (closed.listed id).mpr (finished id present)

/-- What is known of each number of a range, in order. -/
theorem fst_filterMap_range' {α β : Type} {items : List α} {first : Nat}
    {known : Nat → Option (α × β)}
    (each : ∀ place item, items[place]? = some item →
      ∃ more, known (first + place) = some (item, more)) :
    ((List.range' first items.length).filterMap known).map Prod.fst = items := by
  induction items generalizing first with
  | nil => rfl
  | cons item rest ih =>
      obtain ⟨more, here⟩ := each 0 item rfl
      have further := @ih (first + 1) fun place other there => by
        obtain ⟨further, known⟩ := each (place + 1) other there
        refine ⟨further, ?_⟩
        rw [← known]
        congr 1
        omega
      rw [List.length_cons, List.range'_succ, List.filterMap_cons, show known first = _ from here,
        List.map_cons, further]

theorem step?_spawn (fleet : Fleet) (settings : Settings) (context : String) :
    fleet.step? (.act (.spawn settings context)) = some (fleet.spawn settings context).2 :=
  rfl

/-- Each function of the settings has its replica in the crew. -/
theorem enlisted_of_spawn {place : Nat} {function : String}
    (run : (earlier.spawn settings context).2.steps? later = some fleet)
    (listed : settings.scaler.functions[place]? = some function) :
    ∃ replica, fleet.replicas[earlier.replicas.length + place]? = some replica ∧
      replica.assignment = assignmentFor settings context function := by
  have there : (earlier.spawn settings context).2.replicas[earlier.replicas.length + place]? =
      some ⟨assignmentFor settings context function, .joining⟩ := by
    simp only [spawn, foldl_add]
    rw [List.getElem?_append_right (Nat.le_add_right _ _), Nat.add_sub_cancel_left,
      List.getElem?_map, listed]
    rfl
  exact assigned_of_steps there run

theorem enlisted_of_mem (run : (earlier.spawn settings context).2.steps? later = some fleet)
    (present : id ∈ (earlier.spawn settings context).1.replicas) :
    ∃ replica, fleet.replicas[id]? = some replica ∧ replica.assignment.context = context := by
  obtain ⟨place, inside, rfl⟩ := List.mem_range'.mp present
  rw [Nat.one_mul]
  obtain ⟨replica, found, assigned⟩ :=
    enlisted_of_spawn run (List.getElem?_eq_getElem inside)
  exact ⟨replica, found, by rw [assigned]; rfl⟩

theorem result?_of_done {result : Except ReplicaError Status}
    (found : fleet.replicas[id]? = some replica) (returned : replica.activity = .done result) :
    Crew.result? fleet id = some (replica.assignment.function, result) := by
  simp only [Crew.result?, found, Option.bind_eq_bind, Option.bind_some, returned]

theorem done_of_result? {name : String} {result : Except ReplicaError Status}
    (returned : Crew.result? fleet id = some (name, result)) :
    ∃ replica, fleet.replicas[id]? = some replica ∧ replica.activity = .done result ∧
      replica.assignment.function = name := by
  obtain ⟨replica, found, shown⟩ := Option.bind_eq_some_iff.mp returned
  refine ⟨replica, found, ?_⟩
  split at shown
  · rename_i own activity
    cases shown
    exact ⟨activity, rfl⟩
  · cases shown

theorem fair_of_result? {name : String} {result : Except ReplicaError Status}
    (run : (opening terms).steps? events = some fleet)
    (returned : Crew.result? fleet id = some (name, result)) :
    result = .ok .stopped ∨ result = .ok .cancelled ∨
      ∃ error, result = .error error ∧ error.function = name := by
  obtain ⟨replica, found, activity, rfl⟩ := done_of_result? returned
  have career := (careers_of_run run).career id replica found
  cases result with
  | ok status =>
      rcases (well_of_career career activity).1 with rfl | rfl
      · exact Or.inl rfl
      · exact Or.inr (Or.inl rfl)
  | error error => exact Or.inr (Or.inr ⟨error, rfl, (error_cases career activity).1⟩)

theorem step?_cancel (fleet : Fleet) (context : String) :
    fleet.step? (.act (.among (.cancel context))) =
      some { fleet with contest := fleet.contest.cancel context } := by
  have admitted : fleet.admits (.among (.cancel context)) = true := by
    refine List.all_eq_true.mpr fun replica _ => ?_
    cases replica.term? <;> rfl
  rw [step?, if_pos admitted]
  rfl

structure Dismissed (terms : BucketTerms) (events : List FleetEvent) (crew : Crew)
    (functions : List String) (spawned : Fleet) (later : List FleetEvent) (fleet : Fleet) :
    Prop where
  /-- A crew can be asked to stop at any time. -/
  shuts : fleet.step? (.act (.among (.cancel crew.context))) = some (crew.shutdown fleet) ∧
    (crew.shutdown fleet).contest.isCancelled crew.context = true
  silent : ∀ done rest gone, later = done ++ rest → spawned.steps? done = some gone →
    gone.contest.isCancelled crew.context = true → ∀ id ∈ crew.replicas,
      ∀ election ∈ (opening terms).elections id events,
        fleet.contest.issuedBy election = gone.contest.issuedBy election
  complete : fleet.quiet = true → fleet.contest.isCancelled crew.context = true →
    ∀ id ∈ crew.replicas, ∃ replica, fleet.replicas[id]? = some replica ∧
      (¬fleet.Busy replica → replica.isOver = true)
  returned : (∀ id ∈ crew.replicas, ∃ replica result, fleet.replicas[id]? = some replica ∧
      replica.activity = .done result) →
    ((crew.results fleet).map Prod.fst).Perm functions ∧
      ∀ name result, (name, result) ∈ crew.results fleet →
        result = .ok .stopped ∨ result = .ok .cancelled ∨
          ∃ error, result = .error error ∧ error.function = name

theorem dismissed_of_run (ran : (opening terms).steps? before = some earlier)
    (run : (opening terms).steps? (before ++ .act (.spawn settings context) :: later) = some fleet) :
    Dismissed terms (before ++ .act (.spawn settings context) :: later)
      (earlier.spawn settings context).1 settings.scaler.functions
      (earlier.spawn settings context).2 later fleet := by
  have onward := split_of_run run ran (step?_spawn earlier settings context)
  refine ⟨⟨step?_cancel fleet context, decide_eq_true List.mem_cons_self⟩, ?_, ?_, ?_⟩
  · rintro done rest gone rfl reached cancelled id present
    have began : (opening terms).steps? (before ++ .act (.spawn settings context) :: done) =
        some gone := by
      rw [steps?_append ran, steps?_cons (step?_spawn earlier settings context)]
      exact reached
    obtain ⟨replica, found, own⟩ := enlisted_of_mem reached present
    have silent := @silent_of_gone fleet gone id replica terms _ rest began found
      (by rw [own]; exact cancelled) ((steps?_append reached rest).symm.trans onward)
    rw [List.append_assoc] at silent
    exact silent
  · intro quiet cancelled id present
    obtain ⟨replica, found, own⟩ := enlisted_of_mem onward present
    exact ⟨replica, found, over_of_gone run found (by rw [own]; exact cancelled) quiet⟩
  · intro returned
    have listed := @results_perm fleet (earlier.spawn settings context).1 (closed_of_run run)
      (List.nodup_range' _) fun id present => by
        obtain ⟨replica, result, found, activity⟩ := returned id present
        exact ⟨replica, found, by rw [Replica.isOver, activity]⟩
    constructor
    · refine (listed.map Prod.fst).trans (List.Perm.of_eq ?_)
      refine fst_filterMap_range' fun place function here => ?_
      obtain ⟨replica, found, assigned⟩ := enlisted_of_spawn onward here
      obtain ⟨same, result, again, activity⟩ := returned (earlier.replicas.length + place)
        (List.mem_range'.mpr ⟨place, (List.getElem?_eq_some_iff.mp here).1, by rw [Nat.one_mul]⟩)
      cases found.symm.trans again
      refine ⟨result, ?_⟩
      rw [result?_of_done found activity, assigned]
      rfl
    · intro name result present
      obtain ⟨id, _, shown⟩ := List.mem_filterMap.mp present
      exact fair_of_result? run shown

def doubled : Settings := { scaler := { functions := ["f", "f"] } }

/-- The crew is asked to stop when one of its two replicas has just stood for election. -/
def recalled : List FleetEvent :=
  [.act (.proceed 0 .join ⟨"x"⟩ 0), .act (.among (.cancel "c")), .act (.proceed 1 .join ⟨"y"⟩ 0),
    .act (.among (.proceed 1 {})), .act (.proceed 1 .hear ⟨""⟩ 0), .act (.proceed 0 .heed ⟨""⟩ 0),
    .act (.among (.proceed 0 {})), .act (.proceed 0 .hear ⟨""⟩ 0)]

def afterRecalled : Fleet where
  contest :=
    { bucket := { terms := ⟨"b", 2_000_000_000⟩ }
      cancelled := ["c"]
      members :=
        [{ candidate :=
            { candidacy := (assignmentFor doubled "c" "f").standing ⟨"x"⟩
              task := .ended
              stopRequested := true
              reports := [.stopped] }
           context := "c" },
          { candidate :=
            { candidacy := (assignmentFor doubled "c" "f").standing ⟨"y"⟩
              task := .ended
              stopRequested := true
              reports := [.cancelled] }
            context := "c" }] }
  replicas :=
    [⟨assignmentFor doubled "c" "f", .done (.ok .stopped)⟩,
      ⟨assignmentFor doubled "c" "f", .done (.ok .cancelled)⟩]
  endings := [1, 0]

theorem run_recalled :
    (opening ⟨"b", 2_000_000_000⟩).steps? (.act (.spawn doubled "c") :: recalled) =
      some afterRecalled := by
  rfl

theorem dismissed_afterRecalled :
    (opening ⟨"b", 2_000_000_000⟩).steps? [] = some (opening ⟨"b", 2_000_000_000⟩) ∧
      (opening ⟨"b", 2_000_000_000⟩).steps? (.act (.spawn doubled "c") :: recalled) =
        some afterRecalled ∧
      Dismissed ⟨"b", 2_000_000_000⟩ (.act (.spawn doubled "c") :: recalled)
        ((opening ⟨"b", 2_000_000_000⟩).spawn doubled "c").1 ["f", "f"]
        ((opening ⟨"b", 2_000_000_000⟩).spawn doubled "c").2 recalled afterRecalled :=
  ⟨rfl, run_recalled, @dismissed_of_run afterRecalled _ doubled "c" _ [] recalled rfl run_recalled⟩

end Fleet

end Leasehold
