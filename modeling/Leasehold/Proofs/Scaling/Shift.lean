import Mathlib.Data.List.Basic
import Leasehold.Scaling.Run
import Leasehold.Proofs.Contest.Turn

set_option autoImplicit false

/-!
What one action does to a fleet, by cases.

Replicas act on the contest only through requests: they stand for election, start what they stand
for, ask it to stop and stop listening. All else in the contest goes on without them.
-/

namespace Leasehold

inductive Action.IsRequest : Action → Prop
  | nominate (candidacy : Candidacy) : Action.IsRequest (.nominate candidacy)
  | start (id : Nat) (context : String) : Action.IsRequest (.start id context)
  | stop (id : Nat) : Action.IsRequest (.stop id)
  | deafen (id : Nat) : Action.IsRequest (.deafen id)

def Contest.Asked (contest after : Contest) : Prop :=
  ∃ requests, contest.run? requests = some after ∧ ∀ request ∈ requests, request.IsRequest

def Assignment.Proper (assignment : Assignment) : Prop :=
  assignment.candidacy.key = leaderKey assignment.function

namespace Fleet

def put (fleet : Fleet) (id : Nat) (replica : Replica) (activity : Activity) : Fleet :=
  { fleet with replicas := fleet.replicas.set id { replica with activity } }

inductive Shift (fleet : Fleet) : FleetAction → Fleet → Prop
  | grown (action : FleetAction) (recruits : List Replica)
      (idle : ∀ recruit ∈ recruits, recruit.term? = none)
      (proper : (∀ assignment, action = .add assignment → assignment.Proper) →
        ∀ recruit ∈ recruits, recruit.assignment.Proper) :
      Shift fleet action { fleet with replicas := fleet.replicas ++ recruits }
  | among (action : Action) (contest : Contest) (acted : fleet.contest.act? action = some contest)
      (stands : ∀ instant, action ≠ .passTo instant) :
      Shift fleet (.among action) { fleet with contest }
  | passed (instant : Nat) (contest : Contest) (quiet : fleet.quiet = true)
      (acted : fleet.contest.act? (.passTo instant) = some contest) :
      Shift fleet (.passTo instant) { fleet with contest }
  | ignored (action : FleetAction) : Shift fleet action fleet
  /-- A replica is out of its election, if it has been in one. -/
  | left (action : FleetAction) (id : Nat) (replica : Replica) (activity : Activity)
      (contest : Contest) (endings : List Nat) (found : fleet.replicas[id]? = some replica)
      (asked : fleet.contest.Asked contest)
      (out : Replica.term? { replica with activity } = none)
      (ended : endings = fleet.endings ∨ endings = fleet.endings ++ [id]) :
      Shift fleet action { fleet.put id replica activity with contest, endings }
  | joined (action : FleetAction) (id : Nat) (replica : Replica) (term : Term) (contest : Contest)
      (member : Member) (found : fleet.replicas[id]? = some replica)
      (asked : fleet.contest.Asked contest) (fresh : term.member = fleet.contest.members.length)
      (unheard : term.heard = 0) (idle : term.leading = false)
      (seated : contest.members[term.member]? = some member)
      (named : member.key = replica.assignment.candidacy.key)
      (silent : member.candidate.reports = []) :
      Shift fleet action { fleet.put id replica (.watching term) with contest }
  | heard (action : FleetAction) (id : Nat) (replica : Replica) (term : Term) (member : Member)
      (outcome : Outcome) (leading : Bool) (ticker : Ticker)
      (found : fleet.replicas[id]? = some replica) (watching : replica.activity = .watching term)
      (seated : fleet.contest.members[term.member]? = some member)
      (report : member.candidate.reports[term.heard]? = some outcome)
      (meaning : outcome = .won ∧ leading = true ∨ outcome = .lost ∧ leading = false) :
      Shift fleet action (fleet.put id replica
        (.watching { term with heard := term.heard + 1, leading, ticker }))
  /-- A replica goes on with the same knowledge. -/
  | kept (action : FleetAction) (id : Nat) (replica : Replica) (term : Term) (stopping : Bool)
      (contest : Contest) (found : fleet.replicas[id]? = some replica)
      (current : replica.term? = some term) (asked : fleet.contest.Asked contest) :
      Shift fleet action
        { fleet.put id replica (.watching { term with stopping }) with contest }
  | reconciled (id : Nat) (candidate : CandidateName) (duration : Nat) (replica : Replica)
      (term : Term) (found : fleet.replicas[id]? = some replica)
      (watching : replica.activity = .watching term) (leading : term.leading = true) :
      Shift fleet (.proceed id .reconcile candidate duration)
        { fleet.put id replica (.reconciling
            { term with ticker := term.ticker.take fleet.contest.now }
            (fleet.contest.now + duration))
          with reconciles := ⟨id, fleet.contest.now⟩ :: fleet.reconciles }

theorem setActivity_eq_put {fleet : Fleet} {id : Nat} {replica : Replica}
    (found : fleet.replicas[id]? = some replica) (activity : Activity) :
    fleet.setActivity id activity = fleet.put id replica activity := by
  rw [setActivity, put, List.modify_eq_set_getElem?, found]
  rfl

variable {fleet next : Fleet} {action : FleetAction} {id : Nat} {replica : Replica} {term : Term}

/-! ### Requests -/

theorem asked_refl (contest : Contest) : contest.Asked contest :=
  ⟨[], rfl, fun _ never => by cases never⟩

theorem asked_leave (contest : Contest) (member : Nat) :
    contest.Asked ((contest.stop member).deafen member) := by
  refine ⟨[.stop member, .deafen member], rfl, ?_⟩
  intro request present
  rcases List.mem_cons.mp present with rfl | last
  · exact .stop member
  · rw [List.mem_singleton.mp last]
    exact .deafen member

theorem asked_concat {contest middle after : Contest} (first : contest.Asked middle)
    (second : middle.Asked after) : contest.Asked after := by
  obtain ⟨one, ranOne, requestsOne⟩ := first
  obtain ⟨two, ranTwo, requestsTwo⟩ := second
  refine ⟨one ++ two, ?_, ?_⟩
  · rw [Contest.run?, List.foldlM_append, Option.bind_eq_bind, Option.bind_eq_some_iff]
    exact ⟨middle, ranOne, ranTwo⟩
  · intro request present
    rcases List.mem_append.mp present with early | late
    · exact requestsOne request early
    · exact requestsTwo request late

theorem joined_of_begun {contest nominated after : Contest} {candidacy : Candidacy}
    {context : String} (stands : contest.nominate candidacy = .ok nominated)
    (starts : nominated.start contest.members.length context = .ok after) :
    contest.Asked after ∧ ∃ member, after.members[contest.members.length]? = some member ∧
      member.key = candidacy.key ∧ member.candidate.reports = [] := by
  refine ⟨⟨[.nominate candidacy, .start contest.members.length context], ?_, ?_⟩, ?_⟩
  · simp only [Contest.run?, List.foldlM_cons, List.foldlM_nil, Contest.act?, stands, starts,
      Except.toOption, Option.bind_eq_bind, Option.bind_some]
    rfl
  · intro request present
    rcases List.mem_cons.mp present with rfl | last
    · exact .nominate candidacy
    · rw [List.mem_singleton.mp last]
      exact .start contest.members.length context
  · have grown : nominated.members = contest.members ++ [{ candidate := { candidacy } }] := by
      simp only [Contest.nominate] at stands
      split at stands
      · cases stands
      · cases stands
        rfl
    have found : nominated.members[contest.members.length]? =
        some { candidate := { candidacy } } := by
      rw [grown]
      exact List.getElem?_concat_length
    simp only [Contest.start, found, if_true, Contest.update_eq_put found] at starts
    cases starts
    refine ⟨_, List.getElem?_set_self ?_, rfl, rfl⟩
    rw [grown, List.length_append]
    exact Nat.lt_succ_self _

/-! ### Steps of a replica -/

theorem shift_of_conclude {contest : Contest} {activity : Activity}
    (found : fleet.replicas[id]? = some replica) (asked : fleet.contest.Asked contest)
    (out : Replica.term? { replica with activity } = none) :
    Shift fleet action (Fleet.conclude { fleet with contest } id activity) := by
  rw [conclude, @setActivity_eq_put { fleet with contest } id replica found]
  exact .left action id replica activity contest _ found asked out (Or.inr rfl)

theorem shift_of_out {contest : Contest} {activity : Activity}
    (found : fleet.replicas[id]? = some replica) (asked : fleet.contest.Asked contest)
    (out : Replica.term? { replica with activity } = none) :
    Shift fleet action (Fleet.setActivity { fleet with contest } id activity) := by
  rw [@setActivity_eq_put { fleet with contest } id replica found]
  exact .left action id replica activity contest fleet.endings found asked out (Or.inl rfl)

private theorem shift_of_join {candidate : CandidateName}
    (found : fleet.replicas[id]? = some replica) :
    Shift fleet action (fleet.join id replica.assignment candidate) := by
  simp only [join]
  cases stands : fleet.contest.nominate { replica.assignment.candidacy with candidate } with
  | error cause => exact shift_of_conclude found (asked_refl fleet.contest) rfl
  | ok nominated =>
      simp only [bind, Except.bind]
      cases starts : nominated.start fleet.contest.members.length replica.assignment.context with
      | error cause => exact shift_of_conclude found (asked_refl fleet.contest) rfl
      | ok contest =>
          obtain ⟨asked, member, seated, named, silent⟩ := joined_of_begun stands starts
          simp only
          split
          · exact shift_of_conclude found (asked_concat asked (asked_leave contest _)) rfl
          · rw [@setActivity_eq_put { fleet with contest } id replica found]
            exact .joined action id replica _ contest member found asked rfl rfl rfl seated named
              silent

private theorem shift_of_close {outcome : Outcome} (found : fleet.replicas[id]? = some replica) :
    Shift fleet action (fleet.close id replica.assignment term outcome) := by
  have asked := asked_leave fleet.contest term.member
  cases outcome with
  | error cause =>
      simp only [close]
      split
      · exact shift_of_out found asked rfl
      · exact shift_of_conclude found asked rfl
  | won | lost | cancelled | stopped => exact shift_of_conclude found asked rfl

private theorem shift_of_hear (found : fleet.replicas[id]? = some replica)
    (watching : replica.activity = .watching term) :
    Shift fleet action (fleet.hear id replica.assignment term) := by
  simp only [hear, candidate?]
  cases seated : fleet.contest.members[term.member]? with
  | none => exact shift_of_close found
  | some member =>
      simp only [Option.map_some, Option.bind_some]
      cases report : member.candidate.reports[term.heard]? with
      | none => exact shift_of_close found
      | some outcome =>
          cases outcome with
          | won =>
              simp only [setActivity_eq_put found]
              exact .heard action id replica term member .won true _ found watching seated report
                (Or.inl ⟨rfl, rfl⟩)
          | lost =>
              simp only [setActivity_eq_put found]
              exact .heard action id replica term member .lost false term.ticker found watching
                seated report (Or.inr ⟨rfl, rfl⟩)
          | error | cancelled | stopped => exact shift_of_close found

/-- Only a replica that leads by what it has heard may reconcile. -/
theorem leading_of_reconcile (offered : .reconcile ∈ fleet.branches replica) :
    ∃ term, replica.activity = .watching term ∧ term.leading = true := by
  unfold branches Replica.branches at offered
  split at offered
  · cases List.mem_singleton.mp offered
  · rename_i term watching
    refine ⟨term, watching, ?_⟩
    rcases List.mem_append.mp offered with early | due
    · rcases List.mem_append.mp early with news | gone
      · split at news
        · cases List.mem_singleton.mp news
        · cases news
      · split at gone
        · cases List.mem_singleton.mp gone
        · cases gone
    · split at due
      · rename_i both
        exact (Bool.and_eq_true_iff.mp both).1
      · cases due
  · split at offered
    · cases List.mem_singleton.mp offered
    · cases offered
  · rcases List.mem_append.mp offered with early | late
    · split at early
      · cases List.mem_singleton.mp early
      · cases early
    · split at late
      · cases List.mem_singleton.mp late
      · cases late
  · cases offered
  · cases offered
  · cases offered

private theorem shift_of_proceed {branch : Branch} {candidate : CandidateName} {duration : Nat}
    (found : fleet.replicas[id]? = some replica) (able : branch ∈ fleet.branches replica) :
    Shift fleet (.proceed id branch candidate duration)
      (fleet.proceed id branch candidate duration) := by
  simp only [proceed, found]
  split
  · exact shift_of_join found
  · rename_i term watching
    exact shift_of_hear found watching
  · rename_i term watching
    rw [setActivity_eq_put found]
    refine .kept _ id replica term true _ found (by rw [Replica.term?, watching]) ?_
    refine ⟨[.stop term.member], rfl, ?_⟩
    intro request present
    rw [List.mem_singleton.mp present]
    exact .stop term.member
  · rename_i term watching
    obtain ⟨current, same, leading⟩ := leading_of_reconcile able
    cases watching.symm.trans same
    rw [setActivity_eq_put found]
    exact .reconciled id candidate duration replica term found watching leading
  · rename_i term doneAt reconciling
    rw [setActivity_eq_put found]
    exact .kept _ id replica term term.stopping fleet.contest found
      (by rw [Replica.term?, reconciling]) (asked_refl fleet.contest)
  · exact shift_of_conclude found (asked_refl fleet.contest) rfl
  · exact shift_of_out found (asked_refl fleet.contest) rfl
  · exact .ignored _

private theorem shift_of_abort : Shift fleet (.abort id) (fleet.abort id) := by
  unfold abort
  split
  · exact .ignored _
  · rename_i replica found
    split
    · exact .ignored _
    · cases replica.term? with
      | none => exact shift_of_conclude found (asked_refl fleet.contest) rfl
      | some term => exact shift_of_conclude found (asked_leave fleet.contest term.member) rfl

theorem foldl_add (assign : String → Assignment) (functions : List String) :
    functions.foldl (fun fleet function => fleet.add (assign function)) fleet =
      { fleet with replicas := fleet.replicas ++
          functions.map fun function => ⟨assign function, .joining⟩ } := by
  induction functions generalizing fleet with
  | nil => simp
  | cons function rest ih =>
      rw [List.foldl_cons, ih]
      simp [add]

theorem awake_of_fleet {instant : Nat} (awake : fleet.wakeAt?.all (instant ≤ ·) = true) :
    fleet.contest.wakeAt?.all (instant ≤ ·) = true := by
  cases wakes : fleet.contest.wakeAt? with
  | none => rfl
  | some wake =>
      refine decide_eq_true (Contest.le_of_min? awake (List.mem_append_left _ ?_))
      rw [wakes]
      exact List.mem_singleton_self wake

theorem act?_among {action : Action} (stands : ∀ instant, action ≠ .passTo instant) :
    fleet.act? (.among action) =
      (fleet.contest.act? action).map fun contest => { fleet with contest } := by
  cases action with
  | passTo instant => exact absurd rfl (stands instant)
  | _ => rfl

theorem among_of_act? {action : Action} (acted : fleet.act? (.among action) = some next) :
    ∃ contest, (∀ instant, action ≠ .passTo instant) ∧ fleet.contest.act? action = some contest ∧
      next = { fleet with contest } := by
  have stands (instant : Nat) : action ≠ .passTo instant := by
    rintro rfl
    cases acted
  rw [act?_among stands] at acted
  obtain ⟨contest, happened, rfl⟩ := Option.map_eq_some_iff.mp acted
  exact ⟨contest, stands, happened, rfl⟩

theorem passed_of_act? {instant : Nat} (acted : fleet.act? (.passTo instant) = some next) :
    ∃ contest, fleet.quiet = true ∧ fleet.contest.act? (.passTo instant) = some contest ∧
      next = { fleet with contest } := by
  simp only [act?, passTo?] at acted
  split at acted
  · rename_i allowed
    simp only [Bool.and_eq_true, decide_eq_true_eq] at allowed
    obtain ⟨⟨quiet, later⟩, awake⟩ := allowed
    cases acted
    refine ⟨_, quiet, ?_, rfl⟩
    have still : fleet.contest.quiet = true := (Bool.and_eq_true_iff.mp quiet).1
    simp only [Contest.act?, Contest.passTo?, still, later, awake_of_fleet awake, decide_true,
      Bool.and_self, if_true]
  · cases acted

theorem shift_of_act? (acted : fleet.act? action = some next) : Shift fleet action next := by
  cases action with
  | add assignment =>
      cases acted
      refine .grown _ [{ assignment := assignment }] ?_ ?_
      · intro recruit present
        rw [List.mem_singleton.mp present]
        rfl
      · intro proper recruit present
        rw [List.mem_singleton.mp present]
        exact proper assignment rfl
  | spawn settings context =>
      simp only [act?, spawn, foldl_add, Option.some.injEq] at acted
      subst acted
      refine .grown _ _ ?_ ?_
      · intro recruit present
        obtain ⟨function, _, rfl⟩ := List.mem_map.mp present
        rfl
      · intro _ recruit present
        obtain ⟨function, _, rfl⟩ := List.mem_map.mp present
        rfl
  | proceed id branch candidate duration =>
      simp only [act?] at acted
      split at acted
      · rename_i able
        cases found : fleet.replicas[id]? with
        | none =>
            rw [found] at able
            cases able
        | some replica =>
            rw [found] at able
            cases acted
            exact shift_of_proceed found (of_decide_eq_true able)
      · cases acted
  | abort id =>
      cases acted
      exact shift_of_abort
  | among action =>
      obtain ⟨contest, stands, happened, rfl⟩ := among_of_act? acted
      exact .among action contest happened stands
  | passTo instant =>
      obtain ⟨contest, quiet, passed, rfl⟩ := passed_of_act? acted
      exact .passed instant contest quiet passed

end Fleet

end Leasehold
