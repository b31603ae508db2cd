import Mathlib.Data.List.Basic
import Leasehold.Contest.Run
import Leasehold.Proofs.Runs
import Leasehold.Proofs.Store.Performed
import Leasehold.Proofs.Election.Settled

set_option autoImplicit false

/-!
What one action does to a contest, by cases, and induction along a run.

`Contest.Turn` says once what can happen in a step, with the guard under which it happens. Each
invariant of a contest is kept by every turn and so holds of every run.
-/

namespace Leasehold

/-! ### Calls as operations -/

def Call.operation (call : Call) (candidacy : Candidacy) : Operation :=
  match call with
  | .create => .create candidacy.key candidacy.candidate.bytes
  | .renew held => .update candidacy.key candidacy.candidate.bytes held
  | .poll => .get candidacy.key

def Candidacy.seen (candidacy : Candidacy) : Reply → Entry
  | .found entry => entry
  | .written revision => ⟨candidacy.key, candidacy.candidate.bytes, revision⟩
  | .removed => ⟨candidacy.key, candidacy.candidate.bytes, {}⟩

theorem Call.operation_ne_delete (call : Call) (candidacy : Candidacy) (key : String) :
    call.operation candidacy ≠ .delete key := by
  cases call <;> (intro same; cases same)

theorem Call.perform_eq (call : Call) (candidacy : Candidacy) (bucket : Bucket) (now : Nat) :
    call.perform candidacy bucket now =
      ((bucket.perform now (call.operation candidacy)).1.map candidacy.seen,
        (bucket.perform now (call.operation candidacy)).2) := by
  cases call with
  | create =>
      simp only [perform, operation, Bucket.perform]
      rcases bucket.create now candidacy.key candidacy.candidate.bytes with ⟨_ | revision, after⟩ <;>
        rfl
  | renew held =>
      simp only [perform, operation, Bucket.perform]
      rcases bucket.update now candidacy.key candidacy.candidate.bytes held
        with ⟨_ | revision, after⟩ <;> rfl
  | poll =>
      simp only [perform, operation, Bucket.perform]
      rcases bucket.get now candidacy.key with ⟨_ | entry, after⟩ <;> rfl

/-! ### Members -/

namespace Member

def key (member : Member) : String := member.candidate.candidacy.key

def Leads (member : Member) : Prop :=
  ∃ held, member.candidate.stage?.map Stage.phase = some (.leading held)

end Member

def Bucket.struckBy (bucket : Bucket) : Option StoreError → Bucket
  | some failure => bucket.inject failure
  | none => bucket

theorem Bucket.live?_struckBy (bucket : Bucket) (fault : Option StoreError) (now : Nat)
    (key : String) : (bucket.struckBy fault).live? now key = bucket.live? now key := by
  cases fault <;> rfl

theorem Bucket.revision_struckBy (bucket : Bucket) (fault : Option StoreError) :
    (bucket.struckBy fault).revision = bucket.revision := by
  cases fault <;> rfl

inductive Action.Asks (id : Nat) : Action → Prop
  | start (context : String) : Asks id (.start id context)
  | stop : Asks id (.stop id)
  | deafen : Asks id (.deafen id)

namespace Contest

def put (contest : Contest) (id : Nat) (member : Member) : Contest :=
  { contest with members := contest.members.set id member }

/-! ### The cases of a step -/

inductive Turn (contest : Contest) : Action → Contest → Prop
  | joined (candidacy : Candidacy)
      (accepted : candidacy.accept contest.bucket.terms = .ok ()) :
      Turn contest (.nominate candidacy)
        { contest with members := contest.members ++ [{ candidate := { candidacy } }] }
  | started (id : Nat) (context : String) (member : Member)
      (found : contest.members[id]? = some member) (fresh : member.candidate.task = .unstarted) :
      Turn contest (.start id context)
        (contest.put id { member with candidate := member.candidate.start, context })
  /-- There is nobody of that number. -/
  | ignored (id : Nat) (action : Action) (asks : action.Asks id) : Turn contest action contest
  | stopped (id : Nat) (member : Member) (found : contest.members[id]? = some member) :
      Turn contest (.stop id) (contest.put id { member with candidate := member.candidate.stop })
  | deafened (id : Nat) (member : Member) (found : contest.members[id]? = some member) :
      Turn contest (.deafen id)
        (contest.put id { member with candidate := member.candidate.deafen })
  | cancelled (context : String) :
      Turn contest (.cancel context) { contest with cancelled := context :: contest.cancelled }
  | performed (operation : Operation) (reply : Except StoreError Reply) (bucket : Bucket)
      (performed : contest.bucket.Performed contest.now operation reply bucket) :
      Turn contest (.perform operation) { contest with bucket }
  | injected (failure : StoreError) :
      Turn contest (.inject failure) { contest with bucket := contest.bucket.inject failure }
  | called (id : Nat) (plan : Plan) (member : Member) (stage next : Stage)
      (found : contest.members[id]? = some member)
      (between : member.candidate.task = .between stage)
      (moved : contest.moveOf member stage = .call next) :
      Turn contest (.proceed id plan)
        (contest.put id { member with
          candidate := { member.candidate with task := .calling next contest.now }
          flight := some { plan } })
  | quit (id : Nat) (plan : Plan) (member : Member) (stage : Stage) (outcome : Outcome)
      (found : contest.members[id]? = some member)
      (between : member.candidate.task = .between stage)
      (moved : contest.moveOf member stage = .finish outcome) :
      Turn contest (.proceed id plan)
        (contest.put id { member with
          candidate := member.candidate.finish outcome
          flight := none })
  | abandoned (id : Nat) (plan : Plan) (member : Member) (stage : Stage)
      (found : contest.members[id]? = some member)
      (between : member.candidate.task = .between stage)
      (moved : contest.moveOf member stage = .abandon) :
      Turn contest (.proceed id plan)
        (contest.put id { member with
          candidate := { member.candidate with task := .ended }
          flight := none })
  | landed (id : Nat) (plan : Plan) (member : Member) (stage : Stage) (began : Nat)
      (flight : Flight) (reply : Except StoreError Reply) (bucket : Bucket)
      (found : contest.members[id]? = some member)
      (calling : member.candidate.task = .calling stage began)
      (flying : member.flight = some flight) (aloft : flight.landed = none)
      (arrived : Member.progressAt began flight ≤ contest.now)
      (performed : (contest.bucket.struckBy flight.plan.fault).Performed contest.now
        (stage.call.operation member.candidate.candidacy) reply bucket) :
      Turn contest (.proceed id plan)
        { contest.put id { member with
            flight := some { flight with
              landed := some (contest.now, reply.map member.candidate.candidacy.seen) } }
          with bucket }
  | answered (id : Nat) (plan : Plan) (member : Member) (stage : Stage) (began : Nat)
      (flight : Flight) (landedAt : Nat) (answer : Except StoreError Entry)
      (found : contest.members[id]? = some member)
      (calling : member.candidate.task = .calling stage began)
      (flying : member.flight = some flight) (landed : flight.landed = some (landedAt, answer))
      (arrived : Member.progressAt began flight ≤ contest.now) :
      Turn contest (.proceed id plan)
        { contest.put id { member with
            candidate := member.candidate.settle contest.now stage answer
            flight := none }
          with calls := ⟨id, stage.call, began, contest.now, some (landedAt, answer), false⟩ ::
            contest.calls }
  | cutOff (id : Nat) (plan : Plan) (member : Member) (stage : Stage) (began : Nat)
      (flight : Flight) (limit : Nat) (found : contest.members[id]? = some member)
      (calling : member.candidate.task = .calling stage began)
      (flying : member.flight = some flight) (underWay : contest.now < Member.progressAt began flight)
      (limited : member.limitAt? began = some limit) (reached : limit ≤ contest.now) :
      Turn contest (.proceed id plan)
        { contest.put id { member with
            candidate := member.candidate.settle contest.now stage
              (.error (.timeout (member.candidate.candidacy.callLimitMs.getD 0)))
            flight := none }
          with calls := ⟨id, stage.call, began, contest.now, flight.landed, true⟩ ::
            contest.calls }
  | passed (instant : Nat) (quiet : contest.quiet = true) (later : contest.now ≤ instant)
      (awake : contest.wakeAt?.all (instant ≤ ·) = true) :
      Turn contest (.passTo instant) { contest with now := instant }

theorem update_eq_put {contest : Contest} {id : Nat} {member : Member}
    (found : contest.members[id]? = some member) (change : Member → Member) :
    contest.update id change = contest.put id (change member) := by
  rw [update, put, List.modify_eq_set_getElem?, found]
  rfl

theorem update_of_none {contest : Contest} {id : Nat} (missing : contest.members[id]? = none)
    (change : Member → Member) : contest.update id change = contest := by
  rw [update, List.modify_eq_set_getElem?, missing]
  rfl

variable {contest next : Contest} {action : Action}

private theorem turn_of_look {id : Nat} {plan : Plan} {member : Member} {stage : Stage}
    (found : contest.members[id]? = some member)
    (between : member.candidate.task = .between stage) (busy : contest.moveOf member stage ≠ .rest) :
    Turn contest (.proceed id plan) (contest.look id member stage plan) := by
  simp only [look, update_eq_put found]
  cases moved : contest.moveOf member stage with
  | rest => exact absurd moved busy
  | call following => exact .called id plan member stage following found between moved
  | finish outcome => exact .quit id plan member stage outcome found between moved
  | abandon => exact .abandoned id plan member stage found between moved

private theorem turn_of_flight {id : Nat} {plan : Plan} {member : Member} {stage : Stage}
    {began : Nat} {flight : Flight} (found : contest.members[id]? = some member)
    (calling : member.candidate.task = .calling stage began)
    (flying : member.flight = some flight) (able : (contest.step? member).isSome = true) :
    Turn contest (.proceed id plan) (contest.proceed id plan) := by
  by_cases arrived : Member.progressAt began flight ≤ contest.now
  · cases landed : flight.landed with
    | none =>
        have lands : contest.step? member = some .land := by
          simp only [step?, Member.step?, calling, flying, if_pos arrived, landed]
          rfl
        have performed := (contest.bucket.struckBy flight.plan.fault).performed contest.now
          (stage.call.operation member.candidate.candidacy)
        have turn := Turn.landed id plan member stage began flight _ _ found calling flying landed
          arrived performed
        simp only [proceed, found, lands, calling, flying, land, update_eq_put found,
          Call.perform_eq]
        exact turn
    | some landing =>
        obtain ⟨landedAt, answer⟩ := landing
        have answers : contest.step? member = some .answer := by
          simp only [step?, Member.step?, calling, flying, if_pos arrived, landed]
          rfl
        have turn := Turn.answered id plan member stage began flight landedAt answer found calling
          flying landed arrived
        simp only [proceed, found, answers, calling, flying, landed, conclude, update_eq_put found]
        exact turn
  · have aloft := Nat.lt_of_not_le arrived
    cases limited : member.limitAt? began with
    | none =>
        simp only [step?, Member.step?, calling, flying, if_neg arrived, limited] at able
        cases able
    | some limit =>
        by_cases reached : limit ≤ contest.now
        · have cuts : contest.step? member = some .cutOff := by
            simp only [step?, Member.step?, calling, flying, if_neg arrived, limited,
              Option.any_some, reached, decide_true, if_true]
          have turn := Turn.cutOff id plan member stage began flight limit found calling flying
            aloft limited reached
          simp only [proceed, found, cuts, calling, flying, conclude, update_eq_put found]
          exact turn
        · simp only [step?, Member.step?, calling, flying, if_neg arrived, limited,
            Option.any_some, reached, decide_false, Bool.false_eq_true, if_false] at able
          cases able

private theorem turn_of_proceed {id : Nat} {plan : Plan} {member : Member}
    (found : contest.members[id]? = some member) (able : (contest.step? member).isSome = true) :
    Turn contest (.proceed id plan) (contest.proceed id plan) := by
  cases task : member.candidate.task with
  | unstarted =>
      simp only [step?, Member.step?, task] at able
      cases able
  | ended =>
      simp only [step?, Member.step?, task] at able
      cases able
  | between stage =>
      have busy : contest.moveOf member stage ≠ .rest := by
        intro rests
        have idle : stage.look (member.candidate.signals (contest.isCancelled member.context))
            contest.now = .rest := rests
        simp only [step?, Member.step?, task, if_pos idle] at able
        cases able
      have looks : contest.step? member = some .look := by
        simp only [step?, Member.step?, task]
        exact if_neg busy
      simp only [proceed, found, looks, task]
      exact turn_of_look found task busy
  | calling stage began =>
      cases flying : member.flight with
      | none =>
          simp only [step?, Member.step?, task, flying] at able
          cases able
      | some flight => exact turn_of_flight found task flying able

theorem turn_of_act? (acted : contest.act? action = some next) : Turn contest action next := by
  cases action with
  | nominate candidacy =>
      simp only [act?, nominate] at acted
      cases accepted : candidacy.accept contest.bucket.terms with
      | error cause =>
          rw [accepted] at acted
          cases acted
      | ok _ =>
          rw [accepted] at acted
          cases acted
          exact .joined candidacy accepted
  | start id context =>
      simp only [act?, start] at acted
      cases found : contest.members[id]? with
      | none =>
          rw [found] at acted
          cases acted
          exact .ignored id _ (.start context)
      | some member =>
          simp only [found] at acted
          by_cases fresh : member.candidate.task = .unstarted
          · rw [if_pos fresh, update_eq_put found] at acted
            cases acted
            exact .started id context member found fresh
          · rw [if_neg fresh] at acted
            cases acted
  | stop id =>
      simp only [act?, stop, updateCandidate, Option.some.injEq] at acted
      subst next
      cases found : contest.members[id]? with
      | none =>
          rw [update_of_none found]
          exact .ignored id _ .stop
      | some member =>
          rw [update_eq_put found]
          exact .stopped id member found
  | deafen id =>
      simp only [act?, deafen, updateCandidate, Option.some.injEq] at acted
      subst next
      cases found : contest.members[id]? with
      | none =>
          rw [update_of_none found]
          exact .ignored id _ .deafen
      | some member =>
          rw [update_eq_put found]
          exact .deafened id member found
  | cancel context =>
      cases acted
      exact .cancelled context
  | perform operation =>
      cases acted
      exact .performed operation _ _ (contest.bucket.performed contest.now operation)
  | inject failure =>
      cases acted
      exact .injected failure
  | proceed id plan =>
      simp only [act?] at acted
      split at acted
      · rename_i able
        cases found : contest.members[id]? with
        | none =>
            rw [found] at able
            cases able
        | some member =>
            rw [found] at able
            cases acted
            exact turn_of_proceed found able
      · cases acted
  | passTo instant =>
      simp only [act?, passTo?] at acted
      split at acted
      · rename_i allowed
        simp only [Bool.and_eq_true, decide_eq_true_eq] at allowed
        cases acted
        exact .passed instant allowed.1.1 allowed.1.2 allowed.2
      · cases acted

/-- The cases of a member that goes on exclude each other: nothing else could have happened. -/
theorem Turn.act?_of_proceed {id : Nat} {plan : Plan} (turn : Turn contest (.proceed id plan) next) :
    contest.act? (.proceed id plan) = some next := by
  have able {member : Member} {step : Step} (found : contest.members[id]? = some member)
      (steps : contest.step? member = some step) :
      contest.act? (.proceed id plan) = some (contest.proceed id plan) := by
    simp only [act?, found, Option.any_some, steps, Option.isSome_some, if_true]
  have looks {member : Member} {stage : Stage} (between : member.candidate.task = .between stage)
      (busy : contest.moveOf member stage ≠ .rest) : contest.step? member = some .look := by
    simp only [step?, Member.step?, between]
    exact if_neg busy
  cases turn with
  | ignored _ _ asks => cases asks
  | called _ _ member stage following found between moved =>
      have steps := looks between (by rw [moved]; exact Move.noConfusion)
      rw [able found steps]
      simp only [proceed, found, steps, between, look, moved, update_eq_put found]
      rfl
  | quit _ _ member stage outcome found between moved =>
      have steps := looks between (by rw [moved]; exact Move.noConfusion)
      rw [able found steps]
      simp only [proceed, found, steps, between, look, moved, update_eq_put found]
      rfl
  | abandoned _ _ member stage found between moved =>
      have steps := looks between (by rw [moved]; exact Move.noConfusion)
      rw [able found steps]
      simp only [proceed, found, steps, between, look, moved, update_eq_put found]
      rfl
  | landed _ _ member stage began flight reply bucket found calling flying aloft arrived performed =>
      have steps : contest.step? member = some .land := by
        simp only [step?, Member.step?, calling, flying, if_pos arrived, aloft]
        rfl
      rw [able found steps]
      simp only [proceed, found, steps, calling, flying, land, Call.perform_eq, update_eq_put found]
      cases fault : flight.plan.fault with
      | none =>
          simp only [fault, Bucket.struckBy] at performed
          simp only [performed.perform_eq]
      | some failure =>
          simp only [fault, Bucket.struckBy] at performed
          simp only [performed.perform_eq]
  | answered _ _ member stage began flight landedAt answer found calling flying landed arrived =>
      have steps : contest.step? member = some .answer := by
        simp only [step?, Member.step?, calling, flying, if_pos arrived, landed]
        rfl
      rw [able found steps]
      simp only [proceed, found, steps, calling, flying, landed, conclude, update_eq_put found]
  | cutOff _ _ member stage began flight limit found calling flying underWay limited reached =>
      have steps : contest.step? member = some .cutOff := by
        simp only [step?, Member.step?, calling, flying, if_neg (Nat.not_le.mpr underWay), limited,
          Option.any_some, reached, decide_true, if_true]
      rw [able found steps]
      simp only [proceed, found, steps, calling, flying, conclude, update_eq_put found]

/-! ### Members before and after -/

theorem found_in_set {α : Type} {items : List α} {id other : Nat} {after rival : α}
    (found : (items.set id after)[other]? = some rival) :
    other = id ∧ rival = after ∨ other ≠ id ∧ items[other]? = some rival := by
  rw [List.getElem?_set] at found
  by_cases same : id = other
  · rw [if_pos same] at found
    split at found
    · cases found
      exact Or.inl ⟨same.symm, rfl⟩
    · cases found
  · rw [if_neg same] at found
    exact Or.inr ⟨Ne.symm same, found⟩

theorem found_in_concat {α : Type} {items : List α} {id : Nat} {item rival : α}
    (found : (items ++ [item])[id]? = some rival) : items[id]? = some rival ∨ rival = item := by
  rw [List.getElem?_append] at found
  split at found
  · exact Or.inl found
  · exact Or.inr (List.mem_singleton.mp (List.mem_of_getElem? found))

theorem found_after_set {α : Type} {items : List α} {id other : Nat} {item rival : α}
    (found : items[id]? = some item) (was : items[other]? = some rival) (after : α) :
    other = id ∧ rival = item ∧ (items.set id after)[other]? = some after ∨
      other ≠ id ∧ (items.set id after)[other]? = some rival := by
  rw [List.getElem?_set]
  by_cases same : id = other
  · subst other
    rw [found] at was
    cases was
    rw [if_pos rfl, if_pos (List.getElem?_eq_some_iff.mp found).1]
    exact Or.inl ⟨rfl, rfl, rfl⟩
  · rw [if_neg same]
    exact Or.inr ⟨Ne.symm same, was⟩

theorem filter_calls_of_ne {calls : List CallRecord} {record : CallRecord} {id other : Nat}
    (own : record.member = id) (apart : other ≠ id) :
    (record :: calls).filter (·.member = other) = calls.filter (·.member = other) := by
  apply List.filter_cons_of_neg
  rw [own, decide_eq_true_eq]
  exact Ne.symm apart

/-! ### Time waits for whoever is awake -/

theorem le_of_min? {dues : List Nat} {instant due : Nat}
    (awake : dues.min?.all (instant ≤ ·) = true) (present : due ∈ dues) : instant ≤ due := by
  cases earliest : dues.min? with
  | none =>
      rw [List.min?_eq_none_iff] at earliest
      rw [earliest] at present
      cases present
  | some wake =>
      rw [earliest, Option.all_some, decide_eq_true_eq] at awake
      exact Nat.le_trans awake ((List.min?_eq_some_iff.mp earliest).2 due present)

theorem le_of_awake {id instant due : Nat} {member : Member}
    (awake : contest.wakeAt?.all (instant ≤ ·) = true)
    (found : contest.members[id]? = some member) (wakes : member.wakeAt? = some due) :
    instant ≤ due :=
  le_of_min? awake (List.mem_filterMap.mpr ⟨member, List.mem_of_getElem? found, wakes⟩)

theorem began_le_of_arrived {began : Nat} {flight : Flight} (aloft : flight.landed = none)
    (arrived : Member.progressAt began flight ≤ contest.now) : began ≤ contest.now := by
  simp only [Member.progressAt, aloft] at arrived
  omega

/-! ### What every turn keeps -/

namespace Turn

variable (turn : Turn contest action next)

include turn

theorem terms_eq : next.bucket.terms = contest.bucket.terms := by
  cases turn with
  | performed _ _ _ performed => exact performed.terms_eq
  | landed _ _ _ _ _ flight _ _ _ _ _ _ _ performed =>
      apply performed.terms_eq.trans
      cases flight.plan.fault <;> rfl
  | _ => rfl

theorem now_le : contest.now ≤ next.now := by
  cases turn with
  | passed _ _ later => exact later
  | _ => exact Nat.le_refl _

theorem calls_subset {record : CallRecord} (finished : record ∈ contest.calls) :
    record ∈ next.calls := by
  cases turn with
  | answered | cutOff => exact List.mem_cons_of_mem _ finished
  | _ => exact finished

/-- Members come one by one and never change their terms. A call under way goes on or is recorded. -/
theorem members_cases :
    next.members = contest.members ∨
      (∃ candidacy, candidacy.accept contest.bucket.terms = .ok () ∧
        next.members = contest.members ++ [{ candidate := { candidacy } }]) ∨
      ∃ id member after, contest.members[id]? = some member ∧
        next.members = contest.members.set id after ∧
        after.candidate.candidacy = member.candidate.candidacy ∧
        ∀ stage began, member.candidate.task = .calling stage began →
          after.candidate.task = .calling stage began ∨
            ∃ record ∈ next.calls, record.member = id ∧ record.began = began ∧
              record.ended = contest.now := by
  cases turn with
  | joined candidacy accepted => exact Or.inr (Or.inl ⟨candidacy, accepted, rfl⟩)
  | ignored | cancelled | performed | injected | passed => exact Or.inl rfl
  | started id context member found fresh =>
      refine Or.inr (Or.inr ⟨id, member, _, found, rfl, rfl, ?_⟩)
      intro stage began calling
      rw [fresh] at calling
      cases calling
  | stopped id member found | deafened id member found =>
      exact Or.inr (Or.inr ⟨id, member, _, found, rfl, rfl, fun _ _ calling => Or.inl calling⟩)
  | called id _ member _ _ found between | abandoned id _ member _ found between =>
      refine Or.inr (Or.inr ⟨id, member, _, found, rfl, rfl, ?_⟩)
      intro stage began calling
      rw [between] at calling
      cases calling
  | quit id _ member _ outcome found between =>
      refine Or.inr (Or.inr ⟨id, member, _, found, rfl, Candidate.candidacy_finish _ _, ?_⟩)
      intro stage began calling
      rw [between] at calling
      cases calling
  | landed id _ member _ _ _ _ _ found =>
      exact Or.inr (Or.inr ⟨id, member, _, found, rfl, rfl, fun _ _ calling => Or.inl calling⟩)
  | answered id _ member _ _ _ _ _ found calling | cutOff id _ member _ _ _ _ found calling =>
      refine Or.inr (Or.inr
        ⟨id, member, _, found, rfl, Candidate.candidacy_settle _ _ _ _, ?_⟩)
      intro stage began calling'
      rw [calling] at calling'
      cases calling'
      exact Or.inr ⟨_, List.mem_cons_self, rfl, rfl, rfl⟩

theorem persists {id : Nat} {member : Member} (found : contest.members[id]? = some member) :
    ∃ after, next.members[id]? = some after ∧
      after.candidate.candidacy = member.candidate.candidacy ∧
      ∀ stage began, member.candidate.task = .calling stage began →
        after.candidate.task = .calling stage began ∨
          ∃ record ∈ next.calls, record.member = id ∧ record.began = began ∧
            record.ended = contest.now := by
  have unchanged : ∀ stage began, member.candidate.task = .calling stage began →
      member.candidate.task = .calling stage began ∨
        ∃ record ∈ next.calls, record.member = id ∧ record.began = began ∧
          record.ended = contest.now := fun _ _ calling => Or.inl calling
  rcases turn.members_cases with
    same | ⟨candidacy, _, grown⟩ | ⟨other, rival, after, was, set, kept, goesOn⟩
  · exact ⟨member, same ▸ found, rfl, unchanged⟩
  · refine ⟨member, ?_, rfl, unchanged⟩
    rw [grown, List.getElem?_append_left (List.getElem?_eq_some_iff.mp found).1]
    exact found
  · rw [set]
    rcases found_after_set was found after with ⟨rfl, rfl, changed⟩ | ⟨_, stays⟩
    · exact ⟨after, changed, kept, goesOn⟩
    · exact ⟨member, stays, rfl, unchanged⟩

end Turn

/-! ### Runs -/

theorem run?_cons {first : Contest} {action : Action} {rest : List Action}
    (acted : first.act? action = some next) : first.run? (action :: rest) = next.run? rest := by
  rw [run?, List.foldlM_cons, acted]
  rfl

theorem run?_append_eq {first middle : Contest} {done : List Action}
    (run : first.run? done = some middle) (rest : List Action) :
    first.run? (done ++ rest) = middle.run? rest := by
  rw [run?, List.foldlM_append, ← run?, run]
  rfl

theorem run?_append {first middle last : Contest} {done rest : List Action}
    (run : first.run? done = some middle) (goesOn : middle.run? rest = some last) :
    first.run? (done ++ rest) = some last :=
  (run?_append_eq run rest).trans goesOn

theorem run?_concat {first middle last : Contest} {done : List Action} {action : Action}
    (run : first.run? done = some middle) (acted : middle.act? action = some last) :
    first.run? (done ++ [action]) = some last := by
  rw [run?, Runs.foldlM_concat, ← run?, run, Option.bind_some]
  exact acted

theorem Reachable.act {terms : BucketTerms} {action : Action}
    (reached : Reachable terms contest) (acted : contest.act? action = some next) :
    Reachable terms next := by
  obtain ⟨actions, run⟩ := reached
  exact ⟨actions ++ [action], run?_concat run acted⟩

/-- What holds at the opening and is kept by every turn holds along every run. -/
theorem run_induction {first : Contest} {motive : List Action → Contest → Prop}
    (opened : motive [] first)
    (turned : ∀ actions contest action next, first.run? actions = some contest →
      motive actions contest → Turn contest action next → motive (actions ++ [action]) next)
    (actions : List Action) (contest : Contest) (run : first.run? actions = some contest) :
    motive actions contest := by
  refine Runs.induct opened ?_ actions run
  intro actions contest action next ran holds acted
  exact turned actions contest action next ran holds (turn_of_act? acted)

theorem persists_of_run {actions : List Action} {after : Contest} {id : Nat} {member : Member}
    (run : contest.run? actions = some after) (found : contest.members[id]? = some member) :
    ∃ later, after.members[id]? = some later ∧
      later.candidate.candidacy = member.candidate.candidacy := by
  refine Runs.induct (motive := fun _ after => ∃ later, after.members[id]? = some later ∧
    later.candidate.candidacy = member.candidate.candidacy) ⟨member, found, rfl⟩ ?_ actions run
  intro _ middle _ _ _ ih acted
  obtain ⟨between, there, terms⟩ := ih
  obtain ⟨later, foundLater, termsLater, _⟩ := (turn_of_act? acted).persists there
  exact ⟨later, foundLater, termsLater.trans terms⟩

end Contest

end Leasehold
