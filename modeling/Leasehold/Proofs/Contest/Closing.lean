import Leasehold.Proofs.Contest.MemberStep
import Leasehold.Proofs.Contest.Chronicle

set_option autoImplicit false

/-!
How an election closes once its member has been interrupted.

A member that has been asked to stop, or whose context is cancelled, begins no further call. All that
it still does it owes to the call that was under way: this may yet reach the bucket, and its answer
may be reported. Then the member looks up and says why it ends.
-/

namespace Leasehold

def CallRecord.answer? (record : CallRecord) (limitMs : Nat) : Option (Except StoreError Entry) :=
  if record.cutOff then some (.error (.timeout limitMs)) else record.landed.map Prod.snd

namespace Stage

variable {stage : Stage} {answer : Except StoreError Entry} {phase : Phase}

/-- A victory is the answer to a create. -/
theorem transition_of_won (enters : stage.transition answer = .enter phase (some .won)) :
    ∃ entry, answer = .ok entry ∧ stage = .electing := by
  obtain ⟨held, rfl⟩ := transition_won enters
  obtain ⟨⟨entry, written, _⟩, ⟨electing, _⟩ | ⟨_, _, _, never⟩⟩ := transition_enter_leading enters
  · exact ⟨entry, written, electing⟩
  · cases never

/-- A defeat is the answer to a write that was in conflict with another. -/
theorem transition_of_lost (enters : stage.transition answer = .enter phase (some .lost)) :
    ∃ cause, answer = .error cause ∧ stage.call ≠ .poll ∧ cause.isConflict = true := by
  cases answer with
  | ok entry => cases stage <;> cases enters
  | error cause =>
      cases stage with
      | electing =>
          simp only [transition, Except.map, Transition.afterCreate] at enters
          split at enters
          · rename_i taken
            exact ⟨cause, rfl, Call.noConfusion, StoreError.isConflict_of_isKeyExists taken⟩
          · cases enters
      | leading held ticker =>
          simp only [transition, Except.map, Transition.afterRenewal] at enters
          split at enters
          · rename_i conflict
            exact ⟨cause, rfl, Call.noConfusion, conflict⟩
          · cases enters
      | following ticker =>
          simp only [transition, Transition.afterPoll] at enters
          split at enters <;> cases enters

end Stage

namespace Member

def farewell (member : Member) : Outcome :=
  if member.candidate.stopRequested then .stopped else .cancelled

def limitMs (member : Member) : Nat := member.candidate.candidacy.callLimitMs.getD 0

/-- The call of this member that is still on its way to the bucket can make this change. -/
def Owes (member : Member) (deed : Deed) : Prop :=
  ∃ stage began flight, member.candidate.task = .calling stage began ∧
    member.flight = some flight ∧ flight.landed = none ∧ deed.key = member.key ∧
    (stage.call.operation member.candidate.candidacy).kind? = some deed.kind

structure Signalled (member after : Member) : Prop where
  stop : member.candidate.stopRequested = true → after.candidate.stopRequested = true
  context : member.candidate.task ≠ .unstarted →
    after.candidate.task ≠ .unstarted ∧ after.context = member.context
  listening : after.candidate.listening = true →
    member.candidate.listening = true ∨ member.candidate.task = .unstarted

theorem Signalled.refl (member : Member) : member.Signalled member :=
  ⟨id, fun begun => ⟨begun, rfl⟩, Or.inl⟩

end Member

namespace Contest

variable {contest next first after : Contest} {action : Action} {actions : List Action} {id : Nat}
  {member later : Member} {stage : Stage}

/-! ### Interruptions -/

/-- A member has been asked to stop, or it has started under a context that is cancelled. -/
def Interrupted (contest : Contest) (member : Member) : Prop :=
  member.candidate.stopRequested = true ∨
    member.candidate.task ≠ .unstarted ∧ contest.isCancelled member.context = true

/-- Whatever is due, an interrupted member that looks up ends. -/
theorem moveOf_of_interrupted (interrupted : contest.Interrupted member) :
    contest.moveOf member stage = .finish member.farewell := by
  unfold moveOf Stage.look Member.farewell
  by_cases asked : member.candidate.stopRequested = true
  · rw [if_pos asked]
    exact if_pos asked
  · have gone : contest.isCancelled member.context = true := by
      rcases interrupted with stop | ⟨_, gone⟩
      · exact absurd stop asked
      · exact gone
    rw [if_neg asked]
    exact (if_neg asked).trans (if_pos gone)

theorem Turn.signalled (turn : Turn contest action next) (found : contest.members[id]? = some member) :
    ∃ after, next.members[id]? = some after ∧ member.Signalled after := by
  have changed {other : Nat} {rival after : Member} (was : contest.members[other]? = some rival)
      (members : next.members = contest.members.set other after) (signalled : rival.Signalled after) :
      ∃ after, next.members[id]? = some after ∧ member.Signalled after := by
    rw [members]
    rcases found_after_set was found after with ⟨_, rfl, there⟩ | ⟨_, stays⟩
    · exact ⟨after, there, signalled⟩
    · exact ⟨member, stays, .refl member⟩
  cases turn with
  | joined candidacy =>
      refine ⟨member, ?_, .refl member⟩
      rw [List.getElem?_append_left (List.getElem?_eq_some_iff.mp found).1]
      exact found
  | ignored | cancelled | performed | injected | passed => exact ⟨member, found, .refl member⟩
  | started _ context rival was fresh =>
      exact changed was rfl
        ⟨fun stop => stop, fun begun => absurd fresh begun, fun _ => Or.inr fresh⟩
  | stopped _ rival was =>
      exact changed was rfl ⟨fun _ => rfl, fun begun => ⟨begun, rfl⟩, Or.inl⟩
  | deafened _ rival was =>
      exact changed was rfl
        ⟨fun stop => stop, fun begun => ⟨begun, rfl⟩, fun never => by cases never⟩
  | called _ _ rival _ _ was | abandoned _ _ rival _ was =>
      exact changed was rfl ⟨fun stop => stop, fun _ => ⟨Task.noConfusion, rfl⟩, Or.inl⟩
  | landed _ _ rival _ _ _ _ _ was =>
      exact changed was rfl ⟨fun stop => stop, fun begun => ⟨begun, rfl⟩, Or.inl⟩
  | quit _ _ rival _ outcome was =>
      refine changed was rfl ⟨?_, fun _ => ⟨Task.noConfusion, rfl⟩, ?_⟩
      · rw [Candidate.stopRequested_finish]
        exact fun stop => stop
      · rw [Candidate.listening_finish]
        exact Or.inl
  | answered _ _ rival stage _ _ _ answer was | cutOff _ _ rival stage _ _ _ was =>
      refine changed was rfl ⟨?_, ?_, ?_⟩
      · rw [Candidate.stopRequested_settle]
        exact fun stop => stop
      · intro _
        refine ⟨?_, rfl⟩
        rcases rival.candidate.task_settle contest.now stage _ with ended | ⟨waiting, waits⟩
        · exact fun never => by cases ended.symm.trans never
        · exact fun never => by cases waits.symm.trans never
      · rw [Candidate.listening_settle]
        exact Or.inl

theorem Turn.isCancelled (turn : Turn contest action next) {context : String}
    (gone : contest.isCancelled context = true) : next.isCancelled context = true := by
  cases turn with
  | cancelled other =>
      exact decide_eq_true (List.mem_cons_of_mem other (of_decide_eq_true gone))
  | _ => exact gone

theorem Turn.interrupted (turn : Turn contest action next) (signalled : member.Signalled later)
    (interrupted : contest.Interrupted member) : next.Interrupted later := by
  rcases interrupted with stop | ⟨begun, gone⟩
  · exact Or.inl (signalled.stop stop)
  · obtain ⟨still, same⟩ := signalled.context begun
    exact Or.inr ⟨still, by rw [same]; exact turn.isCancelled gone⟩

/-! ### A step of an interrupted member -/

theorem Turn.farewell {plan : Plan} (turn : Turn contest (.proceed id plan) next)
    (found : contest.members[id]? = some member) (between : member.candidate.task = .between stage)
    (interrupted : contest.Interrupted member) :
    next.members[id]? = some { member with
      candidate := member.candidate.finish member.farewell
      flight := none } := by
  have moved := @moveOf_of_interrupted contest member stage interrupted
  have inside := (List.getElem?_eq_some_iff.mp found).1
  cases turn with
  | ignored _ _ asks => cases asks
  | called _ _ rival earlier following was waits moves =>
      cases found.symm.trans was
      cases between.symm.trans waits
      cases moved.symm.trans moves
  | quit _ _ rival earlier outcome was waits moves =>
      cases found.symm.trans was
      cases between.symm.trans waits
      cases moved.symm.trans moves
      exact List.getElem?_set_self inside
  | abandoned _ _ rival earlier was waits moves =>
      cases found.symm.trans was
      cases between.symm.trans waits
      cases moved.symm.trans moves
  | landed _ _ _ _ _ _ _ _ was calling | answered _ _ _ _ _ _ _ _ was calling
  | cutOff _ _ _ _ _ _ _ was calling =>
      cases found.symm.trans was
      cases between.symm.trans calling

theorem Turn.cutOff_eq {plan : Plan} {began : Nat} {flight : Flight}
    (turn : Turn contest (.proceed id plan) next) (found : contest.members[id]? = some member)
    (calling : member.candidate.task = .calling stage began) (flying : member.flight = some flight)
    (underWay : contest.now < Member.progressAt began flight) :
    next.members[id]? = some { member with
      candidate := member.candidate.settle contest.now stage (.error (.timeout member.limitMs))
      flight := none } := by
  have inside := (List.getElem?_eq_some_iff.mp found).1
  cases turn with
  | ignored _ _ asks => cases asks
  | called _ _ _ _ _ was between | quit _ _ _ _ _ was between | abandoned _ _ _ _ was between =>
      cases found.symm.trans was
      cases calling.symm.trans between
  | landed _ _ _ _ _ _ _ _ was calls flies _ arrived
  | answered _ _ _ _ _ _ _ _ was calls flies _ arrived =>
      cases found.symm.trans was
      cases calling.symm.trans calls
      cases flying.symm.trans flies
      exact absurd arrived (Nat.not_le.mpr underWay)
  | cutOff _ _ _ _ _ _ _ was calls flies =>
      cases found.symm.trans was
      cases calling.symm.trans calls
      cases flying.symm.trans flies
      exact List.getElem?_set_self inside

/-! ### The deeds of one member -/

def deedsOf (first : Contest) (id : Nat) (actions : List Action) : List Deed :=
  (first.chronicle actions).filter (·.author = some id)

theorem author_of_deed? {deed : Deed} (done : contest.deed? action = some deed)
    (author : deed.author = some id) : ∃ plan, action = .proceed id plan := by
  cases action with
  | perform operation =>
      obtain ⟨_, _, _, _, _, rfl⟩ := Bucket.deed?_eq_some done
      cases author
  | proceed other plan =>
      obtain ⟨_, _, _, _, _, _, _, done⟩ := deed?_proceed_eq_some done
      obtain ⟨_, _, _, _, _, rfl⟩ := Bucket.deed?_eq_some done
      obtain rfl : other = id := Option.some.inj author
      exact ⟨plan, rfl⟩
  | _ => cases done

theorem deedsOf_concat (run : first.run? actions = some contest) :
    first.deedsOf id (actions ++ [action]) =
      first.deedsOf id actions ++ ((contest.deed? action).toList.filter (·.author = some id)) := by
  rw [deedsOf, chronicle_concat run, List.filter_append]
  rfl

theorem deedsOf_concat_of_elsewhere (run : first.run? actions = some contest)
    (elsewhere : ∀ plan, action ≠ .proceed id plan) :
    first.deedsOf id (actions ++ [action]) = first.deedsOf id actions := by
  have none : (contest.deed? action).toList.filter (·.author = some id) = [] := by
    rw [List.filter_eq_nil_iff]
    intro deed done author
    obtain ⟨plan, same⟩ := author_of_deed? (Option.mem_toList.mp done) (of_decide_eq_true author)
    exact elsewhere plan same
  rw [deedsOf_concat run, none, List.append_nil]

theorem deedsOf_concat_of_not_land {plan : Plan} (run : first.run? actions = some contest)
    (found : contest.members[id]? = some member) (elsewhere : contest.step? member ≠ some .land) :
    first.deedsOf id (actions ++ [.proceed id plan]) = first.deedsOf id actions := by
  rw [deedsOf_concat run, deed?_of_not_land found elsewhere]
  exact List.append_nil _

/-! ### What an interrupted member still does -/

inductive Closing (first : Contest) (id : Nat) (member : Member) :
    List Action → Task → Option CallRecord → List Outcome → Prop
  | waiting (actions : List Action) (task : Task)
      (same : task = member.candidate.task ∨
        member.candidate.task = .unstarted ∧ task = .between .electing) :
      Closing first id member actions task none []
  | silent (actions : List Action) (stage next : Stage) (record : CallRecord) (phase : Phase)
      (answer : Except StoreError Entry)
      (calling : member.candidate.task = .calling stage record.began)
      (concluded : record.answer? member.limitMs = some answer)
      (enters : stage.transition answer = .enter phase none) :
      Closing first id member actions (.between next) (some record) []
  | won (actions : List Action) (next : Stage) (record : CallRecord) (entry : Entry)
      (calling : member.candidate.task = .calling .electing record.began)
      (concluded : record.answer? member.limitMs = some (.ok entry)) :
      Closing first id member actions (.between next) (some record) [.won]
  | lost (actions : List Action) (stage next : Stage) (record : CallRecord) (cause : StoreError)
      (calling : member.candidate.task = .calling stage record.began)
      (concluded : record.answer? member.limitMs = some (.error cause))
      (writes : stage.call ≠ .poll) (conflict : cause.isConflict = true) :
      Closing first id member actions (.between next) (some record) [.lost]
  /-- The call has failed in a way that ends the election. -/
  | failed (actions : List Action) (stage : Stage) (record : CallRecord) (cause : StoreError)
      (calling : member.candidate.task = .calling stage record.began)
      (concluded : record.answer? member.limitMs = some (.error cause))
      (fatal : stage.transition (.error cause) = .finish (.error cause)) :
      Closing first id member actions .ended (some record) [.error cause]
  /-- The member has looked up. -/
  | left (done rest : List Action) (plan : Plan) (stage : Stage) (over? : Option CallRecord)
      (words : List Outcome) (reached : Contest) (looking : Member)
      (before : Closing first id member done (.between stage) over? words)
      (ran : first.run? done = some reached) (there : reached.members[id]? = some looking) :
      Closing first id member (done ++ .proceed id plan :: rest) .ended over?
        (words ++ [looking.farewell])

structure Closes (first : Contest) (id : Nat) (member : Member) (actions : List Action)
    (after : Contest) (later : Member) (over? : Option CallRecord) : Prop where
  /-- No call has begun. -/
  calling : ∀ stage began, later.candidate.task = .calling stage began →
    member.candidate.task = .calling stage began ∧ over? = none
  concluded : ∀ record ∈ over?, ∃ stage, member.candidate.task = .calling stage record.began ∧
    record.call = stage.call
  calls : after.calls.filter (·.member = id) =
    over?.toList ++ first.calls.filter (·.member = id)
  /-- The bucket has been changed by the call that was on its way to it, if by any. -/
  deeds : ∃ done? : Option Deed, first.deedsOf id actions = done?.toList ∧
    ∀ deed ∈ done?, member.Owes deed
  aloft : ∀ stage began flight, later.candidate.task = .calling stage began →
    later.flight = some flight → flight.landed = none →
    member.flight = some flight ∧ first.deedsOf id actions = []
  words : later.candidate.listening = true ∨ later.candidate.task = .unstarted →
    ∃ words, later.candidate.reports = member.candidate.reports ++ words ∧
      first.Closing id member actions later.candidate.task over? words
  terms : later.candidate.candidacy = member.candidate.candidacy

variable {over? : Option CallRecord} {task : Task} {words : List Outcome}

theorem Closing.onward (closing : first.Closing id member actions task over? words)
    (more : List Action) : first.Closing id member (actions ++ more) task over? words := by
  cases closing with
  | waiting actions task same => exact .waiting _ task same
  | silent actions stage next record phase answer calling concluded enters =>
      exact .silent _ stage next record phase answer calling concluded enters
  | won actions next record entry calling concluded =>
      exact .won _ next record entry calling concluded
  | lost actions stage next record cause calling concluded writes conflict =>
      exact .lost _ stage next record cause calling concluded writes conflict
  | failed actions stage record cause calling concluded fatal =>
      exact .failed _ stage record cause calling concluded fatal
  | left done rest plan stage over? words reached looking before ran there =>
      rw [List.append_assoc, List.cons_append]
      exact .left done (rest ++ more) plan stage over? words reached looking before ran there

theorem Closes.refl (first : Contest) (id : Nat) (member : Member) :
    first.Closes id member [] first member none where
  calling := fun _ _ calling => ⟨calling, rfl⟩
  concluded := fun _ never => by cases never
  calls := rfl
  deeds := ⟨none, rfl, fun _ never => by cases never⟩
  aloft := fun _ _ _ _ flying _ => ⟨flying, rfl⟩
  words := fun _ => ⟨[], (List.append_nil _).symm, .waiting [] _ (Or.inl rfl)⟩
  terms := rfl

section Steps

variable {going : Member}

/-- A turn that leaves the member where it is. -/
theorem Closes.keep (closes : first.Closes id member actions contest later over?)
    (run : first.run? actions = some contest) (elsewhere : ∀ plan, action ≠ .proceed id plan)
    (signalled : later.Signalled going) (task : going.candidate.task = later.candidate.task)
    (terms : going.candidate.candidacy = later.candidate.candidacy)
    (reports : going.candidate.reports = later.candidate.reports)
    (flight : going.flight = later.flight)
    (calls : next.calls.filter (·.member = id) = contest.calls.filter (·.member = id)) :
    first.Closes id member (actions ++ [action]) next going over? where
  calling := by
    rw [task]
    exact closes.calling
  concluded := closes.concluded
  calls := calls.trans closes.calls
  deeds := by
    rw [deedsOf_concat_of_elsewhere run elsewhere]
    exact closes.deeds
  aloft := by
    rw [task, flight, deedsOf_concat_of_elsewhere run elsewhere]
    exact closes.aloft
  words := by
    intro heard
    have before : later.candidate.listening = true ∨ later.candidate.task = .unstarted := by
      rcases heard with listens | fresh
      · exact signalled.listening listens
      · exact Or.inr (task ▸ fresh)
    obtain ⟨words, said, closing⟩ := closes.words before
    rw [task, reports]
    exact ⟨words, said, closing.onward [action]⟩
  terms := terms.trans closes.terms

theorem Closes.start {context : String}
    (closes : first.Closes id member actions contest later over?)
    (run : first.run? actions = some contest) (fresh : later.candidate.task = .unstarted)
    (calls : next.calls = contest.calls) :
    first.Closes id member (actions ++ [.start id context]) next
      { later with candidate := later.candidate.start, context } over? where
  calling := fun _ _ never => by cases never
  concluded := closes.concluded
  calls := by
    rw [calls]
    exact closes.calls
  deeds := by
    rw [deedsOf_concat_of_elsewhere run (fun _ => Action.noConfusion)]
    exact closes.deeds
  aloft := fun _ _ _ never => by cases never
  words := by
    intro _
    obtain ⟨words, said, closing⟩ := closes.words (Or.inr fresh)
    refine ⟨words, said, ?_⟩
    rw [fresh] at closing
    cases closing with
    | waiting _ _ same =>
        refine .waiting _ _ (Or.inr ⟨?_, rfl⟩)
        rcases same with same | ⟨same, _⟩
        · exact same.symm
        · exact same
  terms := closes.terms

theorem Closes.leave {plan : Plan} (closes : first.Closes id member actions contest later over?)
    (run : first.run? actions = some contest) (found : contest.members[id]? = some later)
    (between : later.candidate.task = .between stage) (calls : next.calls = contest.calls) :
    first.Closes id member (actions ++ [.proceed id plan]) next
      { later with candidate := later.candidate.finish later.farewell, flight := none } over? where
  calling := fun _ _ never => by cases never
  concluded := closes.concluded
  calls := by
    rw [calls]
    exact closes.calls
  deeds := by
    rw [deedsOf_concat_of_not_land run found (step?_ne_land_of_between between)]
    exact closes.deeds
  aloft := fun _ _ _ never => by cases never
  words := by
    intro heard
    have listens : later.candidate.listening = true := by
      rcases heard with listens | never
      · rwa [Candidate.listening_finish] at listens
      · cases never
    obtain ⟨words, said, closing⟩ := closes.words (Or.inl listens)
    rw [between] at closing
    refine ⟨words ++ [later.farewell], ?_, ?_⟩
    · rw [Candidate.reports_finish, if_pos listens, said, List.append_assoc]
      rfl
    · exact .left actions [] plan stage over? words contest later closing run found
  terms := (Candidate.candidacy_finish _ _).trans closes.terms

theorem Closes.land {plan : Plan} {began : Nat} {flight : Flight} {reply : Except StoreError Reply}
    {bucket : Bucket} {landing : Nat × Except StoreError Entry}
    (closes : first.Closes id member actions contest later over?)
    (run : first.run? actions = some contest) (found : contest.members[id]? = some later)
    (calling : later.candidate.task = .calling stage began) (flying : later.flight = some flight)
    (aloft : flight.landed = none) (arrived : Member.progressAt began flight ≤ contest.now)
    (performed : (contest.bucket.struckBy flight.plan.fault).Performed contest.now
      (stage.call.operation later.candidate.candidacy) reply bucket)
    (calls : next.calls = contest.calls) :
    first.Closes id member (actions ++ [.proceed id plan]) next
      { later with flight := some { flight with landed := some landing } } over? where
  calling := closes.calling
  concluded := closes.concluded
  calls := by
    rw [calls]
    exact closes.calls
  deeds := by
    obtain ⟨same, none⟩ := closes.aloft stage began flight calling flying aloft
    refine ⟨contest.deed? (.proceed id plan), ?_, ?_⟩
    · have own : ∀ deed ∈ (contest.deed? (.proceed id plan)).toList,
          decide (deed.author = some id) = true := by
        intro deed done
        obtain ⟨_, _, _, _, _, _, _, does⟩ := deed?_proceed_eq_some (Option.mem_toList.mp done)
        obtain ⟨_, _, _, _, _, rfl⟩ := Bucket.deed?_eq_some does
        exact decide_eq_true rfl
      rw [deedsOf_concat run, none, List.nil_append, List.filter_eq_self.mpr own]
    · intro deed done
      obtain ⟨mine, _⟩ := closes.calling stage began calling
      rw [Option.mem_def, deed?_of_landed found calling flying aloft arrived performed] at done
      have does := done
      unfold Deed.of? at does
      split at does
      · rename_i kind answered changes
        cases does
        rw [closes.terms] at changes
        refine ⟨stage, began, flight, mine, same, aloft, ?_, changes⟩
        rw [closes.terms]
        cases stage <;> rfl
      · cases does
  aloft := by
    intro _ _ _ _ lands never
    cases lands
    cases never
  words := by
    intro heard
    obtain ⟨words, said, closing⟩ := closes.words heard
    exact ⟨words, said, closing.onward _⟩
  terms := closes.terms

/-- The call is over and the member takes its answer. -/
theorem Closes.settle {plan : Plan} {record : CallRecord} {answer : Except StoreError Entry}
    (closes : first.Closes id member actions contest later over?)
    (run : first.run? actions = some contest) (found : contest.members[id]? = some later)
    (calling : later.candidate.task = .calling stage record.began)
    (idle : contest.step? later ≠ some .land) (concluded : record.answer? member.limitMs = some answer)
    (own : record.member = id ∧ record.call = stage.call)
    (calls : next.calls = record :: contest.calls) :
    first.Closes id member (actions ++ [.proceed id plan]) next
      { later with candidate := later.candidate.settle contest.now stage answer, flight := none }
      (some record) where
  calling := by
    intro stage' began never
    rcases later.candidate.task_settle contest.now stage answer with ended | ⟨waiting, waits⟩
    · cases ended.symm.trans never
    · cases waits.symm.trans never
  concluded := by
    intro same present
    cases present
    exact ⟨stage, (closes.calling stage record.began calling).1, own.2⟩
  calls := by
    obtain ⟨_, rfl⟩ := closes.calling stage record.began calling
    have counted : (record :: contest.calls).filter (·.member = id) =
        record :: contest.calls.filter (·.member = id) :=
      List.filter_cons_of_pos (decide_eq_true own.1)
    rw [calls, counted, closes.calls]
    rfl
  deeds := by
    rw [deedsOf_concat_of_not_land run found idle]
    exact closes.deeds
  aloft := fun _ _ _ _ never => by cases never
  words := by
    obtain ⟨mine, rfl⟩ := closes.calling stage record.began calling
    intro heard
    have listens : later.candidate.listening = true := by
      rcases heard with listens | never
      · rwa [Candidate.listening_settle] at listens
      · rcases later.candidate.task_settle contest.now stage answer with ended | ⟨waiting, waits⟩
        · cases ended.symm.trans never
        · cases waits.symm.trans never
    obtain ⟨words, said, closing⟩ := closes.words (Or.inl listens)
    have silent : words = [] := by
      rw [calling] at closing
      cases closing
      rfl
    rw [silent, List.append_nil] at said
    have settled := later.candidate.settled contest.now stage answer
    generalize later.candidate.settle contest.now stage answer = settling at settled ⊢
    cases settled with
    | silent phase enters =>
        exact ⟨[], said.trans (List.append_nil _).symm,
          .silent _ stage _ record phase answer mine concluded enters⟩
    | told phase outcome enters =>
        refine ⟨[outcome], congrArg (· ++ [outcome]) said, ?_⟩
        rcases Stage.transition_report enters with rfl | rfl
        · obtain ⟨entry, rfl, rfl⟩ := Stage.transition_of_won enters
          exact .won _ _ record entry mine concluded
        · obtain ⟨cause, rfl, writes, conflict⟩ := Stage.transition_of_lost enters
          exact .lost _ stage _ record cause mine concluded writes conflict
    | unheard phase outcome enters deaf =>
        rw [listens] at deaf
        cases deaf
    | ended outcome ends =>
        obtain ⟨cause, rfl, rfl⟩ := Stage.transition_finish ends
        refine ⟨[.error cause], ?_, .failed _ stage record cause mine concluded ends⟩
        rw [Candidate.reports_finish, if_pos listens, said]
        rfl
  terms := (Candidate.candidacy_settle _ _ _ _).trans closes.terms

end Steps

theorem step?_ne_land_of_landed {began : Nat} {flight : Flight}
    {landing : Nat × Except StoreError Entry} (calling : member.candidate.task = .calling stage began)
    (flying : member.flight = some flight) (landed : flight.landed = some landing) :
    contest.step? member ≠ some .land := by
  simp only [step?, Member.step?, calling, flying, landed]
  split
  · exact fun answers => Step.noConfusion (Option.some.inj answers)
  · split <;> (intro never; cases never)

theorem step?_ne_land_of_underWay {began : Nat} {flight : Flight}
    (calling : member.candidate.task = .calling stage began) (flying : member.flight = some flight)
    (underWay : contest.now < Member.progressAt began flight) :
    contest.step? member ≠ some .land := by
  simp only [step?, Member.step?, calling, flying, if_neg (Nat.not_le.mpr underWay)]
  split <;> (intro never; cases never)

theorem Closes.turn (closes : first.Closes id member actions contest later over?)
    (run : first.run? actions = some contest) (found : contest.members[id]? = some later)
    (interrupted : contest.Interrupted later) (turn : Turn contest action next) :
    ∃ going over?, next.members[id]? = some going ∧ next.Interrupted going ∧
      first.Closes id member (actions ++ [action]) next going over? := by
  obtain ⟨going, there, signalled⟩ := turn.signalled found
  have still := turn.interrupted signalled interrupted
  obtain ⟨same, thereToo, step⟩ := turn.memberStep found
  obtain rfl : going = same := Option.some.inj (there.symm.trans thereToo)
  cases step with
  | kept _ _ _ elsewhere task terms reports flight _ calls =>
      exact ⟨going, over?, there, still,
        closes.keep run elsewhere signalled task terms reports flight calls⟩
  | passed instant =>
      exact ⟨later, over?, there, still,
        closes.keep run (fun _ => Action.noConfusion) signalled rfl rfl rfl rfl rfl⟩
  | started context fresh => exact ⟨_, over?, there, still, closes.start run fresh rfl⟩
  | called plan stage following between moved =>
      cases (moveOf_of_interrupted interrupted).symm.trans moved
  | left plan _ _ stage between =>
      obtain rfl := Option.some.inj (there.symm.trans (turn.farewell found between interrupted))
      exact ⟨_, over?, there, still, closes.leave run found between rfl⟩
  | landed plan stage began flight reply bucket _ calling flying aloft arrived performed =>
      exact ⟨_, over?, there, still,
        closes.land run found calling flying aloft arrived performed rfl⟩
  | answered plan stage began flight landedAt answer calling flying landed =>
      exact ⟨_, _, there, still, closes.settle run found calling
        (step?_ne_land_of_landed calling flying landed) rfl ⟨rfl, rfl⟩ rfl⟩
  | cutOff plan stage began flight cause calling flying underWay =>
      have limit : later.limitMs = member.limitMs :=
        congrArg (fun candidacy : Candidacy => candidacy.callLimitMs.getD 0) closes.terms
      have whole :=
        Option.some.inj (there.symm.trans (turn.cutOff_eq found calling flying underWay))
      refine ⟨_, some ⟨id, stage.call, began, contest.now, flight.landed, true⟩, there, still, ?_⟩
      rw [whole]
      exact closes.settle run found calling (step?_ne_land_of_underWay calling flying underWay)
        (by rw [limit]; rfl) ⟨rfl, rfl⟩ rfl

/-- Whoever is interrupted does not wait for its ticker. -/
theorem not_between_of_quiet (quiet : contest.quiet = true)
    (found : contest.members[id]? = some member) (interrupted : contest.Interrupted member) :
    member.candidate.task ≠ .between stage := by
  intro between
  have idle := idle_of_quiet quiet found
  have leaves : stage.look (member.candidate.signals (contest.isCancelled member.context))
      contest.now = .finish member.farewell := moveOf_of_interrupted interrupted
  simp only [step?, Member.step?, between, leaves] at idle
  cases idle

/-- Whenever an election that is on, or has not begun, is stopped or cancelled, and whatever happens
then: it begins no call, and only the call that was under way can still change the bucket. As long as
somebody listens, it reports what that call has brought about and then, unless the call has failed for
good, that it was stopped, or else that it was cancelled. It is over before time passes, unless it
waits for that call or has not been started. -/
theorem closes_of_run (found : contest.members[id]? = some member)
    (interrupted : contest.Interrupted member) (run : contest.run? actions = some after) :
    ∃ later over?, after.members[id]? = some later ∧
      contest.Closes id member actions after later over? ∧
      (after.quiet = true → ∀ stage, later.candidate.task ≠ .between stage) := by
  obtain ⟨later, over?, there, still, closes⟩ := run_induction (motive := fun actions after =>
      ∃ later over?, after.members[id]? = some later ∧ after.Interrupted later ∧
        contest.Closes id member actions after later over?)
    ⟨member, none, found, interrupted, .refl contest id member⟩
    (fun actions middle action next ran ih turn => by
      obtain ⟨later, over?, there, still, closes⟩ := ih
      exact closes.turn ran there still turn)
    actions after run
  exact ⟨later, over?, there, closes, fun quiet _ => not_between_of_quiet quiet there still⟩

def interruption : Contest where
  bucket := { terms := ⟨"b", 2_000_000_000⟩ }
  cancelled := ["c"]
  members :=
    [{ candidate :=
        { candidacy := { key := "k", candidate := ⟨"a"⟩, renewEveryMs := 1500, pollEveryMs := 500 }
          task := .calling .electing 0
          listening := true }
       context := "c"
       flight := some { plan := { before := 1, after := 2 } } }]

/-- The create succeeds. Before its answer is back, the candidate is also asked to stop. -/
def lastSteps : List Action :=
  [.passTo 1, .proceed 0 {}, .stop 0, .passTo 3, .proceed 0 {}, .proceed 0 {}]

def afterLastSteps : Contest where
  bucket :=
    { terms := ⟨"b", 2_000_000_000⟩
      records := [("k", ⟨Text.encode "a", ⟨1⟩, 1⟩)]
      revision := ⟨1⟩ }
  now := 3
  cancelled := ["c"]
  members :=
    [{ candidate :=
        { candidacy := { key := "k", candidate := ⟨"a"⟩, renewEveryMs := 1500, pollEveryMs := 500 }
          task := .ended
          stopRequested := true
          listening := true
          reports := [.won, .stopped] }
       context := "c" }]
  calls := [⟨0, .create, 0, 3, some (1, .ok ⟨"k", Text.encode "a", ⟨1⟩⟩), false⟩]

theorem run_lastSteps : interruption.run? lastSteps = some afterLastSteps := rfl

theorem closes_afterLastSteps :
    ∃ member, interruption.members[0]? = some member ∧ interruption.Interrupted member ∧
      interruption.run? lastSteps = some afterLastSteps ∧
      ∃ later over?, afterLastSteps.members[0]? = some later ∧
        interruption.Closes 0 member lastSteps afterLastSteps later over? ∧
        (afterLastSteps.quiet = true → ∀ stage, later.candidate.task ≠ .between stage) :=
  have interrupted : interruption.Interrupted _ := Or.inr ⟨Task.noConfusion, rfl⟩
  ⟨_, rfl, interrupted, run_lastSteps, closes_of_run rfl interrupted run_lastSteps⟩

end Contest

end Leasehold
