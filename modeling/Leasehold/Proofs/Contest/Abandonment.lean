import Leasehold.Proofs.Contest.Cadence
import Leasehold.Proofs.Contest.Closing
import Leasehold.Proofs.Contest.Renumbering

set_option autoImplicit false

/-!
What an election still does once nobody holds the receiving end of its reports.

A candidate notices that nobody listens while it waits for a tick, and when it has something to
report, but not before a create. So it begins one more call at most: a create, because it has made no
call yet or because the look that was under way has found the key vacant. Whatever that brings would
have to be reported, and the election is over. The lease that it leaves behind is not renewed.
-/

namespace Leasehold

namespace Bucket

variable {bucket after : Bucket} {now instant : Nat} {operation : Operation}
  {reply : Except StoreError Reply} {author : Option Nat} {key : String} {record : Record}

/-! ### A lease that nobody touches -/

/-- What does nothing to a key leaves there what was live, now and later. -/
theorem Performed.live?_of_idle (performed : bucket.Performed now operation reply after)
    (idle : ∀ deed ∈ Deed.of? author operation reply after now, deed.key ≠ key)
    (later : now ≤ instant) : after.live? instant key = bucket.live? instant key := by
  by_cases apart : key = operation.key
  · subst apart
    have same : after.live? now operation.key = bucket.live? now operation.key := by
      cases performed with
      | struck => rfl
      | found | missing | taken | stale | gone => exact live?_purge _
      | created | updated | deleted => exact absurd rfl (idle _ rfl)
    apply Option.ext
    intro record
    rw [live?_later_iff later, live?_later_iff later, same, expired_congr performed.terms_eq]
  · exact performed.live?_of_ne instant apart

/-- A record is live until one time-to-live after it was written. -/
theorem live?_of_live {ttl : Nat} (limited : bucket.terms.ttl? = some ttl) (positive : 0 < ttl)
    (live : bucket.live? now key = some record) :
    bucket.live? instant key = if instant < record.writtenAt + ttl then some record else none := by
  have held := (live?_eq_some_iff.mp live).1
  have young : bucket.expired instant record = false ↔ instant - record.writtenAt < ttl :=
    expired_eq_false_iff limited
  by_cases fresh : instant < record.writtenAt + ttl
  · rw [if_pos fresh]
    exact live?_eq_some_iff.mpr ⟨held, young.mpr (by omega)⟩
  · rw [if_neg fresh]
    have old : bucket.expired instant record = true := by
      cases expired : bucket.expired instant record with
      | true => rfl
      | false =>
          have soon := young.mp expired
          omega
    simp only [live?, held, Option.filter_some, old, Bool.not_true, Bool.false_eq_true, if_false]

/-- What a write of a candidate leaves behind. -/
theorem Performed.live?_of_call {call : Call} {candidacy : Candidacy} {deed : Deed}
    (performed : bucket.Performed now (call.operation candidacy) reply after)
    (done : Deed.of? author (call.operation candidacy) reply after now = some deed) :
    deed.instant = now ∧ after.live? now candidacy.key =
      some ⟨candidacy.candidate.bytes, deed.revision, deed.instant⟩ := by
  cases call with
  | poll => cases done
  | create =>
      cases performed with
      | struck | taken => cases done
      | created key value =>
          cases done
          exact ⟨rfl, live?_write _⟩
  | renew held =>
      simp only [Call.operation] at performed done
      cases performed with
      | struck | stale | gone => cases done
      | updated key value record =>
          cases done
          exact ⟨rfl, live?_write _⟩

end Bucket

namespace Contest

variable {contest next first after : Contest} {action : Action} {actions : List Action} {id : Nat}
  {member later : Member} {stage : Stage} {key : String} {instant : Nat}

theorem Turn.live?_of_idle (turn : Turn contest action next)
    (idle : ∀ deed ∈ contest.deed? action, deed.key ≠ key) (later : contest.now ≤ instant) :
    next.bucket.live? instant key = contest.bucket.live? instant key := by
  cases turn with
  | performed operation reply bucket performed =>
      rw [deed?, Bucket.deed?, performed.perform_eq] at idle
      exact performed.live?_of_idle idle later
  | landed id plan member stage began flight reply bucket found calling flying aloft arrived
      performed =>
      rw [deed?_of_landed found calling flying aloft arrived performed] at idle
      exact (performed.live?_of_idle idle later).trans (Bucket.live?_struckBy _ _ _ _)
  | _ => rfl

theorem live?_of_untouched (run : contest.run? actions = some after)
    (untouched : ∀ deed ∈ contest.chronicle actions, deed.key ≠ key) (later : after.now ≤ instant) :
    after.bucket.live? instant key = contest.bucket.live? instant key := by
  refine run_induction (motive := fun actions after =>
    (∀ deed ∈ contest.chronicle actions, deed.key ≠ key) → after.now ≤ instant →
      after.bucket.live? instant key = contest.bucket.live? instant key)
    (fun _ _ => rfl) ?_ actions after run untouched later
  intro actions middle action next ran ih turn untouched later
  rw [chronicle_concat ran] at untouched
  have before := Nat.le_trans turn.now_le later
  rw [turn.live?_of_idle (fun deed done => untouched deed
    (List.mem_append_right _ (Option.mem_toList.mpr done))) before]
  exact ih (fun deed done => untouched deed (List.mem_append_left _ done)) before

/-! ### A candidate that nobody listens to -/

end Contest

namespace Stage

variable {stage : Stage} {signals : Signals} {now : Nat}

/-- Without a listener only a create is begun. -/
theorem look_call_of_deaf {next : Stage} (calls : stage.look signals now = .call next)
    (deaf : signals.listening = false) : stage = .electing ∧ next = .electing := by
  cases stage with
  | electing =>
      rcases (look_call calls).2.2 with ⟨_, same⟩ | ⟨ticker, never, _⟩
      · exact ⟨rfl, same⟩
      · cases never
  | leading held ticker | following ticker =>
      unfold look at calls
      split at calls
      · cases calls
      split at calls
      · cases calls
      · simp only [ticker?, deaf, Bool.not_false, if_true] at calls
        cases calls

/-- A stage with a ticker does not rest without a listener. -/
theorem look_ne_rest_of_deaf (deaf : signals.listening = false) : stage.look signals now ≠ .rest := by
  intro rests
  unfold look at rests
  split at rests
  · cases rests
  split at rests
  · cases rests
  · split at rests
    · cases rests
    · simp only [deaf, Bool.not_false, if_true] at rests
      cases rests

/-- All phases but the first have a ticker. -/
theorem exists_ticker_of_enter (stage : Stage) (candidacy : Candidacy) (now : Nat) {phase : Phase}
    (entered : phase ≠ .electing) :
    ∃ ticker, (stage.enter candidacy now phase).ticker? = some ticker := by
  cases phase with
  | electing => exact absurd rfl entered
  | leading held => cases stage <;> exact ⟨_, rfl⟩
  | following => cases stage <;> exact ⟨_, rfl⟩

inductive Falls (stage : Stage) (answer : Except StoreError Entry) : Task → Prop
  | ended : Falls stage answer .ended
  | waiting (next : Stage) (ticker : Ticker) (ticks : next.ticker? = some ticker) :
      Falls stage answer (.between next)
  | vacant (ticker : Ticker) (key : String) (looked : stage = .following ticker)
      (missing : answer = .error (.keyNotFound key)) : Falls stage answer (.between .electing)

end Stage

namespace Candidate

theorem reports_finish_of_deaf {candidate : Candidate} (deaf : candidate.listening = false)
    (outcome : Outcome) : (candidate.finish outcome).reports = candidate.reports := by
  rw [reports_finish, deaf]
  exact List.append_nil _

theorem settle_of_deaf {candidate : Candidate} (deaf : candidate.listening = false) (now : Nat)
    (stage : Stage) (answer : Except StoreError Entry) :
    (candidate.settle now stage answer).reports = candidate.reports ∧
      stage.Falls answer (candidate.settle now stage answer).task := by
  have settled := candidate.settled now stage answer
  generalize candidate.settle now stage answer = after at settled ⊢
  cases settled with
  | silent phase enters =>
      refine ⟨rfl, ?_⟩
      by_cases again : phase = .electing
      · subst again
        obtain ⟨⟨ticker, looked⟩, _, key, missing⟩ := Stage.transition_enter_electing enters
        exact .vacant ticker key looked missing
      · obtain ⟨ticker, ticks⟩ := stage.exists_ticker_of_enter candidate.candidacy now again
        exact .waiting _ ticker ticks
  | told phase outcome enters heard =>
      rw [deaf] at heard
      cases heard
  | unheard => exact ⟨rfl, .ended⟩
  | ended outcome => exact ⟨reports_finish_of_deaf deaf outcome, .ended⟩

end Candidate

namespace Member

/-- Nothing of what the member has under way has reached the bucket as a write. -/
inductive Unspent (member : Member) : Prop
  | looking (between : member.candidate.task = .between .electing)
  | polling (stage : Stage) (began : Nat) (calling : member.candidate.task = .calling stage began)
      (looks : stage.call = .poll)
  | aloft (stage : Stage) (began : Nat) (flight : Flight)
      (calling : member.candidate.task = .calling stage began) (flying : member.flight = some flight)
      (aloft : flight.landed = none)

end Member

namespace Contest

variable {contest next first after : Contest} {action : Action} {actions : List Action} {id : Nat}
  {member later : Member} {stage : Stage} {key : String} {instant : Nat}

/-- Why a member that nobody listens to begins a create: it has made no call so far, or the look that
was under way has found the key vacant. -/
inductive Prompted (first : Contest) (id : Nat) (member : Member) (contest : Contest) : Prop
  | untried (fresh : member.candidate.task = .between .electing) (none : first.issued id member = [])
  | vacant (ticker : Ticker) (record : CallRecord) (cause : StoreError)
      (looking : member.candidate.task = .calling (.following ticker) record.began)
      (latest : contest.calls.filter (·.member = id) = record :: first.calls.filter (·.member = id))
      (concluded : record.answer? member.limitMs = some (.error cause))
      (missing : cause.isNotFound = true)

/-- At an instant of the run the member begins a create for one of these reasons, without having been
stopped or cancelled. -/
def Creates (first : Contest) (id : Nat) (member : Member) (actions : List Action) (instant : Nat) :
    Prop :=
  ∃ (done : List Action) (plan : Plan) (rest : List Action) (reached : Contest) (looking : Member),
    actions = done ++ .proceed id plan :: rest ∧ first.run? done = some reached ∧
      reached.members[id]? = some looking ∧ reached.now = instant ∧ ¬reached.Interrupted looking ∧
      first.Prompted id member reached

inductive Whereabouts (first : Contest) (id : Nat) (member : Member) (contest : Contest) :
    Option Nat → Task → Prop
  | same (calls : contest.calls.filter (·.member = id) = first.calls.filter (·.member = id)) :
      Whereabouts first id member contest none member.candidate.task
  | again (prompted : first.Prompted id member contest) :
      Whereabouts first id member contest none (.between .electing)
  | creating (instant : Nat) :
      Whereabouts first id member contest (some instant) (.calling .electing instant)
  | waiting (extra? : Option Nat) (stage : Stage) (ticker : Ticker)
      (ticks : stage.ticker? = some ticker) :
      Whereabouts first id member contest extra? (.between stage)
  | ended (extra? : Option Nat) : Whereabouts first id member contest extra? .ended

structure Abandons (first : Contest) (id : Nat) (member : Member) (actions : List Action)
    (contest : Contest) (later : Member) (extra? : Option Nat) : Prop where
  deaf : later.candidate.listening = false
  begun : later.candidate.task ≠ .unstarted
  silent : later.candidate.reports = member.candidate.reports
  terms : later.candidate.candidacy = member.candidate.candidacy
  whereabouts : first.Whereabouts id member contest extra? later.candidate.task
  issued : contest.issued id later = first.issued id member ++ extra?.toList.map (Prod.mk .create)
  created : ∀ instant ∈ extra?, first.Creates id member actions instant
  deeds : ∃ done? : Option Deed, first.deedsOf id actions = done?.toList ∧ ∀ deed ∈ done?,
    member.Owes deed ∨ extra?.isSome = true ∧ deed.kind = .created ∧ deed.key = member.key
  unspent : later.Unspent → first.deedsOf id actions = []
  aloft : extra? = none → ∀ flight, later.flight = some flight → flight.landed = none →
    (∃ stage began, later.candidate.task = .calling stage began) → member.flight = some flight

variable {extra? : Option Nat}

theorem Creates.onward (creates : first.Creates id member actions instant) (more : List Action) :
    first.Creates id member (actions ++ more) instant := by
  obtain ⟨done, plan, rest, reached, looking, rfl, creates⟩ := creates
  refine ⟨done, plan, rest ++ more, reached, looking, ?_, creates⟩
  rw [List.append_assoc, List.cons_append]

theorem Prompted.onward (prompted : first.Prompted id member contest)
    (calls : next.calls.filter (·.member = id) = contest.calls.filter (·.member = id)) :
    first.Prompted id member next := by
  cases prompted with
  | untried fresh none => exact .untried fresh none
  | vacant ticker record cause looking latest concluded missing =>
      exact .vacant ticker record cause looking (calls.trans latest) concluded missing

theorem Whereabouts.onward {task : Task} (whereabouts : first.Whereabouts id member contest extra? task)
    (calls : next.calls.filter (·.member = id) = contest.calls.filter (·.member = id)) :
    first.Whereabouts id member next extra? task := by
  cases whereabouts with
  | same before => exact .same (calls.trans before)
  | again prompted => exact .again (prompted.onward calls)
  | creating instant => exact .creating instant
  | waiting _ stage ticker ticks => exact .waiting _ stage ticker ticks
  | ended => exact .ended _

theorem Turn.reports_of_deaf {plan : Plan} {going : Member}
    (turn : Turn contest (.proceed id plan) next) (found : contest.members[id]? = some member)
    (between : member.candidate.task = .between stage) (deaf : member.candidate.listening = false)
    (there : next.members[id]? = some going) : going.candidate.reports = member.candidate.reports := by
  have inside := (List.getElem?_eq_some_iff.mp found).1
  cases turn with
  | ignored _ _ asks => cases asks
  | called _ _ rival earlier following was | abandoned _ _ rival earlier was =>
      cases found.symm.trans was
      cases (List.getElem?_set_self inside).symm.trans there
      rfl
  | quit _ _ rival earlier outcome was =>
      cases found.symm.trans was
      cases (List.getElem?_set_self inside).symm.trans there
      exact Candidate.reports_finish_of_deaf deaf outcome
  | landed _ _ _ _ _ _ _ _ was calling | answered _ _ _ _ _ _ _ _ was calling
  | cutOff _ _ _ _ _ _ _ was calling =>
      cases found.symm.trans was
      cases between.symm.trans calling

theorem deedsOf_concat_of_own {plan : Plan} (run : first.run? actions = some contest) :
    first.deedsOf id (actions ++ [.proceed id plan]) =
      first.deedsOf id actions ++ (contest.deed? (.proceed id plan)).toList := by
  have own : ∀ deed ∈ (contest.deed? (.proceed id plan)).toList,
      decide (deed.author = some id) = true := by
    intro deed done
    obtain ⟨_, _, _, _, _, _, _, does⟩ := deed?_proceed_eq_some (Option.mem_toList.mp done)
    obtain ⟨_, _, _, _, _, rfl⟩ := Bucket.deed?_eq_some does
    exact decide_eq_true rfl
  rw [deedsOf_concat run, List.filter_eq_self.mpr own]

/-- A call under way is the one that was, or the create. -/
theorem Whereabouts.of_calling {began : Nat}
    (whereabouts : first.Whereabouts id member contest extra? (.calling stage began)) :
    extra? = none ∧ member.candidate.task = .calling stage began ∧
        contest.calls.filter (·.member = id) = first.calls.filter (·.member = id) ∨
      extra? = some began ∧ stage = .electing := by
  generalize reached : Task.calling stage began = task at whereabouts
  cases whereabouts with
  | same calls => exact Or.inl ⟨rfl, rfl, calls⟩
  | creating instant =>
      cases reached
      exact Or.inr ⟨rfl, rfl⟩
  | again | waiting | ended => cases reached

namespace Abandons

variable {going : Member}

theorem refl (begun : member.candidate.task ≠ .unstarted)
    (deaf : member.candidate.listening = false) : first.Abandons id member [] first member none where
  deaf := deaf
  begun := begun
  silent := rfl
  terms := rfl
  whereabouts := .same rfl
  issued := (List.append_nil _).symm
  created := fun _ never => by cases never
  deeds := ⟨none, rfl, fun _ never => by cases never⟩
  unspent := fun _ => rfl
  aloft := fun _ _ flying _ _ => flying

/-- A turn that leaves the member where it is. -/
theorem keep (abandons : first.Abandons id member actions contest later extra?)
    (run : first.run? actions = some contest) (elsewhere : ∀ plan, action ≠ .proceed id plan)
    (signalled : later.Signalled going) (task : going.candidate.task = later.candidate.task)
    (terms : going.candidate.candidacy = later.candidate.candidacy)
    (reports : going.candidate.reports = later.candidate.reports) (flight : going.flight = later.flight)
    (calls : next.calls.filter (·.member = id) = contest.calls.filter (·.member = id)) :
    first.Abandons id member (actions ++ [action]) next going extra? where
  deaf := by
    refine Bool.eq_false_iff.mpr fun listens => ?_
    rcases signalled.listening listens with listened | fresh
    · rw [abandons.deaf] at listened
      cases listened
    · exact abandons.begun fresh
  begun := by
    rw [task]
    exact abandons.begun
  silent := reports.trans abandons.silent
  terms := terms.trans abandons.terms
  whereabouts := by
    rw [task]
    exact abandons.whereabouts.onward calls
  issued := by
    have underWay : going.underWay? = later.underWay? := by
      unfold Member.underWay?
      rw [task]
    rw [issued_of_same calls underWay]
    exact abandons.issued
  created := fun instant present => (abandons.created instant present).onward [action]
  deeds := by
    rw [deedsOf_concat_of_elsewhere run elsewhere]
    exact abandons.deeds
  unspent := by
    intro unspent
    rw [deedsOf_concat_of_elsewhere run elsewhere]
    refine abandons.unspent ?_
    cases unspent with
    | looking between => exact .looking (task ▸ between)
    | polling stage began calling looks => exact .polling stage began (task ▸ calling) looks
    | aloft stage began flown calling flying aloft =>
        exact .aloft stage began flown (task ▸ calling) (flight ▸ flying) aloft
  aloft := by
    rw [flight, task]
    exact abandons.aloft

/-- The one call that is still begun. -/
theorem call {plan : Plan} {following : Stage}
    (abandons : first.Abandons id member actions contest later extra?)
    (run : first.run? actions = some contest) (found : contest.members[id]? = some later)
    (untried : member.candidate.task = .between .electing → first.issued id member = [])
    (between : later.candidate.task = .between stage)
    (moved : contest.moveOf later stage = .call following) :
    extra? = none ∧ first.Abandons id member (actions ++ [.proceed id plan])
      (contest.put id { later with
        candidate := { later.candidate with task := .calling following contest.now }
        flight := some { plan } })
      { later with
        candidate := { later.candidate with task := .calling following contest.now }
        flight := some { plan } } (some contest.now) := by
  obtain ⟨rfl, rfl⟩ := Stage.look_call_of_deaf moved abandons.deaf
  obtain ⟨noStop, noCancel, _⟩ := Stage.look_call moved
  have undisturbed : ¬contest.Interrupted later := by
    rintro (stop | ⟨_, gone⟩)
    · cases noStop.symm.trans stop
    · cases noCancel.symm.trans gone
  have prompted : extra? = none ∧ first.Prompted id member contest := by
    have whereabouts := abandons.whereabouts
    rw [between] at whereabouts
    generalize reached : Task.between Stage.electing = task at whereabouts
    cases whereabouts with
    | same => exact ⟨rfl, .untried reached.symm (untried reached.symm)⟩
    | again prompted => exact ⟨rfl, prompted⟩
    | waiting _ waiting ticker ticks =>
        cases reached
        cases ticks
    | creating | ended => cases reached
  obtain ⟨rfl, prompted⟩ := prompted
  have still : first.deedsOf id (actions ++ [.proceed id plan]) = [] :=
    (deedsOf_concat_of_not_land run found (step?_ne_land_of_between between)).trans
      (abandons.unspent (.looking between))
  exact ⟨rfl, {
    deaf := abandons.deaf
    begun := Task.noConfusion
    silent := abandons.silent
    terms := abandons.terms
    whereabouts := .creating contest.now
    issued := by
      rw [issued_of_called between rfl, abandons.issued, Option.toList_none, List.map_nil,
        List.append_nil]
      rfl
    created := by
      rintro instant ⟨⟩
      exact ⟨actions, plan, [], contest, later, rfl, run, found, rfl, undisturbed, prompted⟩
    deeds := ⟨none, still, fun _ never => by cases never⟩
    unspent := fun _ => still
    aloft := fun never => by cases never }⟩

/-- The member is over, without a word. -/
theorem leave {plan : Plan} (abandons : first.Abandons id member actions contest later extra?)
    (run : first.run? actions = some contest) (found : contest.members[id]? = some later)
    (idle : contest.step? later ≠ some .land) (ended : going.candidate.task = .ended)
    (grounded : going.flight = none) (deaf : going.candidate.listening = false)
    (terms : going.candidate.candidacy = later.candidate.candidacy)
    (reports : going.candidate.reports = later.candidate.reports)
    (issued : next.issued id going = contest.issued id later) :
    first.Abandons id member (actions ++ [.proceed id plan]) next going extra? where
  deaf := deaf
  begun := by
    rw [ended]
    exact Task.noConfusion
  silent := reports.trans abandons.silent
  terms := terms.trans abandons.terms
  whereabouts := by
    rw [ended]
    exact .ended extra?
  issued := issued.trans abandons.issued
  created := fun instant present => (abandons.created instant present).onward _
  deeds := by
    rw [deedsOf_concat_of_not_land run found idle]
    exact abandons.deeds
  unspent := by
    intro unspent
    cases unspent with
    | looking task | polling _ _ task | aloft _ _ _ task => cases ended.symm.trans task
  aloft := by
    intro _ flight flying
    cases grounded.symm.trans flying

theorem land {plan : Plan} {began : Nat} {flight : Flight} {reply : Except StoreError Reply}
    {bucket : Bucket} {landing : Nat × Except StoreError Entry}
    (abandons : first.Abandons id member actions contest later extra?)
    (run : first.run? actions = some contest) (found : contest.members[id]? = some later)
    (calling : later.candidate.task = .calling stage began) (flying : later.flight = some flight)
    (aloft : flight.landed = none) (arrived : Member.progressAt began flight ≤ contest.now)
    (performed : (contest.bucket.struckBy flight.plan.fault).Performed contest.now
      (stage.call.operation later.candidate.candidacy) reply bucket)
    (calls : next.calls = contest.calls) :
    first.Abandons id member (actions ++ [.proceed id plan]) next
      { later with flight := some { flight with landed := some landing } } extra? := by
  have before := abandons.unspent (.aloft stage began flight calling flying aloft)
  have landed : contest.deed? (.proceed id plan) = Deed.of? (some id)
      (stage.call.operation later.candidate.candidacy) reply bucket contest.now :=
    deed?_of_landed found calling flying aloft arrived performed
  have whole : first.deedsOf id (actions ++ [.proceed id plan]) =
      (contest.deed? (.proceed id plan)).toList := by
    rw [deedsOf_concat_of_own run, before, List.nil_append]
  exact {
    deaf := abandons.deaf
    begun := abandons.begun
    silent := abandons.silent
    terms := abandons.terms
    whereabouts := abandons.whereabouts.onward (by rw [calls])
    issued := (issued_of_same (by rw [calls]) rfl).trans abandons.issued
    created := fun instant present => (abandons.created instant present).onward _
    deeds := by
      refine ⟨_, whole, fun deed done => ?_⟩
      rw [Option.mem_def, landed] at done
      unfold Deed.of? at done
      split at done
      · rename_i kind answered does
        cases done
        rw [abandons.terms] at does
        have key : (stage.call.operation later.candidate.candidacy).key = member.key := by
          rw [abandons.terms]
          cases stage <;> rfl
        have whereabouts := abandons.whereabouts
        rw [calling] at whereabouts
        rcases whereabouts.of_calling with ⟨none, mine, _⟩ | ⟨rfl, rfl⟩
        · exact Or.inl ⟨stage, began, flight, mine,
            abandons.aloft none flight flying aloft ⟨stage, began, calling⟩, aloft, key, does⟩
        · exact Or.inr ⟨rfl, (Option.some.inj does).symm, key⟩
      · cases done
    unspent := by
      intro unspent
      rw [whole, landed]
      cases unspent with
      | looking between => cases calling.symm.trans between
      | polling same since polling looks =>
          cases calling.symm.trans polling
          simp only [looks, Call.operation, Deed.of?, Operation.kind?, Option.toList_none]
      | aloft _ _ flown _ flies never =>
          cases flies
          cases never
    aloft := by
      intro _ flown flies never
      cases flies
      cases never }

/-- The call is over, and its answer has to be passed on in vain or leads back to the start. -/
theorem answer {plan : Plan} {record : CallRecord} {answer : Except StoreError Entry}
    (abandons : first.Abandons id member actions contest later extra?)
    (run : first.run? actions = some contest) (found : contest.members[id]? = some later)
    (calling : later.candidate.task = .calling stage record.began)
    (idle : contest.step? later ≠ some .land) (concluded : record.answer? member.limitMs = some answer)
    (own : record.member = id) (call : record.call = stage.call)
    (calls : next.calls = record :: contest.calls) :
    first.Abandons id member (actions ++ [.proceed id plan]) next
      { later with candidate := later.candidate.settle contest.now stage answer, flight := none }
      extra? := by
  obtain ⟨silent, falls⟩ := Candidate.settle_of_deaf abandons.deaf contest.now stage answer
  have deaf := later.candidate.listening_settle contest.now stage answer
  have terms := later.candidate.candidacy_settle contest.now stage answer
  have unchanged : first.deedsOf id (actions ++ [.proceed id plan]) = first.deedsOf id actions :=
    deedsOf_concat_of_not_land run found idle
  have issued : next.issued id { later with
      candidate := later.candidate.settle contest.now stage answer
      flight := none } = contest.issued id later :=
    issued_of_over calling own call calls underWay?_of_settle
  have whereabouts := abandons.whereabouts
  rw [calling] at whereabouts
  generalize later.candidate.settle contest.now stage answer = settling
    at silent falls deaf terms issued ⊢
  obtain ⟨_, task, _, _, _⟩ := settling
  refine {
    deaf := deaf.trans abandons.deaf
    begun := ?_
    silent := silent.trans abandons.silent
    terms := terms.trans abandons.terms
    whereabouts := ?_
    issued := issued.trans abandons.issued
    created := fun instant present => (abandons.created instant present).onward _
    deeds := by
      rw [unchanged]
      exact abandons.deeds
    unspent := ?_
    aloft := fun _ _ never => by cases never }
  · cases falls <;> exact Task.noConfusion
  · cases falls with
    | ended => exact .ended extra?
    | waiting resting ticker ticks => exact .waiting extra? resting ticker ticks
    | vacant ticker key looked missing =>
        subst looked missing
        rcases whereabouts.of_calling with ⟨rfl, mine, before⟩ | ⟨_, never⟩
        · have latest : next.calls.filter (·.member = id) =
              record :: contest.calls.filter (·.member = id) := by
            rw [calls]
            exact List.filter_cons_of_pos (decide_eq_true own)
          exact .again (.vacant ticker record _ mine (before ▸ latest) concluded rfl)
        · cases never
  · intro unspent
    rw [unchanged]
    cases falls with
    | ended => cases unspent with
      | looking never | polling _ _ never | aloft _ _ _ never => cases never
    | waiting resting ticker ticks => cases unspent with
      | looking between =>
          cases between
          cases ticks
      | polling _ _ never | aloft _ _ _ never => cases never
    | vacant ticker key looked =>
        exact abandons.unspent (.polling stage record.began calling (by rw [looked]; rfl))

theorem turn (abandons : first.Abandons id member actions contest later extra?)
    (run : first.run? actions = some contest) (found : contest.members[id]? = some later)
    (untried : member.candidate.task = .between .electing → first.issued id member = [])
    (turn : Turn contest action next) :
    ∃ going extra?, next.members[id]? = some going ∧
      first.Abandons id member (actions ++ [action]) next going extra? := by
  obtain ⟨going, there, signalled⟩ := turn.signalled found
  obtain ⟨same, thereToo, step⟩ := turn.memberStep found
  obtain rfl : going = same := Option.some.inj (there.symm.trans thereToo)
  cases step with
  | kept _ _ _ elsewhere task terms reports flight _ calls =>
      exact ⟨going, extra?, there,
        abandons.keep run elsewhere signalled task terms reports flight calls⟩
  | passed instant =>
      exact ⟨later, extra?, there,
        abandons.keep run (fun _ => Action.noConfusion) signalled rfl rfl rfl rfl rfl⟩
  | started context fresh => exact absurd fresh abandons.begun
  | called plan stage following between moved =>
      exact ⟨_, _, there, (abandons.call run found untried between moved).2⟩
  | left plan _ extra stage between ended grounded terms =>
      have underWay : going.underWay? = later.underWay? := by
        simp only [Member.underWay?, between, ended]
      exact ⟨going, extra?, there, abandons.leave run found (step?_ne_land_of_between between) ended
        grounded
        (Bool.eq_false_iff.mpr fun listens => by
          rcases signalled.listening listens with listened | fresh
          · rw [abandons.deaf] at listened
            cases listened
          · exact abandons.begun fresh)
        terms (turn.reports_of_deaf found between abandons.deaf there) (issued_of_same rfl underWay)⟩
  | landed plan stage began flight reply bucket _ calling flying aloft arrived performed =>
      exact ⟨_, extra?, there,
        abandons.land run found calling flying aloft arrived performed rfl⟩
  | answered plan stage began flight landedAt answer calling flying landed =>
      exact ⟨_, extra?, there, abandons.answer run found calling
        (step?_ne_land_of_landed calling flying landed) rfl rfl rfl rfl⟩
  | cutOff plan stage began flight cause calling flying underWay =>
      exact ⟨_, extra?, there, abandons.leave run found
        (step?_ne_land_of_underWay calling flying underWay) rfl rfl
        ((Candidate.listening_finish _ _).trans abandons.deaf) (Candidate.candidacy_finish _ _)
        (Candidate.reports_finish_of_deaf abandons.deaf _) (issued_of_over calling rfl rfl rfl rfl)⟩

/-- Before time passes the member is over, or the call goes on that was under way or is the create. -/
theorem over_of_quiet (abandons : first.Abandons id member actions contest later extra?)
    (quiet : contest.quiet = true) (found : contest.members[id]? = some later) :
    later.candidate.task = .ended ∨ ∃ stage began, later.candidate.task = .calling stage began ∧
      (member.candidate.task = .calling stage began ∨ stage = .electing ∧ extra? = some began) := by
  have idle := idle_of_quiet quiet found
  cases task : later.candidate.task with
  | unstarted => exact absurd task abandons.begun
  | ended => exact Or.inl rfl
  | between stage =>
      simp only [step?, Member.step?, task] at idle
      split at idle
      · rename_i rests
        exact absurd rests (Stage.look_ne_rest_of_deaf abandons.deaf)
      · cases idle
  | calling stage began =>
      have whereabouts := abandons.whereabouts
      rw [task] at whereabouts
      rcases whereabouts.of_calling with ⟨_, mine, _⟩ | ⟨rfl, rfl⟩
      · exact Or.inr ⟨stage, began, rfl, Or.inl mine⟩
      · exact Or.inr ⟨.electing, began, rfl, Or.inr ⟨rfl, rfl⟩⟩

end Abandons

theorem Turn.live?_of_deed {plan : Plan} {deed : Deed}
    (turn : Turn contest (.proceed id plan) next) (found : contest.members[id]? = some member)
    (done : contest.deed? (.proceed id plan) = some deed) :
    deed.instant = next.now ∧ next.bucket.live? next.now member.key =
      some ⟨member.candidate.candidacy.candidate.bytes, deed.revision, deed.instant⟩ := by
  cases turn with
  | ignored _ _ asks => cases asks
  | called _ _ _ _ _ was between | quit _ _ _ _ _ was between | abandoned _ _ _ _ was between =>
      rw [deed?_of_not_land was (step?_ne_land_of_between between)] at done
      cases done
  | answered _ _ _ _ _ _ _ _ was calling flying landed =>
      rw [deed?_of_not_land was (step?_ne_land_of_landed calling flying landed)] at done
      cases done
  | cutOff _ _ _ _ _ _ _ was calling flying underWay =>
      rw [deed?_of_not_land was (step?_ne_land_of_underWay calling flying underWay)] at done
      cases done
  | landed _ _ rival stage began flight reply bucket was calling flying aloft arrived performed =>
      cases found.symm.trans was
      rw [deed?_of_landed found calling flying aloft arrived performed] at done
      exact performed.live?_of_call done

/-! ### The lease that is left behind -/

/-- The task of a member is suspended: it has not run yet, waits for a tick, or is in a call. -/
inductive Suspended (contest : Contest) (id : Nat) (member : Member) : Prop
  | untried (between : member.candidate.task = .between .electing)
      (none : contest.issued id member = [])
  | waiting (stage : Stage) (ticker : Ticker) (between : member.candidate.task = .between stage)
      (ticks : stage.ticker? = some ticker)
  | calling (stage : Stage) (began : Nat) (calling : member.candidate.task = .calling stage began)

structure Fades (first : Contest) (id : Nat) (member : Member) (actions : List Action)
    (after : Contest) (later : Member) (extra? : Option Nat) : Prop where
  /-- Nothing but a create is begun, and this once at most. -/
  issued : after.issued id later = first.issued id member ++ extra?.toList.map (Prod.mk .create)
  created : ∀ instant ∈ extra?, first.Creates id member actions instant
  ended : after.quiet = true → later.candidate.task = .ended ∨
    ∃ stage began, later.candidate.task = .calling stage began ∧
      (member.candidate.task = .calling stage began ∨ stage = .electing ∧ extra? = some began)
  silent : later.candidate.reports = member.candidate.reports
  /-- The bucket is changed once at most: by the call that was on its way to it, or by the create. -/
  deeds : ∃ done? : Option Deed, first.deedsOf id actions = done?.toList ∧ ∀ deed ∈ done?,
    member.Owes deed ∨ extra?.isSome = true ∧ deed.kind = .created ∧ deed.key = member.key
  /-- A lease that is not written again runs out. -/
  held : ∀ record, first.bucket.live? first.now member.key = some record →
    (∀ deed ∈ first.chronicle actions, deed.key ≠ member.key) →
    after.bucket.live? after.now member.key =
      if after.now < record.writtenAt + first.bucket.terms.ttl then some record else none
  /-- What the member still writes it does not write again, and that runs out. -/
  taken : ∀ done plan rest reached next deed, actions = done ++ .proceed id plan :: rest →
    first.run? done = some reached → reached.act? (.proceed id plan) = some next →
    reached.deed? (.proceed id plan) = some deed →
    next.deedsOf id rest = [] ∧ ((∀ other ∈ next.chronicle rest, other.key ≠ member.key) →
      after.bucket.live? after.now member.key =
        if after.now < deed.instant + first.bucket.terms.ttl then
          some ⟨member.candidate.candidacy.candidate.bytes, deed.revision, deed.instant⟩
        else none)

theorem abandons_of_run (found : contest.members[id]? = some member)
    (deaf : member.candidate.listening = false) (suspended : contest.Suspended id member)
    (run : contest.run? actions = some after) :
    ∃ later extra?, after.members[id]? = some later ∧
      contest.Abandons id member actions after later extra? := by
  have begun : member.candidate.task ≠ .unstarted := by
    intro fresh
    cases suspended with
    | untried task | waiting _ _ task | calling _ _ task => cases fresh.symm.trans task
  have untried : member.candidate.task = .between .electing → contest.issued id member = [] := by
    intro between
    cases suspended with
    | untried _ none => exact none
    | waiting stage ticker task ticks =>
        cases between.symm.trans task
        cases ticks
    | calling _ _ task => cases between.symm.trans task
  exact run_induction (motive := fun actions after => ∃ later extra?,
      after.members[id]? = some later ∧ contest.Abandons id member actions after later extra?)
    ⟨member, none, found, .refl begun deaf⟩
    (fun actions middle action next ran ih turn => by
      obtain ⟨later, extra?, there, abandons⟩ := ih
      exact abandons.turn ran there untried turn)
    actions after run

/-- A run that is split at one of its actions. -/
theorem run?_split {done rest : List Action} {reached : Contest}
    (run : first.run? (done ++ action :: rest) = some after) (ran : first.run? done = some reached)
    (acted : reached.act? action = some next) : next.run? rest = some after := by
  rw [run?_append_eq ran, run?, List.foldlM_cons, acted] at run
  exact run

theorem deedsOf_split {done rest : List Action} {reached : Contest} {plan : Plan}
    (ran : first.run? done = some reached) (acted : reached.act? (.proceed id plan) = some next) :
    first.deedsOf id (done ++ .proceed id plan :: rest) =
      first.deedsOf id done ++ ((reached.deed? (.proceed id plan)).toList ++ next.deedsOf id rest) := by
  have whole : done ++ .proceed id plan :: rest = (done ++ [.proceed id plan]) ++ rest := by
    rw [List.append_assoc, List.singleton_append]
  rw [← List.append_assoc, ← deedsOf_concat_of_own ran, whole, deedsOf,
    chronicle_append (run?_concat ran acted), List.filter_append]
  rfl

/-- Whenever the receiving end of the reports of an election is gone while the task is suspended, and
whatever happens then: a create is all that the election still begins, once at most, and only if it
has made no call yet or its look then finds the key vacant. It is over as soon as the call under way
and this create are, and reports nothing. What it holds or takes in this way it does not write again,
so that the lease runs out one time-to-live after it was written. -/
theorem fades_of_run {terms : BucketTerms} (reached : Reachable terms contest)
    (found : contest.members[id]? = some member) (deaf : member.candidate.listening = false)
    (suspended : contest.Suspended id member) (run : contest.run? actions = some after) :
    ∃ later extra?, after.members[id]? = some later ∧
      contest.Fades id member actions after later extra? := by
  obtain ⟨earlier, ran⟩ := reached
  obtain ⟨later, extra?, there, abandons⟩ := abandons_of_run found deaf suspended run
  have positive := Candidacy.ttl_pos_of_accept (accepted_of_run ran found)
  have limited : contest.bucket.terms.ttl? = some contest.bucket.terms.ttl :=
    if_neg (Nat.ne_of_gt positive)
  refine ⟨later, extra?, there, abandons.issued, abandons.created,
    fun quiet => abandons.over_of_quiet quiet there, abandons.silent, abandons.deeds, ?_, ?_⟩
  · intro record live untouched
    rw [live?_of_untouched run untouched (Nat.le_refl _)]
    exact Bucket.live?_of_live limited positive live
  · rintro done plan rest middle next deed rfl before acted does
    have goesOn := run?_split run before acted
    refine ⟨?_, fun untouched => ?_⟩
    · obtain ⟨done?, once, _⟩ := abandons.deeds
      have single : (contest.deedsOf id (done ++ .proceed id plan :: rest)).length ≤ 1 := by
        rw [once]
        exact Option.length_toList_le
      rw [deedsOf_split before acted, does, Option.toList_some, List.length_append,
        List.singleton_append, List.length_cons] at single
      exact List.length_eq_zero_iff.mp (by omega)
    · obtain ⟨looking, present, same⟩ := persists_of_run before found
      obtain ⟨_, written⟩ := (turn_of_act? acted).live?_of_deed present does
      have terms : next.bucket.terms = contest.bucket.terms := by
        rw [terms_of_run (run?_append ran (run?_concat before acted)), terms_of_run ran]
      have key : looking.key = member.key := congrArg Candidacy.key same
      rw [key, same] at written
      rw [live?_of_untouched goesOn untouched (Nat.le_refl _)]
      exact Bucket.live?_of_live (terms ▸ limited) positive written

def secondPlace : List Action :=
  [.perform (.create "k" []), .nominate candidacyOfFirst, .start 0 "", .proceed 0 {}, .proceed 0 {},
    .proceed 0 {}, .passTo 500_000_000]

def afterSecondPlace : Contest where
  bucket :=
    { terms := ⟨"b", 2_000_000_000⟩
      records := [("k", ⟨[], ⟨1⟩, 0⟩)]
      revision := ⟨1⟩ }
  now := 500_000_000
  members :=
    [{ candidate :=
        { candidacy := candidacyOfFirst
          task := .between (.following ⟨500_000_000, 500_000_000⟩)
          listening := true
          reports := [.lost] } }]
  calls := [⟨0, .create, 0, 0, some (0, .error (.keyExists "k")), false⟩]

/-- The look is under way when its owner lets go of the election. -/
def lettingGo : List Action := [.proceed 0 { before := 1, after := 2 }, .deafen 0]

def afterLettingGo : Contest :=
  { afterSecondPlace with
    members :=
      [{ candidate :=
          { candidacy := candidacyOfFirst
            task := .calling (.following ⟨1_000_000_000, 500_000_000⟩) 500_000_000
            reports := [.lost] }
         flight := some { plan := { before := 1, after := 2 } } }] }

/-- The key is vacant by the time the look gets there, so that a lease is taken. It runs out. -/
def lastLease : List Action :=
  [.perform (.delete "k"), .passTo 500_000_001, .proceed 0 {}, .passTo 500_000_003, .proceed 0 {},
    .proceed 0 {}, .proceed 0 {}, .proceed 0 {}, .passTo 2_500_000_003]

def afterLastLease : Contest where
  bucket :=
    { terms := ⟨"b", 2_000_000_000⟩
      records := [("k", ⟨Text.encode "a", ⟨2⟩, 500_000_003⟩)]
      revision := ⟨2⟩ }
  now := 2_500_000_003
  members :=
    [{ candidate := { candidacy := candidacyOfFirst, task := .ended, reports := [.lost] } }]
  calls :=
    [⟨0, .create, 500_000_003, 500_000_003,
        some (500_000_003, .ok ⟨"k", Text.encode "a", ⟨2⟩⟩), false⟩,
      ⟨0, .poll, 500_000_000, 500_000_003, some (500_000_001, .error (.keyNotFound "k")), false⟩,
      ⟨0, .create, 0, 0, some (0, .error (.keyExists "k")), false⟩]

theorem run_secondPlace :
    (opening ⟨"b", 2_000_000_000⟩).run? secondPlace = some afterSecondPlace := rfl

theorem run_lettingGo : afterSecondPlace.run? lettingGo = some afterLettingGo := rfl

theorem run_lastLease : afterLettingGo.run? lastLease = some afterLastLease := rfl

theorem fades_afterLastLease :
    Reachable ⟨"b", 2_000_000_000⟩ afterLettingGo ∧
      afterLettingGo.run? lastLease = some afterLastLease ∧
      afterLastLease.bucket.live? afterLastLease.now "k" = none ∧
      ∃ member, afterLettingGo.members[0]? = some member ∧ afterLettingGo.Suspended 0 member ∧
        ∃ later extra?, afterLastLease.members[0]? = some later ∧
          afterLettingGo.Fades 0 member lastLease afterLastLease later extra? :=
  have reached : Reachable ⟨"b", 2_000_000_000⟩ afterLettingGo :=
    ⟨secondPlace ++ lettingGo, run?_append run_secondPlace run_lettingGo⟩
  have suspended : afterLettingGo.Suspended 0 _ := .calling _ _ rfl
  ⟨reached, run_lastLease, rfl, _, rfl, suspended,
    fades_of_run reached rfl rfl suspended run_lastLease⟩

end Contest

end Leasehold
