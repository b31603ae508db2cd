import Leasehold.Proofs.Contest.Chronicle
import Leasehold.Proofs.Contest.MemberStep
import Leasehold.Proofs.Contest.Stamp

set_option autoImplicit false

/-!
Incumbency: a leader whose own calls end in time never loses its lease.

Nothing is asked of the other members. Their calls may be of any age, so one of them may still believe
that it leads and renew. What keeps it from the record of the incumbent is the revision under which
it does so: no two members go by the same one (`Contest.Marked`). Only the last value of the counter
is given out more than once, and a foreign renewal under that value leaves the record with the very
revision that the incumbent goes by.
-/

namespace Leasehold

/-! ### Revisions of different members -/

namespace Contest

/-- Revisions that members bear have been given out, and to one member each, except for the last. -/
structure Marked (contest : Contest) : Prop where
  counted : ∀ (id : Nat) (member : Member), contest.members[id]? = some member → ∀ held,
    member.Bears held → held.toNat ≤ contest.bucket.revision.toNat
  apart : ∀ (id other : Nat) (member rival : Member), contest.members[id]? = some member →
    contest.members[other]? = some rival → id ≠ other → ∀ held, member.Bears held →
    rival.Bears held → held.toNat = Revision.last

variable {contest next : Contest} {action : Action} {key : String} {id bound : Nat}
  {member after : Member}

/-- A member comes to bear a revision only by a write of its own, and then it is the next one. -/
theorem MemberStep.bears (step : MemberStep contest id member action next after) (held : Revision)
    (bears : after.Bears held) :
    member.Bears held ∨ held = contest.bucket.revision.next ∧ next.bucket.revision = held ∧
      ∃ plan, action = .proceed id plan := by
  cases step with
  | kept _ _ _ _ task _ _ flight => exact Or.inl (bears_of_same_work task flight held bears)
  | started context fresh =>
      cases bears with
      | leading _ _ never => cases never
      | landed _ _ _ _ _ never => cases never
  | called plan stage following between moved =>
      exact Or.inl (bears_of_called between moved held bears)
  | left plan _ extra stage between ended => exact absurd bears (not_bears_of_ended ended)
  | answered plan stage began flight landedAt answer calling flying landed =>
      exact Or.inl (bears_of_answered calling flying landed held bears)
  | cutOff => exact absurd bears (not_bears_of_ended rfl)
  | passed => exact Or.inl bears
  | landed plan stage began flight reply bucket found calling flying aloft arrived performed =>
      cases bears with
      | leading held ticker current => exact Or.inl (.leading held ticker current)
      | landed called since flown instant entry calls flies landed writes =>
          obtain ⟨rfl, rfl⟩ := Task.calling.inj (calling.symm.trans calls)
          cases flies
          have answer : reply.map member.candidate.candidacy.seen = .ok entry :=
            (Prod.mk.inj (Option.some.inj landed)).2
          obtain ⟨answered, rfl⟩ := ok_of_map_seen answer
          have counter := contest.bucket.revision_struckBy flight.plan.fault
          have written : answered = .written contest.bucket.revision.next ∧
              answered = .written bucket.revision := by
            cases stage with
            | electing =>
                obtain ⟨_, next, _⟩ := performed.of_created
                exact ⟨counter ▸ next, performed.answered_written rfl (by decide)⟩
            | leading held ticker =>
                obtain ⟨_, next, _⟩ := performed.of_updated
                exact ⟨counter ▸ next, performed.answered_written rfl (by decide)⟩
            | following ticker => exact absurd rfl writes
          obtain ⟨rfl, same⟩ := written
          obtain rfl := Except.ok.inj answer
          exact Or.inr ⟨rfl, (Reply.written.inj same).symm, plan, rfl⟩

theorem Marked.turn (marked : contest.Marked) (turn : Turn contest action next) :
    next.Marked := by
  have origin {id : Nat} {after : Member} (found : next.members[id]? = some after)
      {held : Revision} (bears : after.Bears held) :
      (∃ member, contest.members[id]? = some member ∧ member.Bears held) ∨
        held = contest.bucket.revision.next ∧ next.bucket.revision = held ∧
          ∃ plan, action = .proceed id plan := by
    rcases turn.member_cases found with ⟨candidacy, _, rfl⟩ | ⟨member, was, step⟩
    · cases bears with
      | leading _ _ never => cases never
      | landed _ _ _ _ _ never => cases never
    · rcases step.bears held bears with old | new
      · exact Or.inl ⟨member, was, old⟩
      · exact Or.inr new
  -- A revision that is given out anew and was there before is the last one.
  have last {id : Nat} {member : Member} (was : contest.members[id]? = some member)
      {held : Revision} (bears : member.Bears held) (new : held = contest.bucket.revision.next) :
      held.toNat = Revision.last := by
    have old := marked.counted id member was held bears
    have bound := contest.bucket.revision.toNat_le_last
    rw [new, Revision.toNat_next] at old ⊢
    omega
  constructor
  · intro id after found held bears
    rcases origin found bears with ⟨member, was, old⟩ | ⟨_, given, _⟩
    · exact Nat.le_trans (marked.counted id member was held old) turn.revision_le
    · rw [given]
  · intro id other after rival found foundRival distinct held bears bearsRival
    rcases origin found bears with ⟨member, was, old⟩ | ⟨new, _, plan, own⟩ <;>
      rcases origin foundRival bearsRival with ⟨enemy, wasRival, oldRival⟩ | ⟨newRival, _, other, ownRival⟩
    · exact marked.apart id other member enemy was wasRival distinct held old oldRival
    · exact last was old newRival
    · exact last wasRival oldRival new
    · rw [own] at ownRival
      exact absurd (Action.proceed.inj ownRival).1 distinct

theorem marked_of_run {terms : BucketTerms} {actions : List Action}
    (run : (opening terms).run? actions = some contest) : contest.Marked := by
  refine run_induction (motive := fun _ contest => contest.Marked) ?_ ?_ actions contest run
  · constructor
    · intro id member never
      cases never
    · intro id other member rival never
      cases never
  · intro _ _ _ _ _ marked turn
    exact marked.turn turn

/-! ### What others make of a record -/

/-- While a member bears the revision of a live record, nobody else gives the record another one. -/
theorem Marked.revision_kept (marked : contest.Marked) (turn : Turn contest action next)
    (spares : action.Spares key) {record : Record}
    (live : contest.bucket.live? contest.now key = some record)
    (found : contest.members[id]? = some member) (bears : member.Bears record.revision)
    (elsewhere : ∀ plan, action ≠ .proceed id plan) :
    ∃ later, next.bucket.record? key = some later ∧ later.revision = record.revision ∧
      (later = record ∨ later.writtenAt = contest.now) := by
  rcases turn.record_cases spares live with
    same | ⟨other, plan, rival, ticker, began, own, foundRival, _, calling, renewed⟩
  · exact ⟨record, same, rfl, Or.inl rfl⟩
  have bearsRival : rival.Bears record.revision :=
    .leading _ ticker (Candidate.stage?_of_calling calling)
  have distinct : id ≠ other := by
    rintro rfl
    exact elsewhere plan own
  -- Both bear it, so it is the last revision, and the counter gives out the same again.
  have last := marked.apart id other member rival found foundRival distinct _ bears bearsRival
  have counted := marked.counted id member found _ bears
  have bound := contest.bucket.revision.toNat_le_last
  have again : contest.bucket.revision.next = record.revision := by
    refine Revision.toNat_inj.mp ?_
    rw [Revision.toNat_next]
    omega
  exact ⟨_, renewed, again, Or.inr rfl⟩

end Contest

/-! ### The seat of a holder -/

inductive Member.Current (member : Member) : Revision → Prop
  | waiting (held : Revision) (ticker : Ticker)
      (between : member.candidate.task = .between (.leading held ticker)) : member.Current held
  | renewing (held : Revision) (ticker : Ticker) (began : Nat) (flight : Flight)
      (calling : member.candidate.task = .calling (.leading held ticker) began)
      (flying : member.flight = some flight) (aloft : flight.landed = none) : member.Current held
  | written (stage : Stage) (began : Nat) (flight : Flight) (instant : Nat) (entry : Entry)
      (calling : member.candidate.task = .calling stage began)
      (flying : member.flight = some flight) (landed : flight.landed = some (instant, .ok entry))
      (writes : stage.call ≠ .poll) : member.Current entry.revision

namespace Member.Current

variable {contest : Contest} {member after : Member} {held : Revision}

theorem bears (current : member.Current held) : member.Bears held := by
  cases current with
  | waiting _ ticker between => exact .leading held ticker (Candidate.stage?_of_between between)
  | renewing _ ticker began flight calling =>
      exact .leading held ticker (Candidate.stage?_of_calling calling)
  | written stage began flight instant entry calling flying landed writes =>
      exact .landed stage began flight instant entry calling flying landed writes

theorem of_same_work (current : member.Current held)
    (task : after.candidate.task = member.candidate.task) (flight : after.flight = member.flight) :
    after.Current held := by
  cases current with
  | waiting _ ticker between => exact .waiting held ticker (task.trans between)
  | renewing _ ticker began flown calling flying aloft =>
      exact .renewing held ticker began flown (task.trans calling) (flight.trans flying) aloft
  | written stage began flown instant entry calling flying landed writes =>
      exact .written stage began flown instant entry (task.trans calling) (flight.trans flying)
        landed writes

theorem called {stage following : Stage} {plan : Plan} (current : member.Current held)
    (between : member.candidate.task = .between stage)
    (moved : contest.moveOf member stage = .call following) :
    Current { member with
      candidate := { member.candidate with task := .calling following contest.now }
      flight := some { plan } } held := by
  cases current with
  | renewing _ _ _ _ calls | written _ _ _ _ _ calls =>
      rw [between] at calls
      cases calls
  | waiting _ ticker waits =>
      obtain rfl := Task.between.inj (between.symm.trans waits)
      obtain ⟨_, _, ⟨never, _⟩ | ⟨_, _, _, rfl⟩⟩ := Stage.look_call moved
      · cases never
      · exact .renewing held _ contest.now { plan } rfl rfl rfl

/-- The call of a holder that has reached the bucket has written. -/
theorem ok_of_landed {stage : Stage} {began landedAt : Nat} {flight : Flight}
    {answer : Except StoreError Entry} (current : member.Current held)
    (calling : member.candidate.task = .calling stage began)
    (flying : member.flight = some flight) (landed : flight.landed = some (landedAt, answer)) :
    ∃ entry, answer = .ok entry ∧ entry.revision = held := by
  cases current with
  | waiting _ _ waits =>
      rw [calling] at waits
      cases waits
  | renewing _ _ _ _ _ flies aloft =>
      obtain rfl := Option.some.inj (flying.symm.trans flies)
      rw [landed] at aloft
      cases aloft
  | written _ _ _ _ entry _ flies arrival =>
      obtain rfl := Option.some.inj (flying.symm.trans flies)
      obtain ⟨_, rfl⟩ := Prod.mk.inj (Option.some.inj (landed.symm.trans arrival))
      exact ⟨entry, rfl, rfl⟩

theorem eq_of_between {expected : Revision} {ticker : Ticker} (current : member.Current held)
    (between : member.candidate.task = .between (.leading expected ticker)) : held = expected := by
  cases current with
  | waiting _ _ waits =>
      exact (Stage.leading.inj (Task.between.inj (waits.symm.trans between))).1
  | renewing _ _ _ _ calls | written _ _ _ _ _ calls =>
      rw [between] at calls
      cases calls

/-- As long as a renewal is on its way, the record has the revision that it goes by. -/
theorem eq_of_aloft {expected : Revision} {ticker : Ticker} {began : Nat} {flight : Flight}
    (current : member.Current held)
    (calling : member.candidate.task = .calling (.leading expected ticker) began)
    (flying : member.flight = some flight) (aloft : flight.landed = none) : held = expected := by
  cases current with
  | waiting _ _ waits =>
      rw [calling] at waits
      cases waits
  | renewing _ _ _ _ calls =>
      obtain ⟨leads, _⟩ := Task.calling.inj (calls.symm.trans calling)
      exact (Stage.leading.inj leads).1
  | written _ _ _ _ _ _ flies landed =>
      obtain rfl := Option.some.inj (flying.symm.trans flies)
      rw [aloft] at landed
      cases landed

end Member.Current

namespace Contest

variable {contest next : Contest} {action : Action} {key : String} {id bound : Nat}
  {member after : Member}

def Sits (contest : Contest) (id bound : Nat) (member : Member) : Prop :=
  ∃ wrote record, contest.lastWrite? id member = some wrote ∧
    member.Timely contest.now bound wrote ∧
    contest.bucket.record? member.key = some record ∧ wrote ≤ record.writtenAt ∧
    member.Current record.revision

theorem Sits.live (sits : contest.Sits id bound member) (swift : contest.Swift id bound)
    (found : contest.members[id]? = some member) :
    ∃ wrote record, contest.lastWrite? id member = some wrote ∧
      member.Timely contest.now bound wrote ∧
      contest.bucket.live? contest.now member.key = some record ∧ wrote ≤ record.writtenAt ∧
      member.Current record.revision := by
  obtain ⟨wrote, record, last, timely, held, later, current⟩ := sits
  exact ⟨wrote, record, last, timely,
    live?_of_recent held later timely.wrote_le_now (swift.now_lt found timely), later, current⟩

theorem Sits.carry (sits : contest.Sits id bound member) (swift : contest.Swift id bound)
    (found : contest.members[id]? = some member) (holds : after.Holds) (named : after.key = member.key)
    (sustains : contest.Sustains next member.key bound id member after)
    (kept : ∀ record, contest.bucket.live? contest.now member.key = some record →
      member.Current record.revision → ∃ later, next.bucket.record? member.key = some later ∧
        (later = record ∨ later.writtenAt = contest.now) ∧ after.Current later.revision) :
    next.Sits id bound after := by
  obtain ⟨wrote, record, last, timely, live, later, current⟩ := sits.live swift found
  obtain ⟨_, _, goesOn⟩ := sustains named holds
  obtain ⟨lastAfter, timelyAfter⟩ := goesOn wrote last timely
  obtain ⟨left, present, same | fresh, currentAfter⟩ := kept record live current
  · exact ⟨wrote, left, lastAfter, timelyAfter, named ▸ present, same ▸ later, currentAfter⟩
  · exact ⟨wrote, left, lastAfter, timelyAfter, named ▸ present, fresh ▸ timely.wrote_le_now,
      currentAfter⟩

/-- The renewal of a holder goes through, unless a failure strikes it. -/
theorem Sits.renews {held : Revision} {ticker : Ticker} {began : Nat} {flight : Flight}
    {reply : Except StoreError Reply} {bucket : Bucket} (sits : contest.Sits id bound member)
    (swift : contest.Swift id bound) (found : contest.members[id]? = some member)
    (calling : member.candidate.task = .calling (.leading held ticker) began)
    (flying : member.flight = some flight) (aloft : flight.landed = none)
    (calm : (contest.bucket.struckBy flight.plan.fault).injected = none)
    (performed : (contest.bucket.struckBy flight.plan.fault).Performed contest.now
      (.update member.key member.stamp held) reply bucket) :
    ∃ answered, reply = .ok answered := by
  obtain ⟨_, record, _, _, live, _, current⟩ := sits.live swift found
  rw [← contest.bucket.live?_struckBy flight.plan.fault] at live
  have same := current.eq_of_aloft calling flying aloft
  cases performed with
  | struck _ failure waiting =>
      rw [calm] at waiting
      cases waiting
  | updated => exact ⟨_, rfl⟩
  | stale _ _ _ other _ found moved =>
      obtain rfl := Option.some.inj (live.symm.trans found)
      exact absurd same moved
  | gone _ _ _ _ vacant =>
      rw [live] at vacant
      cases vacant

/-- A call of a holder that reaches the bucket renews its record, or writes it in the first place. -/
theorem sits_of_landed {stage : Stage} {began : Nat} {flight : Flight}
    {reply : Except StoreError Reply} {bucket : Bucket}
    (sits : member.Holds → contest.Sits id bound member) (swift : contest.Swift id bound)
    (found : contest.members[id]? = some member)
    (calling : member.candidate.task = .calling stage began)
    (flying : member.flight = some flight) (aloft : flight.landed = none)
    (started : began ≤ contest.now)
    (calm : (contest.bucket.struckBy flight.plan.fault).injected = none)
    (performed : (contest.bucket.struckBy flight.plan.fault).Performed contest.now
      (stage.call.operation member.candidate.candidacy) reply bucket)
    (holds : Member.Holds { member with
      flight := some { flight with
        landed := some (contest.now, reply.map member.candidate.candidacy.seen) } }) :
    Sits { contest.put id { member with
        flight := some { flight with
          landed := some (contest.now, reply.map member.candidate.candidacy.seen) } }
      with bucket } id bound { member with
        flight := some { flight with
          landed := some (contest.now, reply.map member.candidate.candidacy.seen) } } := by
  cases stage with
  | following ticker =>
      cases holds with
      | waiting _ _ calls | renewing _ _ _ calls | created _ _ _ _ calls =>
          have task := calling.symm.trans calls
          cases task
  | electing =>
      cases holds with
      | waiting _ _ calls | renewing _ _ _ calls =>
          have task := calling.symm.trans calls
          cases task
      | created since flown instant entry calls flies landed =>
          cases flies
          obtain ⟨answered, rfl⟩ := ok_of_map_seen (Prod.mk.inj (Option.some.inj landed)).2
          obtain ⟨_, rfl, written⟩ := performed.of_created
          refine ⟨contest.now, _, ?_, ?_, written, Nat.le_refl _, ?_⟩
          · simp only [lastWrite?, Member.wroteAt?, calling]
            rfl
          · exact .created began _ _ calling rfl rfl started (Nat.le_refl _)
          · exact .written .electing began _ contest.now
              (member.candidate.candidacy.seen (.written _)) calling rfl rfl
              (fun never => by cases never)
  | leading held ticker =>
      have seat := sits (.renewing held ticker began calling)
      obtain ⟨answered, rfl⟩ := seat.renews swift found calling flying aloft calm performed
      obtain ⟨_, rfl, written⟩ := performed.of_updated
      obtain ⟨wrote, _, _, timely, _⟩ := seat
      refine ⟨contest.now, _, ?_, ?_, written, Nat.le_refl _, ?_⟩
      · simp only [lastWrite?, Member.wroteAt?, calling]
        rfl
      · exact timely_of_renewed calling flying aloft started _ timely
      · exact .written (.leading held ticker) began _ contest.now
          (member.candidate.candidacy.seen (.written _)) calling rfl rfl
          (fun never => by cases never)

theorem MemberStep.sits (step : MemberStep contest id member action next after)
    (turn : Turn contest action next) (found : contest.members[id]? = some member)
    (marked : contest.Marked) (swift : contest.Swift id bound) (spares : action.Spares member.key)
    (unstruck : ∀ plan, action = .proceed id plan → contest.Unstruck id)
    (sits : member.Holds → contest.Sits id bound member) (holds : after.Holds) :
    next.Sits id bound after := by
  have present {record : Record}
      (live : contest.bucket.live? contest.now member.key = some record) :
      contest.bucket.record? member.key = some record := (Bucket.live?_eq_some_iff.mp live).1
  cases step with
  | kept _ _ _ elsewhere task terms reports flight clock calls =>
      refine (sits (holds.of_same_work task flight)).carry swift found holds
        (congrArg Candidacy.key terms) (sustains_of_same_work task terms flight calls clock) ?_
      intro record live current
      obtain ⟨later, there, same, fresh⟩ :=
        marked.revision_kept turn spares live found current.bears elsewhere
      exact ⟨later, there, fresh, same ▸ current.of_same_work task flight⟩
  | started context fresh => exact absurd holds (member.not_holds_of_started context)
  | called plan stage following between moved =>
      refine (sits (holds.of_called between moved)).carry swift found holds rfl
        (sustains_of_called between moved rfl) ?_
      intro record live current
      exact ⟨record, present live, Or.inl rfl, current.called between moved⟩
  | left plan _ extra stage between ended => exact absurd holds (Member.not_holds_of_ended ended)
  | landed plan stage began flight reply bucket there calling flying aloft arrived performed =>
      have started := began_le_of_arrived aloft arrived
      have calm := (unstruck plan rfl).calm found calling flying aloft arrived
      exact sits_of_landed sits swift found calling flying aloft started calm performed holds
  | answered plan stage began flight landedAt answer calling flying landed =>
      have prompt (_ : member.key = member.key) : contest.now ≤ began + bound :=
        swift.underWay member found stage began calling
      refine (sits (holds.of_answered calling flying landed)).carry swift found holds
        (congrArg Candidacy.key (Candidate.candidacy_settle _ _ _ _))
        (sustains_of_answered prompt calling flying landed rfl rfl rfl) ?_
      intro record live current
      obtain ⟨held, ticker, between⟩ := holds.waits
      obtain ⟨entry, rfl, same⟩ := current.ok_of_landed calling flying landed
      obtain ⟨⟨_, answer, rfl⟩, _⟩ := Candidate.settle_leading between
      obtain rfl := Except.ok.inj answer
      exact ⟨record, present live, Or.inl rfl, same ▸ .waiting _ ticker between⟩
  | cutOff => exact absurd holds (Member.not_holds_of_ended rfl)
  | passed instant quiet later awake =>
      refine (sits holds).carry swift found holds rfl ?_ ?_
      · intro named _
        refine ⟨named, holds, ?_⟩
        intro wrote last timely
        exact ⟨last, timely_of_passed later awake found timely⟩
      · intro record live current
        exact ⟨record, present live, Or.inl rfl, current⟩

/-! ### Undisturbed runs -/

/-- Nobody from outside deletes or updates the key, and no failure strikes a call of the member. -/
structure Undisturbed (first : Contest) (key : String) (id : Nat) (actions : List Action) : Prop where
  spared : ∀ action ∈ actions, action.Spares key
  unharmed : first.Unharmed id actions

variable {first : Contest} {actions done rest : List Action} {terms : BucketTerms}

theorem Undisturbed.before (undisturbed : first.Undisturbed key id (done ++ rest)) :
    first.Undisturbed key id done where
  spared := fun action present => undisturbed.spared action (List.mem_append_left _ present)
  unharmed := undisturbed.unharmed.before

theorem Undisturbed.last (undisturbed : first.Undisturbed key id (done ++ [action])) :
    action.Spares key :=
  undisturbed.spared action (List.mem_append_right _ List.mem_cons_self)

theorem Undisturbed.unstruck (undisturbed : first.Undisturbed key id (done ++ [action]))
    (run : first.run? done = some contest) (plan : Plan) (own : action = .proceed id plan) :
    contest.Unstruck id := by
  subst own
  exact undisturbed.unharmed.unstruck run

theorem sits_of_run (run : (opening terms).run? actions = some contest)
    (found : contest.members[id]? = some member)
    (undisturbed : (opening terms).Undisturbed member.key id actions)
    (swift : contest.Swift id bound) (holds : member.Holds) : contest.Sits id bound member := by
  refine run_induction (motive := fun actions contest => ∀ member,
    contest.members[id]? = some member → (opening terms).Undisturbed member.key id actions →
      contest.Swift id bound → member.Holds → contest.Sits id bound member) ?_ ?_ actions contest
    run member found undisturbed swift holds
  · intro member never
    cases never
  · intro actions contest action next ran ih turn after found undisturbed swift holds
    rcases turn.member_cases found with ⟨candidacy, _, rfl⟩ | ⟨member, was, step⟩
    · exact absurd holds (Member.not_holds_of_joined candidacy)
    · have named : after.key = member.key := congrArg Candidacy.key step.candidacy_eq
      have swiftBefore := swift.before turn
      rw [named] at undisturbed
      exact step.sits turn was (marked_of_run ran) swiftBefore undisturbed.last
        (undisturbed.unstruck ran) (ih member was undisturbed.before swiftBefore) holds

end Contest

/-! ### What an incumbent reports -/

/-- Leadership that is gained is not lost any more. -/
def Outcome.Unbroken (reports : List Outcome) : Prop :=
  reports.Pairwise fun earlier later => earlier = .won → later ≠ .lost

theorem Outcome.Unbroken.extend {reports extra : List Outcome} (unbroken : Unbroken reports)
    (within : Unbroken extra) (safe : .won ∈ reports → .lost ∉ extra) :
    Unbroken (reports ++ extra) := by
  refine List.pairwise_append.mpr ⟨unbroken, within, ?_⟩
  rintro earlier past later new rfl rfl
  exact safe past new

/-- How an election ends takes nothing from what it was. -/
theorem Outcome.Unbroken.close {reports extra : List Outcome} (unbroken : Unbroken reports)
    (terminal : ∀ outcome ∈ extra, outcome.isTerminal = true) : Unbroken (reports ++ extra) := by
  refine unbroken.extend (List.pairwise_of_forall_mem_list ?_) ?_
  · rintro earlier present later _ rfl
    cases terminal _ present
  · intro _ lost
    cases terminal _ lost

namespace Candidate

variable {candidate : Candidate} {now : Nat} {stage : Stage} {answer : Except StoreError Entry}

/-- A victory that has been reported is that of a leader, or the election is over. -/
def Elected (candidate : Candidate) : Prop :=
  .won ∈ candidate.reports → candidate.task = .ended ∨
    ∃ held ticker, candidate.stage? = some (.leading held ticker)

theorem unbroken_of_finish {outcome : Outcome} (unbroken : Outcome.Unbroken candidate.reports)
    (terminal : outcome.isTerminal = true) :
    Outcome.Unbroken (candidate.finish outcome).reports := by
  rw [reports_finish]
  refine unbroken.close ?_
  intro other sent
  split at sent
  · rw [List.mem_singleton.mp sent]
    exact terminal
  · cases sent

/-- Where every renewal succeeds, no victory is followed by a defeat. -/
theorem unbroken_of_settle (elected : candidate.Elected)
    (unbroken : Outcome.Unbroken candidate.reports) (current : candidate.stage? = some stage)
    (renews : ∀ held ticker, stage = .leading held ticker → ∃ entry, answer = .ok entry) :
    (candidate.settle now stage answer).Elected ∧
      Outcome.Unbroken (candidate.settle now stage answer).reports := by
  have leads (won : .won ∈ candidate.reports) : ∃ held ticker, stage = .leading held ticker := by
    rcases elected won with ended | ⟨held, ticker, same⟩
    · simp only [stage?, ended] at current
      cases current
    · exact ⟨held, ticker, Option.some.inj (current.symm.trans same)⟩
  have settled := candidate.settled now stage answer
  generalize candidate.settle now stage answer = after at settled ⊢
  cases settled with
  | silent phase enters =>
      refine ⟨?_, unbroken⟩
      intro won
      obtain ⟨held, ticker, rfl⟩ := leads won
      obtain ⟨entry, rfl⟩ := renews held ticker rfl
      cases enters
      exact Or.inr ⟨_, _, rfl⟩
  | told phase outcome enters heard =>
      have fresh : .won ∉ candidate.reports := by
        intro won
        obtain ⟨held, ticker, rfl⟩ := leads won
        obtain ⟨entry, rfl⟩ := renews held ticker rfl
        cases enters
      refine ⟨?_, unbroken.extend (List.pairwise_singleton _ _) (fun won => absurd won fresh)⟩
      intro won
      rcases List.mem_append.mp won with old | new
      · exact absurd old fresh
      · obtain rfl := List.mem_singleton.mp new
        obtain ⟨held, rfl⟩ := Stage.transition_won enters
        cases stage with
        | electing | leading | following => exact Or.inr ⟨_, _, rfl⟩
  | unheard phase outcome enters deaf => exact ⟨fun _ => Or.inl rfl, unbroken⟩
  | ended outcome ends =>
      obtain ⟨cause, _, rfl⟩ := Stage.transition_finish ends
      exact ⟨fun _ => Or.inl rfl, unbroken_of_finish unbroken rfl⟩

end Candidate

namespace Contest

variable {contest next : Contest} {action : Action} {id bound : Nat} {member after : Member}

/-- From its first victory on a member has not reported a defeat, and every renewal of its lease
that was answered succeeded. -/
structure Incumbent (contest : Contest) (id : Nat) (member : Member) : Prop where
  unbroken : Outcome.Unbroken member.candidate.reports
  renewed : ∀ record ∈ contest.calls, record.member = id → ∀ held, record.call = .renew held →
    record.cutOff = false → ∃ instant entry, record.landed = some (instant, .ok entry)

theorem Incumbent.carry (incumbent : contest.Incumbent id member)
    (calls : next.calls.filter (·.member = id) = contest.calls.filter (·.member = id))
    (unbroken : Outcome.Unbroken after.candidate.reports) : next.Incumbent id after where
  unbroken := unbroken
  renewed := by
    intro record past own
    have listed : record ∈ next.calls.filter (·.member = id) :=
      List.mem_filter.mpr ⟨past, decide_eq_true own⟩
    rw [calls] at listed
    exact incumbent.renewed record (List.mem_filter.mp listed).1 own

theorem MemberStep.incumbent (step : MemberStep contest id member action next after)
    (current : member.Holds → ∃ held, member.Current held)
    (elected : member.candidate.Elected) (incumbent : contest.Incumbent id member) :
    after.candidate.Elected ∧ next.Incumbent id after := by
  cases step with
  | kept _ _ _ elsewhere task terms reports flight clock calls =>
      refine ⟨?_, incumbent.carry calls (reports ▸ incumbent.unbroken)⟩
      intro won
      rw [reports] at won
      unfold Candidate.stage?
      rw [task]
      exact elected won
  | started context fresh =>
      refine ⟨?_, incumbent.carry rfl incumbent.unbroken⟩
      intro won
      rcases elected won with ended | ⟨_, _, stands⟩
      · rw [fresh] at ended
        cases ended
      · simp only [Candidate.stage?, fresh] at stands
        cases stands
  | called plan stage following between moved =>
      refine ⟨?_, incumbent.carry rfl incumbent.unbroken⟩
      intro won
      rcases elected won with ended | ⟨held, ticker, leads⟩
      · rw [between] at ended
        cases ended
      · obtain rfl := Option.some.inj ((Candidate.stage?_of_between between).symm.trans leads)
        obtain ⟨_, _, ⟨never, _⟩ | ⟨_, _, _, rfl⟩⟩ := Stage.look_call moved
        · cases never
        · exact Or.inr ⟨held, _, rfl⟩
  | left plan _ extra stage between ended grounded terms reports terminal =>
      refine ⟨fun _ => Or.inl ended, incumbent.carry rfl ?_⟩
      rw [reports]
      exact incumbent.unbroken.close terminal
  | landed => exact ⟨elected, incumbent.carry rfl incumbent.unbroken⟩
  | answered plan stage began flight landedAt answer calling flying landed =>
      have renews (held : Revision) (ticker : Ticker) (leads : stage = .leading held ticker) :
          ∃ entry, answer = .ok entry := by
        subst leads
        obtain ⟨_, current⟩ := current (.renewing held ticker began calling)
        obtain ⟨entry, ok, _⟩ := current.ok_of_landed calling flying landed
        exact ⟨entry, ok⟩
      obtain ⟨electedAfter, unbroken⟩ := Candidate.unbroken_of_settle elected incumbent.unbroken
        (Candidate.stage?_of_calling calling) renews
      refine ⟨electedAfter, unbroken, ?_⟩
      intro record past own held renewal answered
      rcases List.mem_cons.mp past with rfl | earlier
      · cases stage with
        | electing | following => cases renewal
        | leading expected ticker =>
            obtain ⟨entry, rfl⟩ := renews expected ticker rfl
            exact ⟨landedAt, entry, rfl⟩
      · exact incumbent.renewed record earlier own held renewal answered
  | cutOff plan stage began flight cause calling =>
      refine ⟨fun _ => Or.inl rfl, Candidate.unbroken_of_finish incumbent.unbroken rfl, ?_⟩
      intro record past own held renewal answered
      rcases List.mem_cons.mp past with rfl | earlier
      · cases answered
      · exact incumbent.renewed record earlier own held renewal answered
  | passed => exact ⟨elected, incumbent.unbroken, incumbent.renewed⟩

variable {terms : BucketTerms} {actions : List Action}

/-- Only a member that is there already ends a call. -/
theorem Turn.caller (turn : Turn contest action next)
    (callers : ∀ record ∈ contest.calls, (contest.members[record.member]?).isSome = true)
    (record : CallRecord) (past : record ∈ next.calls) :
    (contest.members[record.member]?).isSome = true := by
  cases turn with
  | answered id _ member _ _ _ _ _ found | cutOff id _ member _ _ _ _ found =>
      rcases List.mem_cons.mp past with rfl | earlier
      · exact Option.isSome_iff_exists.mpr ⟨member, found⟩
      · exact callers record earlier
  | _ => exact callers record past

theorem caller_of_run (run : (opening terms).run? actions = some contest) :
    ∀ record ∈ contest.calls, (contest.members[record.member]?).isSome = true := by
  refine run_induction (motive := fun _ contest => ∀ record ∈ contest.calls,
    (contest.members[record.member]?).isSome = true) ?_ ?_ actions contest run
  · intro record never
    cases never
  · intro _ contest action next _ callers turn record past
    obtain ⟨member, found⟩ := Option.isSome_iff_exists.mp (turn.caller callers record past)
    obtain ⟨after, foundAfter, _⟩ := turn.persists found
    exact Option.isSome_iff_exists.mpr ⟨after, foundAfter⟩

theorem incumbent_of_run (run : (opening terms).run? actions = some contest)
    (found : contest.members[id]? = some member)
    (undisturbed : (opening terms).Undisturbed member.key id actions)
    (swift : contest.Swift id bound) : contest.Incumbent id member := by
  suffices both : member.candidate.Elected ∧ contest.Incumbent id member from both.2
  refine run_induction (motive := fun actions contest => ∀ member,
    contest.members[id]? = some member → (opening terms).Undisturbed member.key id actions →
      contest.Swift id bound → member.candidate.Elected ∧ contest.Incumbent id member) ?_ ?_ actions
    contest run member found undisturbed swift
  · intro member never
    cases never
  · intro actions contest action next ran ih turn after found undisturbed swift
    rcases turn.member_cases found with ⟨candidacy, ⟨fresh, _⟩, rfl⟩ | ⟨member, was, step⟩
    · refine ⟨?_, ⟨List.Pairwise.nil, ?_⟩⟩
      · intro never
        cases never
      · intro record past own
        have there := turn.caller (caller_of_run ran) record past
        rw [own, fresh] at there
        cases there
    · have named : after.key = member.key := congrArg Candidacy.key step.candidacy_eq
      have swiftBefore := swift.before turn
      rw [named] at undisturbed
      obtain ⟨elected, incumbent⟩ := ih member was undisturbed.before swiftBefore
      refine step.incumbent ?_ elected incumbent
      intro holds
      obtain ⟨_, record, _, _, _, _, current⟩ :=
        sits_of_run ran was undisturbed.before swiftBefore holds
      exact ⟨record.revision, current⟩

end Contest

/-! ### Accepted members whose calls are not delayed -/

theorem Candidacy.renewEvery_lt_of_accept {candidacy : Candidacy} {terms : BucketTerms}
    (accepted : candidacy.accept terms = .ok ()) : candidacy.renewEvery < terms.ttl := by
  have limited : terms.ttl? = some terms.ttl :=
    if_neg (Nat.ne_of_gt (candidacy.ttl_pos_of_accept accepted))
  refine Nat.lt_of_not_le fun slow => ?_
  simp only [accept, limited, validate] at accepted
  cases objected : candidacy.objection? terms.ttl with
  | some reason =>
      rw [objected] at accepted
      cases accepted
  | none =>
      -- Whatever comes before it in the list of objections, too slow a renewal is one.
      simp only [objection?, if_pos slow] at objected
      split at objected
      · cases objected
      split at objected
      · cases objected
      split at objected <;> cases objected

namespace Contest

variable {contest : Contest} {id : Nat} {member : Member} {terms : BucketTerms}
  {actions : List Action}

theorem accepted_of_run (run : (opening terms).run? actions = some contest)
    (found : contest.members[id]? = some member) :
    member.candidate.candidacy.accept contest.bucket.terms = .ok () := by
  refine run_induction (motive := fun _ contest => ∀ member, contest.members[id]? = some member →
    member.candidate.candidacy.accept contest.bucket.terms = .ok ()) ?_ ?_ actions contest run
    member found
  · intro member never
    cases never
  · intro _ contest action next _ ih turn after found
    rw [turn.terms_eq]
    rcases turn.member_cases found with ⟨candidacy, ⟨_, accepted⟩, rfl⟩ | ⟨member, was, step⟩
    · exact accepted
    · rw [step.candidacy_eq]
      exact ih member was

theorem prompt_of_finished (run : (opening terms).run? actions = some contest)
    (undelayed : Undelayed id actions) :
    ∀ record ∈ contest.calls, record.member = id → record.ended = record.began := by
  refine run_induction (motive := fun actions contest => Undelayed id actions →
    ∀ record ∈ contest.calls, record.member = id → record.ended = record.began) ?_ ?_ actions contest
    run undelayed
  · intro _ record never
    cases never
  · intro actions contest action next ran ih turn undelayed record past own
    have earlier := ih undelayed.before record
    cases turn with
    | answered other _ member stage began flight _ _ found calling
    | cutOff other _ member stage began flight _ found calling =>
        rcases List.mem_cons.mp past with rfl | old
        · subst own
          exact (prompt_of_run ran undelayed.before found stage began calling).1.symm
        · exact earlier old own
    | _ => exact earlier past own

/-- Calls that are not delayed keep every bound, and accepted candidates renew within the
time-to-live. -/
theorem swift_of_undelayed (run : (opening terms).run? actions = some contest)
    (undelayed : Undelayed id actions) : contest.Swift id 0 where
  brisk := by
    intro member found
    rw [Nat.mul_zero, Nat.add_zero]
    exact Candidacy.renewEvery_lt_of_accept (accepted_of_run run found)
  finished := fun record past own => Nat.le_of_eq (prompt_of_finished run undelayed record past own)
  underWay := by
    intro member found stage began calling
    exact Nat.le_of_eq (prompt_of_run run undelayed found stage began calling).1.symm

end Contest

end Leasehold
