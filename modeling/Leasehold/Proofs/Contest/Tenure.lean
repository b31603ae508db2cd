import Leasehold.Proofs.Contest.Turn
import Leasehold.Proofs.Election.Settled

set_option autoImplicit false

/-!
Mutual exclusion in a contest whose calls end within a bound.

Let every call on a key end at most `bound` after it began, and let every candidate for the key renew
after less than the time-to-live less twice that bound. Then as long as nobody deletes the key, no
two candidates for it lead at once, and the record of the key is live while one of them leads.

The invariant is `Contest.Tenure`. It starts before a candidate leads: whoever has written the record
by a create whose answer is still on its way already holds the lease. A holder's deadlines are tied to
its last write (`Member.Timely`), so its record cannot run out before its next write is over.
-/

namespace Leasehold

/-! ### Writes of a member -/

def Call.wroteAt? (call : Call) (landed : Option (Nat × Except StoreError Entry)) : Option Nat :=
  match call, landed with
  | .create, some (instant, .ok _) | .renew _, some (instant, .ok _) => some instant
  | _, _ => none

def CallRecord.wroteAt? (record : CallRecord) : Option Nat := record.call.wroteAt? record.landed

def Member.wroteAt? (member : Member) : Option Nat :=
  match member.candidate.task, member.flight with
  | .calling stage _, some flight => stage.call.wroteAt? flight.landed
  | _, _ => none

namespace Contest

/-- When a member last wrote the record of its key. A write counts from the instant at which it
reaches the bucket, even while its answer is on the way back. -/
def lastWrite? (contest : Contest) (id : Nat) (member : Member) : Option Nat :=
  member.wroteAt?.or
    ((contest.calls.filter (·.member = id)).findSome? CallRecord.wroteAt?)

/-- Each candidate for a key renews often enough for a bound that all calls on the key have kept so
far: those that are over and those that are under way. -/
structure Paced (contest : Contest) (key : String) (bound : Nat) : Prop where
  brisk : ∀ member ∈ contest.members, member.key = key →
    member.candidate.candidacy.renewEvery + 2 * bound < contest.bucket.terms.ttl
  finished : ∀ id member, contest.members[id]? = some member → member.key = key →
    ∀ record ∈ contest.calls, record.member = id → record.ended ≤ record.began + bound
  underWay : ∀ member ∈ contest.members, member.key = key →
    ∀ stage began, member.candidate.task = .calling stage began → contest.now ≤ began + bound

structure Swift (contest : Contest) (id bound : Nat) : Prop where
  brisk : ∀ member, contest.members[id]? = some member →
    member.candidate.candidacy.renewEvery + 2 * bound < contest.bucket.terms.ttl
  finished : ∀ record ∈ contest.calls, record.member = id → record.ended ≤ record.began + bound
  underWay : ∀ member, contest.members[id]? = some member → ∀ stage began,
    member.candidate.task = .calling stage began → contest.now ≤ began + bound

end Contest

/-! ### Holders -/

/-- A member holds the lease while it leads, and already when the create that makes it lead has
written and the answer is on its way. -/
inductive Member.Holds (member : Member) : Prop
  | waiting (held : Revision) (ticker : Ticker)
      (between : member.candidate.task = .between (.leading held ticker))
  | renewing (held : Revision) (ticker : Ticker) (began : Nat)
      (calling : member.candidate.task = .calling (.leading held ticker) began)
  | created (began : Nat) (flight : Flight) (instant : Nat) (entry : Entry)
      (calling : member.candidate.task = .calling .electing began)
      (flying : member.flight = some flight) (landed : flight.landed = some (instant, .ok entry))

inductive Member.Timely (member : Member) (now bound wrote : Nat) : Prop
  | waiting (held : Revision) (ticker : Ticker)
      (between : member.candidate.task = .between (.leading held ticker)) (past : wrote ≤ now)
      (soon : ticker.due ≤ wrote + bound + member.candidate.candidacy.renewEvery)
      (recent : now ≤ wrote + bound ∨ now ≤ ticker.due)
      (even : ticker.period = member.candidate.candidacy.renewEvery)
  | renewing (held : Revision) (ticker : Ticker) (began : Nat) (flight : Flight)
      (calling : member.candidate.task = .calling (.leading held ticker) began)
      (flying : member.flight = some flight) (fruitless : member.wroteAt? = none)
      (past : wrote ≤ began) (started : began ≤ now)
      (soon : began ≤ wrote + bound + member.candidate.candidacy.renewEvery)
      (next : ticker.due ≤ began + member.candidate.candidacy.renewEvery)
      (even : ticker.period = member.candidate.candidacy.renewEvery)
  | renewed (held : Revision) (ticker : Ticker) (began : Nat) (flight : Flight) (entry : Entry)
      (calling : member.candidate.task = .calling (.leading held ticker) began)
      (flying : member.flight = some flight) (landed : flight.landed = some (wrote, .ok entry))
      (started : began ≤ wrote) (past : wrote ≤ now)
      (next : ticker.due ≤ began + member.candidate.candidacy.renewEvery)
      (even : ticker.period = member.candidate.candidacy.renewEvery)
  | created (began : Nat) (flight : Flight) (entry : Entry)
      (calling : member.candidate.task = .calling .electing began)
      (flying : member.flight = some flight) (landed : flight.landed = some (wrote, .ok entry))
      (started : began ≤ wrote) (past : wrote ≤ now)

namespace Member

variable {member after : Member} {now bound wrote ttl : Nat}

theorem wroteAt?_of_grounded (grounded : member.flight = none) : member.wroteAt? = none := by
  unfold wroteAt?
  rw [grounded]
  cases member.candidate.task <;> rfl

theorem Leads.holds (leads : member.Leads) : member.Holds := by
  obtain ⟨held, phase⟩ := leads
  cases task : member.candidate.task with
  | unstarted | ended => simp [Candidate.stage?, task] at phase
  | between stage =>
      cases stage with
      | leading revision ticker => exact .waiting revision ticker task
      | electing | following => simp [Candidate.stage?, task, Stage.phase] at phase
  | calling stage began =>
      cases stage with
      | leading revision ticker => exact .renewing revision ticker began task
      | electing | following => simp [Candidate.stage?, task, Stage.phase] at phase

namespace Timely

theorem wrote_le_now (timely : member.Timely now bound wrote) : wrote ≤ now := by
  cases timely with
  | waiting _ _ _ past | renewed _ _ _ _ _ _ _ _ _ past | created _ _ _ _ _ _ _ past => exact past
  | renewing _ _ _ _ _ _ _ past started => omega

/-- The worst case spans two calls: the create returns late, the tick comes one period after that,
and the renewal is late again. -/
theorem now_lt (timely : member.Timely now bound wrote)
    (brisk : member.candidate.candidacy.renewEvery + 2 * bound < ttl)
    (underWay : ∀ stage began, member.candidate.task = .calling stage began →
      now ≤ began + bound) :
    now < wrote + ttl := by
  cases timely with
  | waiting _ _ _ _ soon recent => omega
  | renewing _ _ _ _ calling _ _ _ _ soon =>
      have late := underWay _ _ calling
      omega
  | renewed _ _ _ _ _ calling _ _ started =>
      have late := underWay _ _ calling
      omega
  | created _ _ _ calling _ _ started =>
      have late := underWay _ _ calling
      omega

end Timely

theorem not_holds_of_ended (ended : after.candidate.task = .ended) : ¬after.Holds := by
  intro holds
  cases holds with
  | waiting _ _ between => rw [ended] at between; cases between
  | renewing _ _ _ calling => rw [ended] at calling; cases calling
  | created _ _ _ _ calling => rw [ended] at calling; cases calling

theorem not_holds_of_joined (candidacy : Candidacy) :
    ¬Holds { candidate := { candidacy } } := by
  intro holds
  cases holds with
  | waiting _ _ task | renewing _ _ _ task | created _ _ _ _ task => cases task

theorem not_holds_of_started (member : Member) (context : String) :
    ¬Holds { member with candidate := member.candidate.start, context } := by
  intro holds
  cases holds with
  | waiting _ _ task | renewing _ _ _ task | created _ _ _ _ task => cases task

namespace Holds

variable {contest : Contest}

theorem of_same_work (holds : after.Holds)
    (task : after.candidate.task = member.candidate.task) (flight : after.flight = member.flight) :
    member.Holds := by
  cases holds with
  | waiting held ticker between => exact .waiting held ticker (task ▸ between)
  | renewing held ticker began calling => exact .renewing held ticker began (task ▸ calling)
  | created began flown instant entry calling flying landed =>
      exact .created began flown instant entry (task ▸ calling) (flight ▸ flying) landed

theorem of_called {stage following : Stage} {plan : Plan}
    (holds : Holds { member with
      candidate := { member.candidate with task := .calling following contest.now }
      flight := some { plan } })
    (between : member.candidate.task = .between stage)
    (moved : contest.moveOf member stage = .call following) : member.Holds := by
  cases holds with
  | waiting _ _ waits => cases waits
  | created _ _ _ _ _ flying landed =>
      cases flying
      cases landed
  | renewing held ticker began calling =>
      obtain ⟨leads, rfl⟩ := Task.calling.inj calling
      obtain ⟨_, _, ⟨_, stands⟩ | ⟨taken, ticking, _, same⟩⟩ := Stage.look_call moved
      · rw [leads] at stands
        cases stands
      · obtain ⟨⟨old, rfl⟩, _⟩ := Stage.leading_of_withTicker (leads.symm.trans same)
        exact .waiting held old between

/-- A holder has nothing more to wait for than its ticker once its call is answered. -/
theorem waits {stage : Stage} {answer : Except StoreError Entry}
    (holds : Holds { member with
      candidate := member.candidate.settle contest.now stage answer
      flight := none }) :
    ∃ held ticker, (member.candidate.settle contest.now stage answer).task =
      .between (.leading held ticker) := by
  have arrived (other : Stage) (since : Nat) :
      (member.candidate.settle contest.now stage answer).task ≠ .calling other since := by
    intro calls
    rcases member.candidate.task_settle contest.now stage answer with ended | ⟨_, waits⟩
    · rw [ended] at calls
      cases calls
    · rw [waits] at calls
      cases calls
  cases holds with
  | waiting held ticker between => exact ⟨held, ticker, between⟩
  | renewing _ _ _ calls => exact absurd calls (arrived _ _)
  | created _ _ _ _ calls => exact absurd calls (arrived _ _)

theorem of_answered {stage : Stage} {began landedAt : Nat} {flight : Flight}
    {answer : Except StoreError Entry}
    (holds : Holds { member with
      candidate := member.candidate.settle contest.now stage answer
      flight := none })
    (calling : member.candidate.task = .calling stage began)
    (flying : member.flight = some flight) (landed : flight.landed = some (landedAt, answer)) :
    member.Holds := by
  obtain ⟨held, ticker, between⟩ := holds.waits
  obtain ⟨⟨entry, rfl, _⟩, ⟨rfl, _⟩ | ⟨earlier, rfl⟩⟩ := Candidate.settle_leading between
  · exact .created began flight landedAt entry calling flying landed
  · exact .renewing earlier ticker began calling

end Holds

end Member

structure Contest.Tenure (contest : Contest) (key : String) (bound : Nat) : Prop where
  sole : ∀ (id other : Nat) (member rival : Member), contest.members[id]? = some member →
    contest.members[other]? = some rival → member.key = key → rival.key = key →
    member.Holds → rival.Holds → id = other
  covered : ∀ (id : Nat) (member : Member), contest.members[id]? = some member →
    member.key = key → member.Holds →
    ∃ wrote record, contest.lastWrite? id member = some wrote ∧
      member.Timely contest.now bound wrote ∧
      contest.bucket.record? key = some record ∧ wrote ≤ record.writtenAt

/-- Two members never lead for one key at once, and while a member leads, the bucket holds a live
record of the key that is not older than the member's own last write. -/
structure Contest.Exclusive (contest : Contest) (key : String) : Prop where
  unique : ∀ (id other : Nat) (member rival : Member), contest.members[id]? = some member →
    contest.members[other]? = some rival → member.key = key → rival.key = key →
    member.Leads → rival.Leads → id = other
  covered : ∀ (id : Nat) (member : Member), contest.members[id]? = some member →
    member.key = key → member.Leads →
    ∃ wrote record, contest.lastWrite? id member = some wrote ∧
      contest.bucket.live? contest.now key = some record ∧ wrote ≤ record.writtenAt

namespace Contest

variable {contest next : Contest} {action : Action} {key : String} {bound : Nat}

theorem Swift.before {id : Nat} (turn : Turn contest action next) (swift : next.Swift id bound) :
    contest.Swift id bound where
  brisk := by
    intro member found
    obtain ⟨after, foundAfter, kept, _⟩ := turn.persists found
    have brisk := swift.brisk after foundAfter
    rw [kept, turn.terms_eq] at brisk
    exact brisk
  finished := fun record past own => swift.finished record (turn.calls_subset past) own
  underWay := by
    intro member found stage began calling
    obtain ⟨after, foundAfter, _, goesOn⟩ := turn.persists found
    rcases goesOn stage began calling with still | ⟨record, past, own, since, ended⟩
    · exact Nat.le_trans turn.now_le (swift.underWay after foundAfter stage began still)
    · have late := swift.finished record past own
      rw [since, ended] at late
      exact late

/-- The pace on a key is that of each of its candidates. -/
theorem paced_iff_swift : contest.Paced key bound ↔
    ∀ (id : Nat) (member : Member), contest.members[id]? = some member → member.key = key →
      contest.Swift id bound := by
  constructor
  · intro paced id member found named
    have own (other : Member) (there : contest.members[id]? = some other) : other = member :=
      Option.some.inj (there.symm.trans found)
    refine ⟨?_, paced.finished id member found named, ?_⟩
    · intro other there
      obtain rfl := own other there
      exact paced.brisk other (List.mem_of_getElem? there) named
    · intro other there
      obtain rfl := own other there
      exact paced.underWay other (List.mem_of_getElem? there) named
  · intro swift
    refine ⟨?_, fun id member found named => (swift id member found named).finished, ?_⟩
    · intro member present named
      obtain ⟨id, found⟩ := List.mem_iff_getElem?.mp present
      exact (swift id member found named).brisk member found
    · intro member present named
      obtain ⟨id, found⟩ := List.mem_iff_getElem?.mp present
      exact (swift id member found named).underWay member found

theorem Paced.before (turn : Turn contest action next) (paced : next.Paced key bound) :
    contest.Paced key bound := by
  refine paced_iff_swift.mpr fun id member found named => ?_
  obtain ⟨after, foundAfter, kept, _⟩ := turn.persists found
  have namedAfter : after.key = key := (congrArg Candidacy.key kept).trans named
  exact (paced_iff_swift.mp paced id after foundAfter namedAfter).before turn

/-! ### The record of a holder is live -/

theorem Swift.now_lt {id wrote : Nat} {member : Member} (swift : contest.Swift id bound)
    (found : contest.members[id]? = some member)
    (timely : member.Timely contest.now bound wrote) :
    contest.now < wrote + contest.bucket.terms.ttl :=
  timely.now_lt (swift.brisk member found) (swift.underWay member found)

theorem live?_of_recent {wrote : Nat} {record : Record}
    (held : contest.bucket.record? key = some record) (later : wrote ≤ record.writtenAt)
    (past : wrote ≤ contest.now) (early : contest.now < wrote + contest.bucket.terms.ttl) :
    contest.bucket.live? contest.now key = some record := by
  have limited : contest.bucket.terms.ttl? = some contest.bucket.terms.ttl := by
    unfold BucketTerms.ttl?
    rw [if_neg (by omega)]
  refine Bucket.live?_eq_some_iff.mpr ⟨held, ?_⟩
  rw [Bucket.expired_eq_false_iff limited]
  omega

theorem Tenure.live {id : Nat} {member : Member} (tenure : contest.Tenure key bound)
    (paced : contest.Paced key bound) (found : contest.members[id]? = some member)
    (named : member.key = key) (holds : member.Holds) :
    ∃ wrote record, contest.lastWrite? id member = some wrote ∧
      member.Timely contest.now bound wrote ∧
      contest.bucket.live? contest.now key = some record ∧ wrote ≤ record.writtenAt := by
  obtain ⟨wrote, record, last, timely, held, later⟩ := tenure.covered id member found named holds
  have swift := paced_iff_swift.mp paced id member found named
  exact ⟨wrote, record, last, timely,
    live?_of_recent held later timely.wrote_le_now (swift.now_lt found timely), later⟩

/-! ### Turns without a successful write of a member -/

/-- A member that holds the lease after a turn held it before, last wrote when it had, and is still
in time. -/
def Sustains (contest next : Contest) (key : String) (bound id : Nat) (member after : Member) :
    Prop :=
  after.key = key → after.Holds → member.key = key ∧ member.Holds ∧
    ∀ wrote, contest.lastWrite? id member = some wrote → member.Timely contest.now bound wrote →
      next.lastWrite? id after = some wrote ∧ after.Timely next.now bound wrote

def Keeps (contest next : Contest) (key : String) : Prop :=
  ∀ record, contest.bucket.live? contest.now key = some record →
    ∃ later, next.bucket.record? key = some later ∧
      (later = record ∨ later.writtenAt = contest.now)

/-- What a holder is about does not depend on who listens to it or asks it to stop. -/
theorem sustains_of_same_work {id : Nat} {member after : Member}
    (task : after.candidate.task = member.candidate.task)
    (candidacy : after.candidate.candidacy = member.candidate.candidacy)
    (flight : after.flight = member.flight)
    (calls : next.calls.filter (·.member = id) = contest.calls.filter (·.member = id))
    (clock : next.now = contest.now) : contest.Sustains next key bound id member after := by
  intro named holds
  have writing : after.wroteAt? = member.wroteAt? := by
    unfold Member.wroteAt?
    rw [task, flight]
  have wasNamed : member.key = key := by
    unfold Member.key at named ⊢
    rw [← candidacy]
    exact named
  refine ⟨wasNamed, holds.of_same_work task flight, ?_⟩
  intro wrote last timely
  rw [clock]
  constructor
  · unfold lastWrite? at last ⊢
    rw [writing, calls]
    exact last
  · cases timely with
    | waiting held ticker between past soon recent even =>
        exact .waiting held ticker (task.trans between) past (candidacy ▸ soon) recent
          (candidacy ▸ even)
    | renewing held ticker began flown calling flying fruitless past started soon due even =>
        exact .renewing held ticker began flown (task.trans calling) (flight.trans flying)
          (writing.trans fruitless) past started (candidacy ▸ soon) (candidacy ▸ due)
          (candidacy ▸ even)
    | renewed held ticker began flown entry calling flying landed started past due even =>
        exact .renewed held ticker began flown entry (task.trans calling) (flight.trans flying)
          landed started past (candidacy ▸ due) (candidacy ▸ even)
    | created began flown entry calling flying landed started past =>
        exact .created began flown entry (task.trans calling) (flight.trans flying) landed started
          past

theorem Tenure.carry (tenure : contest.Tenure key bound) (paced : contest.Paced key bound)
    (carried : ∀ (id : Nat) (after : Member), next.members[id]? = some after → after.Holds →
      ∃ member, contest.members[id]? = some member ∧
        contest.Sustains next key bound id member after)
    (kept : contest.Keeps next key) : next.Tenure key bound where
  sole := by
    intro id other after rival found foundRival named namedRival holds holdsRival
    obtain ⟨member, was, sustains⟩ := carried id after found holds
    obtain ⟨enemy, wasRival, sustainsRival⟩ := carried other rival foundRival holdsRival
    obtain ⟨wasNamed, held, _⟩ := sustains named holds
    obtain ⟨wasNamedRival, heldRival, _⟩ := sustainsRival namedRival holdsRival
    exact tenure.sole id other member enemy was wasRival wasNamed wasNamedRival held heldRival
  covered := by
    intro id after found named holds
    obtain ⟨member, was, sustains⟩ := carried id after found holds
    obtain ⟨wasNamed, held, goesOn⟩ := sustains named holds
    obtain ⟨wrote, record, last, timely, live, later⟩ := tenure.live paced was wasNamed held
    obtain ⟨lastAfter, timelyAfter⟩ := goesOn wrote last timely
    obtain ⟨left, present, same | fresh⟩ := kept record live
    · exact ⟨wrote, left, lastAfter, timelyAfter, present, same ▸ later⟩
    · exact ⟨wrote, left, lastAfter, timelyAfter, present, fresh ▸ timely.wrote_le_now⟩

theorem Tenure.replace (tenure : contest.Tenure key bound) (paced : contest.Paced key bound)
    {id : Nat} {member after : Member} (found : contest.members[id]? = some member)
    (members : next.members = contest.members.set id after) (clock : next.now = contest.now)
    (calls : ∀ other, other ≠ id →
      next.calls.filter (·.member = other) = contest.calls.filter (·.member = other))
    (own : contest.Sustains next key bound id member after) (kept : contest.Keeps next key) :
    next.Tenure key bound := by
  refine tenure.carry paced ?_ kept
  intro other rival foundRival holds
  rw [members] at foundRival
  rcases found_in_set foundRival with ⟨rfl, rfl⟩ | ⟨apart, was⟩
  · exact ⟨member, found, own⟩
  · exact ⟨rival, was, sustains_of_same_work rfl rfl rfl (calls other apart) clock⟩

/-- A successful write of the only holder makes it a holder from that instant on. -/
theorem Tenure.write {id : Nat} {after : Member} {record : Record}
    (members : next.members = contest.members.set id after)
    (alone : ∀ other rival, contest.members[other]? = some rival → rival.key = key →
      rival.Holds → other = id)
    (wrote : after.wroteAt? = some next.now) (timely : after.Timely next.now bound next.now)
    (held : next.bucket.record? key = some record) (fresh : record.writtenAt = next.now) :
    next.Tenure key bound := by
  have only : ∀ other rival, next.members[other]? = some rival → rival.key = key → rival.Holds →
      other = id ∧ rival = after := by
    intro other rival found named holds
    rw [members] at found
    rcases found_in_set found with both | ⟨apart, was⟩
    · exact both
    · exact absurd (alone other rival was named holds) apart
  constructor
  · intro other third rival enemy found foundEnemy named namedEnemy holds holdsEnemy
    rw [(only other rival found named holds).1, (only third enemy foundEnemy namedEnemy holdsEnemy).1]
  · intro other rival found named holds
    obtain ⟨rfl, rfl⟩ := only other rival found named holds
    refine ⟨next.now, record, ?_, timely, held, Nat.le_of_eq fresh.symm⟩
    simp only [lastWrite?, wrote, Option.some_or]

theorem sustains_of_idle {id : Nat} {member after : Member} (idle : ¬after.Holds) :
    contest.Sustains next key bound id member after := by
  intro _ holds
  exact absurd holds idle

theorem keeps_of_performed (fault : Option StoreError) {operation : Operation}
    {reply : Except StoreError Reply} {bucket : Bucket}
    (performed : (contest.bucket.struckBy fault).Performed contest.now operation reply bucket)
    (safe : operation ≠ .delete key) (left : next.bucket = bucket) : contest.Keeps next key := by
  intro record live
  rw [left]
  rw [← contest.bucket.live?_struckBy fault] at live
  rcases performed.record?_of_live live safe with same | ⟨value, _, _, updated⟩
  · exact ⟨record, same, Or.inl rfl⟩
  · exact ⟨_, updated, Or.inr rfl⟩

theorem keeps_of_same (bucket : next.bucket.records = contest.bucket.records) :
    contest.Keeps next key := by
  intro record live
  refine ⟨record, ?_, Or.inl rfl⟩
  unfold Bucket.record?
  rw [bucket]
  exact (Bucket.live?_eq_some_iff.mp live).1

/-! ### The turns of one member -/

variable {member after : Member} {id : Nat}

/-- The tick of a holder comes in time for its next write. -/
theorem sustains_of_called {stage following : Stage} {plan : Plan}
    (between : member.candidate.task = .between stage)
    (moved : contest.moveOf member stage = .call following)
    (changed : after = { member with
      candidate := { member.candidate with task := .calling following contest.now }
      flight := some { plan } }) :
    contest.Sustains (contest.put id after) key bound id member after := by
  intro named holds
  have idle : member.wroteAt? = none := by
    unfold Member.wroteAt?
    rw [between]
  subst changed
  have aloft : Member.wroteAt? { member with
      candidate := { member.candidate with task := .calling following contest.now }
      flight := some { plan } } = none := by
    simp only [Member.wroteAt?]
    cases following <;> rfl
  refine ⟨named, holds.of_called between moved, ?_⟩
  intro wrote last timely
  constructor
  · unfold lastWrite? at last ⊢
    rw [idle] at last
    rw [aloft]
    exact last
  · cases timely with
    | renewing _ _ _ _ calls | renewed _ _ _ _ _ calls | created _ _ _ calls =>
        rw [between] at calls
        cases calls
    | waiting held old waits past soon recent even =>
        obtain rfl := Task.between.inj (between.symm.trans waits)
        obtain ⟨_, _, ⟨never, _⟩ | ⟨_, ticking, due, rfl⟩⟩ := Stage.look_call moved
        · cases never
        cases ticking
        have inTime : contest.now ≤ wrote + bound + member.candidate.candidacy.renewEvery := by
          omega
        have next : (old.take contest.now).due ≤
            contest.now + member.candidate.candidacy.renewEvery := by
          simp only [Ticker.take, even]
          split <;> omega
        exact .renewing held _ contest.now { plan } rfl rfl aloft past (Nat.le_refl _) inTime next
          even

/-- The deadline of a holder whose write is answered: the answer came within the bound. -/
theorem timely_of_answered {stage : Stage} {began wrote : Nat}
    {answer : Except StoreError Entry} {held : Revision} {ticker : Ticker}
    (calling : member.candidate.task = .calling stage began)
    (between : (member.candidate.settle contest.now stage answer).task =
      .between (.leading held ticker))
    (written : member.wroteAt? = some wrote) (prompt : contest.now ≤ began + bound)
    (timely : member.Timely contest.now bound wrote) :
    Member.Timely { member with
      candidate := member.candidate.settle contest.now stage answer
      flight := none } contest.now bound wrote := by
  have terms : (member.candidate.settle contest.now stage answer).candidacy =
      member.candidate.candidacy := Candidate.candidacy_settle _ _ _ _
  obtain ⟨_, origin⟩ := Candidate.settle_leading between
  cases timely with
  | waiting _ _ waits =>
      rw [calling] at waits
      cases waits
  | renewing _ _ _ _ _ _ fruitless =>
      rw [written] at fruitless
      cases fruitless
  | renewed _ old since _ _ calling' _ _ started past due even =>
      obtain ⟨rfl, rfl⟩ := Task.calling.inj (calling.symm.trans calling')
      rcases origin with ⟨stands, _⟩ | ⟨earlier, leads⟩
      · cases stands
      obtain ⟨_, rfl⟩ := Stage.leading.inj leads
      have recent : contest.now ≤ wrote + bound := by omega
      apply Member.Timely.waiting held old between past ?_ (Or.inl recent) (terms ▸ even)
      rw [terms]
      omega
  | created since _ _ calling' _ _ started past =>
      obtain ⟨rfl, rfl⟩ := Task.calling.inj (calling.symm.trans calling')
      rcases origin with ⟨_, rfl⟩ | ⟨earlier, leads⟩
      · have recent : contest.now ≤ wrote + bound := by omega
        apply Member.Timely.waiting held _ between past ?_ (Or.inl recent) (terms ▸ rfl)
        rw [terms]
        simp only [Ticker.after]
        omega
      · cases leads

theorem sustains_of_answered {stage : Stage} {began landedAt : Nat} {flight : Flight}
    {answer : Except StoreError Entry}
    (prompt : member.key = key → contest.now ≤ began + bound)
    (calling : member.candidate.task = .calling stage began)
    (flying : member.flight = some flight) (landed : flight.landed = some (landedAt, answer))
    (changed : after = { member with
      candidate := member.candidate.settle contest.now stage answer
      flight := none })
    (calls : next.calls =
      ⟨id, stage.call, began, contest.now, some (landedAt, answer), false⟩ :: contest.calls)
    (clock : next.now = contest.now) : contest.Sustains next key bound id member after := by
  intro named holds
  subst changed
  have wasNamed : member.key = key := by
    simpa only [Member.key, Candidate.candidacy_settle] using named
  refine ⟨wasNamed, holds.of_answered calling flying landed, ?_⟩
  obtain ⟨held, ticker, between⟩ := holds.waits
  obtain ⟨⟨entry, rfl, _⟩, origin⟩ := Candidate.settle_leading between
  have writes : stage.call.wroteAt? (some (landedAt, .ok entry)) = some landedAt := by
    rcases origin with ⟨rfl, _⟩ | ⟨earlier, rfl⟩ <;> rfl
  have written : member.wroteAt? = some landedAt := by
    simp only [Member.wroteAt?, calling, flying, landed, writes]
  have recorded : CallRecord.wroteAt?
      ⟨id, stage.call, began, contest.now, some (landedAt, .ok entry), false⟩ =
        some landedAt := writes
  intro wrote last timely
  have same : landedAt = wrote := by
    simpa only [lastWrite?, written, Option.some_or, Option.some.injEq] using last
  subst same
  rw [clock]
  constructor
  · rw [lastWrite?, Member.wroteAt?_of_grounded rfl, calls]
    simp only [List.filter_cons, decide_true, if_true, List.findSome?_cons, recorded,
      Option.none_or]
  · exact timely_of_answered calling between written (prompt wasNamed) timely

/-- A call of a holder that wrote nothing leaves its deadlines as they are. -/
theorem sustains_of_fruitless {stage : Stage} {began : Nat} {flight flown : Flight}
    (calling : member.candidate.task = .calling stage began)
    (flying : member.flight = some flight) (aloft : flight.landed = none)
    (failed : ∀ instant entry, flown.landed ≠ some (instant, .ok entry))
    (changed : after = { member with flight := some flown })
    (calls : next.calls = contest.calls) (clock : next.now = contest.now) :
    contest.Sustains next key bound id member after := by
  intro named holds
  subst changed
  have before : member.wroteAt? = none := by
    simp only [Member.wroteAt?, calling, flying, aloft]
    cases stage <;> rfl
  have behind : Member.wroteAt? { member with flight := some flown } = none := by
    simp only [Member.wroteAt?, calling]
    unfold Call.wroteAt?
    split
    · rename_i landed
      exact absurd landed (failed _ _)
    · rename_i landed
      exact absurd landed (failed _ _)
    · rfl
  cases holds with
  | waiting _ _ waits =>
      rw [calling] at waits
      cases waits
  | created _ _ instant entry _ flying' landed =>
      cases flying'
      exact absurd landed (failed instant entry)
  | renewing held ticker since calls' =>
      refine ⟨named, .renewing held ticker since calls', ?_⟩
      intro wrote last timely
      rw [clock]
      constructor
      · unfold lastWrite? at last ⊢
        rw [before] at last
        rw [behind, calls]
        exact last
      · cases timely with
        | waiting _ _ waits =>
            rw [calling] at waits
            cases waits
        | renewing held ticker since _ calls' _ _ past started soon due even =>
            exact .renewing held ticker since flown calls' rfl behind past started soon due even
        | renewed _ _ _ _ _ _ flying' landed | created _ _ _ _ flying' landed =>
            rw [flying] at flying'
            cases flying'
            rw [aloft] at landed
            cases landed

theorem ok_of_map_seen {candidacy : Candidacy} {reply : Except StoreError Reply} {entry : Entry}
    (answer : reply.map candidacy.seen = .ok entry) : ∃ answered, reply = .ok answered := by
  cases reply with
  | error cause => cases answer
  | ok answered => exact ⟨answered, rfl⟩

/-- A create succeeds only where nothing is live, so while nobody holds the lease. -/
theorem Tenure.created (tenure : contest.Tenure key bound) (paced : contest.Paced key bound)
    {began : Nat} {flight : Flight} {entry : Entry} {answered : Reply} {bucket : Bucket}
    (calling : member.candidate.task = .calling .electing began) (started : began ≤ contest.now)
    (performed : (contest.bucket.struckBy flight.plan.fault).Performed contest.now
      (.create key member.candidate.candidacy.candidate.bytes) (.ok answered) bucket) :
    Tenure { contest.put id { member with
        flight := some { flight with landed := some (contest.now, .ok entry) } }
      with bucket } key bound := by
  obtain ⟨vacant, _, written⟩ := performed.of_created
  rw [Bucket.live?_struckBy] at vacant
  refine Tenure.write rfl ?_ ?_ ?_ written rfl
  · intro other rival foundRival namedRival holds
    obtain ⟨_, _, _, _, live, _⟩ := tenure.live paced foundRival namedRival holds
    rw [vacant] at live
    cases live
  · simp only [Member.wroteAt?, calling]
    rfl
  · exact .created began _ entry calling rfl rfl started (Nat.le_refl _)

/-- A renewal that reaches the bucket sets new deadlines. -/
theorem timely_of_renewed {held : Revision} {ticker : Ticker} {began wrote : Nat} {flight : Flight}
    (calling : member.candidate.task = .calling (.leading held ticker) began)
    (flying : member.flight = some flight) (aloft : flight.landed = none)
    (started : began ≤ contest.now) (entry : Entry)
    (timely : member.Timely contest.now bound wrote) :
    Member.Timely { member with
      flight := some { flight with landed := some (contest.now, .ok entry) } }
      contest.now bound contest.now := by
  cases timely with
  | waiting _ _ waits =>
      rw [calling] at waits
      cases waits
  | created _ _ _ calls =>
      rw [calling] at calls
      cases calls
  | renewed _ _ _ _ _ _ flown landed =>
      rw [flying] at flown
      cases flown
      rw [aloft] at landed
      cases landed
  -- The flight was still aloft, so the deadlines are those of a renewal under way.
  | renewing _ _ _ _ calls _ _ _ _ _ due even =>
      obtain ⟨leads, rfl⟩ := Task.calling.inj (calling.symm.trans calls)
      obtain ⟨rfl, rfl⟩ := Stage.leading.inj leads
      exact .renewed held ticker began _ entry calling rfl rfl started (Nat.le_refl _) due even

/-- Only the holder renews, and it goes on from the instant of the renewal. -/
theorem Tenure.renewed (tenure : contest.Tenure key bound) (paced : contest.Paced key bound)
    {held : Revision} {ticker : Ticker} {began : Nat} {flight : Flight} {entry : Entry}
    {answered : Reply} {bucket : Bucket} (found : contest.members[id]? = some member)
    (named : member.key = key)
    (calling : member.candidate.task = .calling (.leading held ticker) began)
    (flying : member.flight = some flight) (aloft : flight.landed = none)
    (started : began ≤ contest.now)
    (performed : (contest.bucket.struckBy flight.plan.fault).Performed contest.now
      (.update key member.candidate.candidacy.candidate.bytes held) (.ok answered) bucket) :
    Tenure { contest.put id { member with
        flight := some { flight with landed := some (contest.now, .ok entry) } }
      with bucket } key bound := by
  obtain ⟨_, _, written⟩ := performed.of_updated
  have holder : member.Holds := .renewing held ticker began calling
  obtain ⟨_, _, _, timely, _, _⟩ := tenure.live paced found named holder
  refine Tenure.write rfl ?_ ?_ ?_ written rfl
  · intro other rival foundRival namedRival holds
    exact tenure.sole other id rival member foundRival found namedRival named holds holder
  · simp only [Member.wroteAt?, calling]
    rfl
  · exact timely_of_renewed calling flying aloft started entry timely

theorem Tenure.landed (tenure : contest.Tenure key bound) (paced : contest.Paced key bound)
    {stage : Stage} {began : Nat} {flight : Flight} {reply : Except StoreError Reply}
    {bucket : Bucket} (found : contest.members[id]? = some member)
    (calling : member.candidate.task = .calling stage began)
    (flying : member.flight = some flight) (aloft : flight.landed = none)
    (started : began ≤ contest.now)
    (performed : (contest.bucket.struckBy flight.plan.fault).Performed contest.now
      (stage.call.operation member.candidate.candidacy) reply bucket) :
    Tenure { contest.put id { member with
        flight := some { flight with
          landed := some (contest.now, reply.map member.candidate.candidacy.seen) } }
      with bucket } key bound := by
  have safe := Call.operation_ne_delete stage.call member.candidate.candidacy key
  have kept := @keeps_of_performed contest { contest with bucket } key _ _ _ _ performed safe rfl
  have quietly {after : Member} (own : contest.Sustains { contest.put id after with bucket } key bound
      id member after) : Tenure { contest.put id after with bucket } key bound :=
    tenure.replace paced found rfl rfl (fun _ _ => rfl) own kept
  by_cases named : member.key = key
  · subst key
    cases reply with
    | error cause =>
        apply quietly
        refine sustains_of_fruitless calling flying aloft ?_ rfl rfl rfl
        intro instant entry landed
        cases landed
    | ok answered =>
        cases stage with
        | electing => exact tenure.created paced calling started performed
        | leading held ticker =>
            exact tenure.renewed paced found rfl calling flying aloft started performed
        | following ticker =>
            apply quietly
            apply sustains_of_idle
            intro holds
            cases holds with
            | waiting _ _ calls | renewing _ _ _ calls | created _ _ _ _ calls =>
                have task := calling.symm.trans calls
                cases task
  · apply quietly
    intro same
    exact absurd same named

/-- Time stops at the tick of a holder. -/
theorem timely_of_passed {instant wrote : Nat} (later : contest.now ≤ instant)
    (awake : contest.wakeAt?.all (instant ≤ ·) = true)
    (found : contest.members[id]? = some member)
    (timely : member.Timely contest.now bound wrote) : member.Timely instant bound wrote := by
  cases timely with
  | waiting held ticker between past soon recent even =>
      have wakes : member.wakeAt? = some ticker.due := by
        simp only [Member.wakeAt?, between]
        rfl
      exact .waiting held ticker between (Nat.le_trans past later) soon
        (Or.inr (le_of_awake awake found wakes)) even
  | renewing held ticker began flight calling flying fruitless past started soon due even =>
      exact .renewing held ticker began flight calling flying fruitless past
        (Nat.le_trans started later) soon due even
  | renewed held ticker began flight entry calling flying landed started past due even =>
      exact .renewed held ticker began flight entry calling flying landed started
        (Nat.le_trans past later) due even
  | created began flight entry calling flying landed started past =>
      exact .created began flight entry calling flying landed started (Nat.le_trans past later)

/-! ### All turns and all runs -/

theorem Tenure.turn (tenure : contest.Tenure key bound) (paced : contest.Paced key bound)
    (safe : action ≠ .perform (.delete key)) (turn : Turn contest action next) :
    next.Tenure key bound := by
  cases turn with
  | joined candidacy accepted =>
      refine tenure.carry paced ?_ (keeps_of_same rfl)
      intro id after found holds
      rcases found_in_concat found with was | rfl
      · exact ⟨after, was, sustains_of_same_work rfl rfl rfl rfl rfl⟩
      · exact absurd holds (Member.not_holds_of_joined candidacy)
  | started id context member found fresh =>
      exact tenure.replace paced found rfl rfl (fun _ _ => rfl)
        (sustains_of_idle (member.not_holds_of_started context)) (keeps_of_same rfl)
  | ignored => exact tenure
  | stopped id member found | deafened id member found =>
      exact tenure.replace paced found rfl rfl (fun _ _ => rfl)
        (sustains_of_same_work rfl rfl rfl rfl rfl) (keeps_of_same rfl)
  | cancelled context => exact ⟨tenure.sole, tenure.covered⟩
  | performed operation reply bucket performed =>
      have kept : contest.Keeps { contest with bucket } key :=
        keeps_of_performed none performed (fun same => safe (same ▸ rfl)) rfl
      refine tenure.carry paced ?_ kept
      intro id after found _
      exact ⟨after, found, sustains_of_same_work rfl rfl rfl rfl rfl⟩
  | injected failure => exact ⟨tenure.sole, tenure.covered⟩
  | called id plan member stage following found between moved =>
      exact tenure.replace paced found rfl rfl (fun _ _ => rfl)
        (sustains_of_called between moved rfl) (keeps_of_same rfl)
  | quit id plan member stage outcome found between moved =>
      exact tenure.replace paced found rfl rfl (fun _ _ => rfl)
        (sustains_of_idle (Member.not_holds_of_ended rfl)) (keeps_of_same rfl)
  | abandoned id plan member stage found between moved =>
      exact tenure.replace paced found rfl rfl (fun _ _ => rfl)
        (sustains_of_idle (Member.not_holds_of_ended rfl)) (keeps_of_same rfl)
  | landed id plan member stage began flight reply bucket found calling flying aloft arrived
      performed =>
      have started := began_le_of_arrived aloft arrived
      exact tenure.landed paced found calling flying aloft started performed
  | answered id plan member stage began flight landedAt answer found calling flying landed =>
      have prompt (named : member.key = key) : contest.now ≤ began + bound :=
        paced.underWay member (List.mem_of_getElem? found) named stage began calling
      exact tenure.replace paced found rfl rfl (fun _ apart => filter_calls_of_ne rfl apart)
        (sustains_of_answered prompt calling flying landed rfl rfl rfl) (keeps_of_same rfl)
  | cutOff id plan member stage began flight limit found calling flying =>
      refine tenure.replace paced found rfl rfl (fun _ apart => filter_calls_of_ne rfl apart) ?_
        (keeps_of_same rfl)
      apply sustains_of_idle
      apply Member.not_holds_of_ended
      simp only [Candidate.settle_timeout, Candidate.task_finish]
  | passed instant quiet later awake =>
      refine tenure.carry paced ?_ (keeps_of_same rfl)
      intro id after found _
      refine ⟨after, found, ?_⟩
      intro named holds
      refine ⟨named, holds, ?_⟩
      intro wrote last timely
      exact ⟨last, timely_of_passed later awake found timely⟩

theorem tenure_opening (terms : BucketTerms) : (opening terms).Tenure key bound where
  sole := by
    intro id other member rival found
    cases found
  covered := by
    intro id member found
    cases found

theorem tenure_of_run {terms : BucketTerms} (actions : List Action) (contest : Contest)
    (run : (opening terms).run? actions = some contest)
    (undeleted : .perform (.delete key) ∉ actions) (paced : contest.Paced key bound) :
    contest.Tenure key bound := by
  refine run_induction (motive := fun actions contest => .perform (.delete key) ∉ actions →
    contest.Paced key bound → contest.Tenure key bound) ?_ ?_ actions contest run undeleted paced
  · intro _ _
    exact tenure_opening terms
  · intro actions contest action next _ ih turn undeleted paced
    -- The pace of the last state covers all earlier calls, so the run so far has kept it too.
    have pacedBefore := paced.before turn
    have tenure := ih (fun present => undeleted (List.mem_append_left _ present)) pacedBefore
    refine tenure.turn pacedBefore ?_ turn
    rintro rfl
    exact undeleted (List.mem_append_right _ List.mem_cons_self)

/-- Candidates for one key exclude each other in every run in which nobody deletes the key and all
keep their pace. Third parties may create and update the record, failures may strike any call, and
anybody may stop, leave or be cut off at any time. -/
theorem exclusive_of_run {terms : BucketTerms} {actions : List Action} {contest : Contest}
    {key : String} {bound : Nat} (run : (opening terms).run? actions = some contest)
    (undeleted : .perform (.delete key) ∉ actions) (paced : contest.Paced key bound) :
    contest.Exclusive key := by
  have tenure := tenure_of_run actions contest run undeleted paced
  constructor
  · intro id other member rival found foundRival named namedRival leads leadsRival
    exact tenure.sole id other member rival found foundRival named namedRival leads.holds
      leadsRival.holds
  · intro id member found named leads
    obtain ⟨wrote, record, last, _, live, later⟩ := tenure.live paced found named leads.holds
    exact ⟨wrote, record, last, live, later⟩

/-- The create of the first candidate reaches the bucket after 40 ms and its answer comes back 60 ms
later. In between the second candidate has lost. -/
def lateCreate : List Action :=
  let candidacy (name : String) : Candidacy :=
    { key := "k", candidate := ⟨name⟩, renewEveryMs := 1500, pollEveryMs := 500 }
  [.nominate (candidacy "a"), .nominate (candidacy "b"), .start 0 "", .start 1 "",
    .proceed 0 { before := 40_000_000, after := 60_000_000 }, .proceed 1 { before := 50_000_000 },
    .passTo 40_000_000, .proceed 0 {}, .passTo 50_000_000, .proceed 1 {}, .proceed 1 {},
    .passTo 100_000_000, .proceed 0 {}]

def afterLateCreate : Contest where
  bucket :=
    { terms := ⟨"b", 2_000_000_000⟩
      records := [("k", ⟨Text.encode "a", ⟨1⟩, 40_000_000⟩)]
      revision := ⟨1⟩ }
  now := 100_000_000
  members :=
    [{ candidate :=
        { candidacy := { key := "k", candidate := ⟨"a"⟩, renewEveryMs := 1500, pollEveryMs := 500 }
          task := .between (.leading ⟨1⟩ ⟨1_600_000_000, 1_500_000_000⟩)
          listening := true
          reports := [.won] } },
      { candidate :=
        { candidacy := { key := "k", candidate := ⟨"b"⟩, renewEveryMs := 1500, pollEveryMs := 500 }
          task := .between (.following ⟨550_000_000, 500_000_000⟩)
          listening := true
          reports := [.lost] } }]
  calls :=
    [⟨0, .create, 0, 100_000_000, some (40_000_000, .ok ⟨"k", Text.encode "a", ⟨1⟩⟩), false⟩,
      ⟨1, .create, 0, 50_000_000, some (50_000_000, .error (.keyExists "k")), false⟩]

theorem run_lateCreate :
    (opening ⟨"b", 2_000_000_000⟩).run? lateCreate = some afterLateCreate := rfl

theorem paced_afterLateCreate : afterLateCreate.Paced "k" 100_000_000 := by
  constructor <;> simp [afterLateCreate, Candidacy.renewEvery, Duration.ofMillis]

theorem exclusive_afterLateCreate :
    (opening ⟨"b", 2_000_000_000⟩).run? lateCreate = some afterLateCreate ∧
      .perform (.delete "k") ∉ lateCreate ∧ afterLateCreate.Paced "k" 100_000_000 ∧
      afterLateCreate.Exclusive "k" :=
  ⟨run_lateCreate, by decide, paced_afterLateCreate,
    exclusive_of_run run_lateCreate (by decide) paced_afterLateCreate⟩

end Contest

end Leasehold
