import Leasehold.Proofs.Contest.Incumbency

set_option autoImplicit false

/-!
Cadence: a leader whose calls are not delayed renews on the beat of its accession.

The ticker of a leader starts when it begins to lead and lasts as long as it leads. Since no call
takes time, every tick is taken at the instant at which it is due, and so the next one is due exactly
one interval later (`Member.Beats`). The revision of the record then counts the beats, as long as no
other key takes a revision from the counter.
-/

namespace Leasehold

/-! ### The calls that a member has begun -/

def Member.underWay? (member : Member) : Option (Call × Nat) :=
  match member.candidate.task with
  | .calling stage began => some (stage.call, began)
  | _ => none

namespace Contest

/-- The calls that a member has begun, each with its instant, the earliest first. -/
def issued (contest : Contest) (id : Nat) (member : Member) : List (Call × Nat) :=
  ((contest.calls.filter (·.member = id)).map fun record => (record.call, record.began)).reverse ++
    member.underWay?.toList

variable {contest next : Contest} {action : Action} {id : Nat} {member after : Member}

theorem issued_of_same (calls : next.calls.filter (·.member = id) =
      contest.calls.filter (·.member = id))
    (underWay : after.underWay? = member.underWay?) :
    next.issued id after = contest.issued id member := by
  unfold issued
  rw [calls, underWay]

/-- A call that ends was issued when it began. -/
theorem issued_of_over {stage : Stage} {record : CallRecord}
    (calling : member.candidate.task = .calling stage record.began) (own : record.member = id)
    (call : record.call = stage.call) (calls : next.calls = record :: contest.calls)
    (idle : after.underWay? = none) : next.issued id after = contest.issued id member := by
  have going : member.underWay? = some (stage.call, record.began) := by
    simp only [Member.underWay?, calling]
  have listed : (record :: contest.calls).filter (·.member = id) =
      record :: contest.calls.filter (·.member = id) :=
    List.filter_cons_of_pos (decide_eq_true own)
  simp only [issued, calls, listed, idle, going, List.map_cons, List.reverse_cons, call,
    Option.toList_none, Option.toList_some, List.append_nil]

theorem issued_of_called {stage following : Stage} {plan : Plan}
    (between : member.candidate.task = .between stage)
    (changed : after = { member with
      candidate := { member.candidate with task := .calling following contest.now }
      flight := some { plan } }) :
    (contest.put id after).issued id after =
      contest.issued id member ++ [(following.call, contest.now)] := by
  subst changed
  simp only [issued, Member.underWay?, between, Option.toList_none, List.append_nil,
    Option.toList_some, put]

theorem underWay?_of_settle {stage : Stage} {answer : Except StoreError Entry} {now : Nat} :
    Member.underWay? { member with
      candidate := member.candidate.settle now stage answer
      flight := none } = none := by
  unfold Member.underWay?
  rcases member.candidate.task_settle now stage answer with ended | ⟨waiting, waits⟩
  · simp only [ended]
  · simp only [waits]

/-- Only a call that begins is issued. -/
theorem MemberStep.issued (step : MemberStep contest id member action next after)
    (idle : ∀ stage following, member.candidate.task = .between stage →
      after.candidate.task ≠ .calling following contest.now) :
    next.issued id after = contest.issued id member := by
  cases step with
  | kept _ _ _ elsewhere task terms reports flight clock calls =>
      refine issued_of_same calls ?_
      unfold Member.underWay?
      rw [task]
  | started context fresh =>
      refine issued_of_same rfl ?_
      simp only [Member.underWay?, fresh, Candidate.start]
  | called plan stage following between moved =>
      exact absurd rfl (idle stage following between)
  | left plan _ extra stage between ended =>
      refine issued_of_same rfl ?_
      simp only [Member.underWay?, between, ended]
  | landed | passed => exact issued_of_same rfl rfl
  | answered plan stage began flight landedAt answer calling =>
      exact issued_of_over calling rfl rfl rfl underWay?_of_settle
  | cutOff plan stage began flight cause calling =>
      exact issued_of_over calling rfl rfl rfl rfl

end Contest

/-! ### The beat -/

theorem Ticker.take_due (ticker : Ticker) :
    ticker.take ticker.due = ⟨ticker.due + ticker.period, ticker.period⟩ :=
  congrArg (Ticker.mk · ticker.period) ticker.due_take_of_eq

/-- A leader since `start` that has issued `count` renewals, each at its beat. -/
inductive Member.Beats (member : Member) (now start count : Nat) : Prop
  | waiting (held : Revision)
      (between : member.candidate.task = .between (.leading held
        ⟨start + (count + 1) * member.candidate.candidacy.renewEvery,
          member.candidate.candidacy.renewEvery⟩))
      (past : start + count * member.candidate.candidacy.renewEvery ≤ now)
      (early : now ≤ start + (count + 1) * member.candidate.candidacy.renewEvery)
  | renewing (held : Revision)
      (calling : member.candidate.task = .calling (.leading held
        ⟨start + (count + 1) * member.candidate.candidacy.renewEvery,
          member.candidate.candidacy.renewEvery⟩) now)
      (even : now = start + count * member.candidate.candidacy.renewEvery) (begun : 0 < count)
  | ended (ended : member.candidate.task = .ended)

namespace Contest

variable {contest next : Contest} {action : Action} {id start count : Nat} {member after : Member}

/-- The next tick of a leader is taken at its beat, and the one after that is due at the next. -/
theorem beats_of_called {plan : Plan} {stage following : Stage} {held : Revision}
    (leads : stage = .leading held
      ⟨start + (count + 1) * member.candidate.candidacy.renewEvery,
        member.candidate.candidacy.renewEvery⟩)
    (between : member.candidate.task = .between stage)
    (early : contest.now ≤ start + (count + 1) * member.candidate.candidacy.renewEvery)
    (moved : contest.moveOf member stage = .call following)
    (changed : after = { member with
      candidate := { member.candidate with task := .calling following contest.now }
      flight := some { plan } }) :
    (contest.put id after).issued id after = contest.issued id member ++
        [(.renew held, start + (count + 1) * member.candidate.candidacy.renewEvery)] ∧
      after.Beats contest.now start (count + 1) := by
  subst leads changed
  obtain ⟨_, _, ⟨never, _⟩ | ⟨ticker, ticking, due, rfl⟩⟩ := Stage.look_call moved
  · cases never
  cases ticking
  have now : contest.now = start + (count + 1) * member.candidate.candidacy.renewEvery :=
    Nat.le_antisymm early due
  have next : Ticker.take ⟨start + (count + 1) * member.candidate.candidacy.renewEvery,
      member.candidate.candidacy.renewEvery⟩ contest.now =
        ⟨start + (count + 1 + 1) * member.candidate.candidacy.renewEvery,
          member.candidate.candidacy.renewEvery⟩ := by
    rw [now, Nat.add_one_mul (count + 1), ← Nat.add_assoc]
    exact Ticker.take_due _
  constructor
  · rw [issued_of_called between rfl, ← now]
    rfl
  · refine .renewing held ?_ now (Nat.succ_pos count)
    rw [← next]
    rfl

theorem MemberStep.beats (step : MemberStep contest id member action next after)
    (beats : member.Beats contest.now start count) (prompt : member.Prompt contest.now)
    (current : member.Holds → ∃ held, member.Current held) :
    next.issued id after = contest.issued id member ∧ after.Beats next.now start count ∨
      (∃ held, next.issued id after = contest.issued id member ++
        [(.renew held, start + (count + 1) * member.candidate.candidacy.renewEvery)]) ∧
      after.Beats next.now start (count + 1) := by
  have silent := step.issued
  cases beats with
  | ended finished =>
      refine Or.inl ⟨silent ?_, .ended (step.ended finished)⟩
      intro stage following between
      rw [finished] at between
      cases between
  | waiting held between past early =>
      have stands {stage : Stage} {began : Nat}
          (calling : member.candidate.task = .calling stage began) : False := by
        rw [between] at calling
        cases calling
      cases step with
      | kept _ _ _ elsewhere task terms reports flight clock =>
          refine Or.inl ⟨silent (fun _ _ _ calls => stands (task.symm.trans calls)), ?_⟩
          rw [clock]
          rw [← terms] at between past early
          exact .waiting held (task.trans between) past early
      | started context fresh =>
          rw [between] at fresh
          cases fresh
      | called plan stage following waits moved =>
          obtain rfl := Task.between.inj (between.symm.trans waits)
          obtain ⟨issued, beats⟩ := beats_of_called rfl between early moved rfl
          exact Or.inr ⟨⟨held, issued⟩, beats⟩
      | left plan _ extra stage waits ended =>
          refine Or.inl ⟨silent ?_, .ended ended⟩
          intro _ _ _ calls
          rw [ended] at calls
          cases calls
      | landed _ _ _ _ _ _ _ calling | answered _ _ _ _ _ _ calling | cutOff _ _ _ _ _ calling =>
          exact absurd calling stands
      | passed instant quiet later awake found =>
          have wakes : member.wakeAt? = some
              (start + (count + 1) * member.candidate.candidacy.renewEvery) := by
            simp only [Member.wakeAt?, between]
            rfl
          refine Or.inl ⟨silent (fun _ _ _ calls => stands calls), ?_⟩
          exact .waiting held between (Nat.le_trans past later) (le_of_awake awake found wakes)
  | renewing held calling even begun =>
      have stands {stage : Stage} (between : member.candidate.task = .between stage) : False := by
        rw [calling] at between
        cases between
      have still := silent (fun _ _ between _ => stands between)
      cases step with
      | kept _ _ _ elsewhere task terms reports flight clock =>
          refine Or.inl ⟨still, ?_⟩
          rw [clock]
          rw [← terms] at calling even
          exact .renewing held (task.trans calling) even begun
      | started context fresh =>
          rw [calling] at fresh
          cases fresh
      | called _ _ _ between | left _ _ _ _ between => exact absurd between stands
      | landed => exact Or.inl ⟨still, .renewing held calling even begun⟩
      | answered plan stage began flight landedAt answer calls flying landed =>
          obtain ⟨rfl, rfl⟩ := Task.calling.inj (calling.symm.trans calls)
          obtain ⟨_, current⟩ := current (.renewing held _ _ calling)
          obtain ⟨entry, rfl, _⟩ := current.ok_of_landed calling flying landed
          have early : contest.now ≤
              start + (count + 1) * member.candidate.candidacy.renewEvery := by
            rw [even]
            exact Nat.add_le_add_left (Nat.mul_le_mul_right _ (Nat.le_succ count)) start
          exact Or.inl ⟨still, .waiting entry.revision rfl (Nat.le_of_eq even.symm) early⟩
      | cutOff => exact Or.inl ⟨still, .ended rfl⟩
      | passed instant quiet later awake found =>
          obtain ⟨waits, _⟩ := waits_of_quiet quiet found prompt (Candidate.stage?_of_calling calling)
          exact absurd waits stands

end Contest

theorem Member.Beats.of_calling {member : Member} {now start count began : Nat} {stage : Stage}
    (beats : member.Beats now start count)
    (calling : member.candidate.task = .calling stage began) :
    (∃ held ticker, stage = .leading held ticker) ∧ 0 < count := by
  cases beats with
  | waiting held between =>
      rw [between] at calling
      cases calling
  | renewing held calls even begun =>
      obtain ⟨rfl, _⟩ := Task.calling.inj (calling.symm.trans calls)
      exact ⟨⟨held, _, rfl⟩, begun⟩
  | ended ended =>
      rw [ended] at calling
      cases calling

/-! ### The revision counts the beats -/

/-- How many calls under way have not reached the bucket yet. -/
def Member.pending (member : Member) : Nat :=
  match member.candidate.task, member.flight with
  | .calling _ _, some flight => if flight.landed.isNone then 1 else 0
  | _, _ => 0

theorem Member.pending_of_grounded {member : Member} (grounded : member.flight = none) :
    member.pending = 0 := by
  unfold pending
  rw [grounded]
  cases member.candidate.task <;> rfl

/-- The revision of a leader's record is ahead of its first by the renewals that have arrived. -/
def Member.Counts (member : Member) (first count : Nat) : Prop :=
  ∀ held, member.Current held → held.toNat + member.pending = first + count

namespace Contest

variable {contest next : Contest} {action : Action} {id start count : Nat} {member after : Member}

/-- A renewal takes the next revision after that of the record, when no other key has taken one. -/
theorem counts_of_landed {first : Nat} {held : Revision} {ticker : Ticker} {began : Nat}
    {flight : Flight} {reply : Except StoreError Reply} {bucket : Bucket}
    (calling : member.candidate.task = .calling (.leading held ticker) began)
    (flying : member.flight = some flight) (aloft : flight.landed = none)
    (performed : (contest.bucket.struckBy flight.plan.fault).Performed contest.now
      (.update member.key member.stamp held) reply bucket)
    (counts : member.Counts first count) (begun : 0 < count)
    (lone : ∀ record, contest.bucket.record? member.key = some record →
      first ≤ record.revision.toNat → contest.bucket.revision = record.revision)
    (room : contest.bucket.revision.toNat < Revision.last) :
    Member.Counts { member with
      flight := some { flight with
        landed := some (contest.now, reply.map member.candidate.candidacy.seen) } }
      first count := by
  have ahead := counts held (.renewing held ticker began flight calling flying aloft)
  have pending : member.pending = 1 := by
    simp only [Member.pending, calling, flying, aloft]
    rfl
  intro other current
  have landed : Member.pending { member with
      flight := some { flight with
        landed := some (contest.now, reply.map member.candidate.candidacy.seen) } } = 0 := by
    simp only [Member.pending, calling]
    rfl
  obtain ⟨entry, answer, rfl⟩ := current.ok_of_landed calling rfl rfl
  obtain ⟨answered, rfl⟩ := ok_of_map_seen answer
  obtain ⟨⟨record, live, rfl⟩, rfl, _⟩ := performed.of_updated
  rw [Bucket.live?_struckBy] at live
  have counter := lone record (Bucket.live?_eq_some_iff.mp live).1 (by omega)
  obtain rfl := Except.ok.inj answer
  have next : (contest.bucket.struckBy flight.plan.fault).revision.next.toNat =
      record.revision.toNat + 1 := by
    rw [Bucket.revision_struckBy, Revision.toNat_next, counter]
    rw [counter] at room
    omega
  calc
    _ = (contest.bucket.struckBy flight.plan.fault).revision.next.toNat + 0 := by rw [landed]; rfl
    _ = record.revision.toNat + member.pending := by rw [next, pending]
    _ = first + count := ahead

theorem MemberStep.counts {first : Nat} (step : MemberStep contest id member action next after)
    (beats : member.Beats contest.now start count) (counts : member.Counts first count)
    (lone : ∀ record, contest.bucket.record? member.key = some record →
      first ≤ record.revision.toNat → contest.bucket.revision = record.revision)
    (room : contest.bucket.revision.toNat < Revision.last) :
    after.Counts first
      (count + ((next.issued id after).length - (contest.issued id member).length)) := by
  have silent := step.issued
  have same (issued : next.issued id after = contest.issued id member)
      (counts : after.Counts first count) : after.Counts first
        (count + ((next.issued id after).length - (contest.issued id member).length)) := by
    rw [issued, Nat.sub_self]
    exact counts
  have gone (ended : after.candidate.task = .ended) (extra : Nat) : after.Counts first extra := by
    intro held current
    exact absurd current.bears (not_bears_of_ended ended)
  cases step with
  | kept _ _ _ elsewhere task terms reports flight clock calls =>
      refine same (silent ?_) ?_
      · intro stage following between calls
        rw [task, between] at calls
        cases calls
      · intro held current
        have pending : after.pending = member.pending := by
          unfold Member.pending
          rw [task, flight]
        rw [pending]
        exact counts held (current.of_same_work task.symm flight.symm)
  | started context fresh =>
      intro held current
      cases current with
      | waiting _ _ task | renewing _ _ _ _ task => cases task
      | written _ _ _ _ _ task => cases task
  | called plan stage following between moved =>
      rw [issued_of_called between rfl, List.length_append, Nat.add_sub_cancel_left]
      intro held current
      have waits : member.pending = 0 := by
        simp only [Member.pending, between]
      cases current with
      | waiting _ _ task => cases task
      | written _ _ _ _ _ _ flying landed =>
          cases flying
          cases landed
      | renewing _ ticker began flight task flying =>
          cases flying
          obtain ⟨leads, rfl⟩ := Task.calling.inj task
          obtain ⟨_, _, ⟨_, stands⟩ | ⟨taken, _, _, goesOn⟩⟩ := Stage.look_call moved
          · rw [leads] at stands
            cases stands
          obtain ⟨⟨old, rfl⟩, _⟩ := Stage.leading_of_withTicker (leads.symm.trans goesOn)
          have ahead := counts held (.waiting held old between)
          rw [waits] at ahead
          exact congrArg (· + 1) ahead
  | left plan _ extra stage between ended => exact gone ended _
  | landed plan stage began flight reply bucket found calling flying aloft arrived performed =>
      obtain ⟨⟨held, ticker, rfl⟩, begun⟩ := beats.of_calling calling
      refine same (silent ?_)
        (counts_of_landed calling flying aloft performed counts begun lone room)
      intro stage following between
      rw [calling] at between
      cases between
  | answered plan stage began flight landedAt answer calling flying landed =>
      refine same (silent ?_) ?_
      · intro other following between
        rw [calling] at between
        cases between
      · intro held current
        have arrived : member.pending = 0 := by
          simp only [Member.pending, calling, flying, landed]
          rfl
        rw [Member.pending_of_grounded rfl]
        cases current with
        | renewing _ _ _ _ _ flying => cases flying
        | written _ _ _ _ _ _ flying => cases flying
        | waiting _ ticker between =>
            obtain ⟨⟨entry, rfl, rfl⟩, origin⟩ := Candidate.settle_leading between
            have writes : stage.call ≠ .poll := by
              rcases origin with ⟨rfl, _⟩ | ⟨_, rfl⟩ <;> exact fun never => by cases never
            have ahead := counts entry.revision
              (.written stage began flight landedAt entry calling flying landed writes)
            rw [arrived] at ahead
            exact ahead
  | cutOff => exact gone rfl _
  | passed =>
      refine same (silent ?_) counts
      intro stage following between calls
      rw [between] at calls
      cases calls

/-! ### From the accession on -/

variable {terms : BucketTerms} {actions : List Action}

structure Accession (eve : Contest) (action : Action) (won : Contest) (id : Nat) (leader : Member)
    (first : Revision) : Prop where
  acted : eve.act? action = some won
  outside : ∀ member, eve.members[id]? = some member → ¬member.Leads
  there : won.members[id]? = some leader
  leads : leader.candidate.stage?.map Stage.phase = some (.leading first)

/-- Who begins to lead waits with a ticker of its own. -/
theorem MemberStep.accedes {first : Revision} (step : MemberStep contest id member action next after)
    (outside : ¬member.Leads)
    (leads : after.candidate.stage?.map Stage.phase = some (.leading first)) :
    next.now = contest.now ∧ after.candidate.task =
      .between (.leading first (.after contest.now after.candidate.candidacy.renewEvery)) := by
  have already (same : after.candidate.task = member.candidate.task) : False := by
    refine outside ⟨first, ?_⟩
    unfold Candidate.stage? at leads ⊢
    rw [← same]
    exact leads
  have gone (ended : after.candidate.task = .ended) : False := by
    simp only [Candidate.stage?, ended] at leads
    cases leads
  cases step with
  | kept _ _ _ _ task => exact (already task).elim
  | started => cases leads
  | called plan stage following between moved =>
      refine absurd ⟨first, ?_⟩ outside
      rw [Candidate.stage?_of_between between]
      obtain ⟨_, _, ⟨_, rfl⟩ | ⟨_, _, _, rfl⟩⟩ := Stage.look_call moved
      · cases leads
      · rw [← leads]
        exact congrArg some (stage.phase_withTicker _).symm
  | left _ _ _ _ _ ended => exact (gone ended).elim
  | landed | passed => exact (already rfl).elim
  | cutOff => exact (gone rfl).elim
  | answered plan stage began flight landedAt answer calling =>
      refine ⟨rfl, ?_⟩
      rcases member.candidate.task_settle contest.now stage answer with ended | ⟨waiting, between⟩
      · exact (gone ended).elim
      simp only [Candidate.stage?_of_between between, Option.map_some, Option.some.injEq] at leads
      cases waiting with
      | electing | following => cases leads
      | leading held ticker =>
          cases leads
          obtain ⟨_, ⟨_, rfl⟩ | ⟨earlier, rfl⟩⟩ := Candidate.settle_leading between
          · simp only [between, Candidate.candidacy_settle]
          · exact absurd ⟨earlier, by rw [Candidate.stage?_of_calling calling]; rfl⟩ outside

theorem Accession.beats {eve won : Contest} {leader : Member} {first : Revision}
    (accession : eve.Accession action won id leader first) :
    leader.Beats won.now won.now 0 ∧ leader.Counts first.toNat 0 := by
  rcases (turn_of_act? accession.acted).member_cases accession.there
    with ⟨candidacy, _, rfl⟩ | ⟨member, was, step⟩
  · cases accession.leads
  obtain ⟨clock, between⟩ := step.accedes (accession.outside member was) accession.leads
  constructor
  · refine .waiting first ?_ (by omega) (by omega)
    rw [between, clock, Nat.zero_add, Nat.one_mul]
    rfl
  · intro held current
    have waits : leader.pending = 0 := by
      simp only [Member.pending, between]
    rw [waits, current.eq_of_between between]

/-- A leader that took office as `leader` has since issued this many renewals, one at each beat, and
no other call. -/
structure Renews (contest won : Contest) (id : Nat) (leader member : Member) (count : Nat) : Prop where
  terms : member.candidate.candidacy = leader.candidate.candidacy
  issued : ∃ updates, contest.issued id member = won.issued id leader ++ updates ∧
    (∀ update ∈ updates, ∃ held, update.1 = .renew held) ∧
    updates.map Prod.snd = (List.range count).map fun beat =>
      won.now + (beat + 1) * leader.candidate.candidacy.renewEvery

variable {won : Contest} {leader : Member} {first : Revision} {earlier later : List Action}

theorem Renews.still (renews : contest.Renews won id leader member count)
    (terms : after.candidate.candidacy = member.candidate.candidacy)
    (issued : next.issued id after = contest.issued id member) :
    next.Renews won id leader after count where
  terms := terms.trans renews.terms
  issued := by
    rw [issued]
    exact renews.issued

theorem Renews.again {held : Revision} (renews : contest.Renews won id leader member count)
    (terms : after.candidate.candidacy = member.candidate.candidacy)
    (issued : next.issued id after = contest.issued id member ++
      [(.renew held, won.now + (count + 1) * leader.candidate.candidacy.renewEvery)]) :
    next.Renews won id leader after (count + 1) where
  terms := terms.trans renews.terms
  issued := by
    obtain ⟨updates, whole, renewals, beats⟩ := renews.issued
    rw [issued, whole, List.append_assoc]
    refine ⟨_, rfl, ?_, ?_⟩
    · intro update present
      rcases List.mem_append.mp present with old | new
      · exact renewals update old
      · rw [List.mem_singleton.mp new]
        exact ⟨held, rfl⟩
    · rw [List.map_append, beats, List.range_succ, List.map_append]
      rfl

/-- What is kept along a run from the accession of a member on. -/
theorem renews_of_run (run : (opening terms).run? earlier = some won)
    (goesOn : won.run? later = some contest) (there : won.members[id]? = some leader)
    (undelayed : Undelayed id (earlier ++ later))
    (undisturbed : (opening terms).Undisturbed leader.key id (earlier ++ later))
    (beats : leader.Beats won.now won.now 0) (counts : leader.Counts first.toNat 0) :
    ∃ member count, contest.members[id]? = some member ∧
      contest.Renews won id leader member count ∧ member.Beats contest.now won.now count ∧
      ((opening terms).Lone (earlier ++ later) leader.key first →
        contest.bucket.revision.toNat < Revision.last → member.Counts first.toNat count) := by
  refine Runs.induct (motive := fun later contest => Undelayed id (earlier ++ later) →
    (opening terms).Undisturbed leader.key id (earlier ++ later) →
      ∃ member count, contest.members[id]? = some member ∧
        contest.Renews won id leader member count ∧ member.Beats contest.now won.now count ∧
        ((opening terms).Lone (earlier ++ later) leader.key first →
          contest.bucket.revision.toNat < Revision.last → member.Counts first.toNat count))
    ?_ ?_ later goesOn undelayed undisturbed
  · intro _ _
    have renews : won.Renews won id leader leader 0 := by
      refine ⟨rfl, [], (List.append_nil _).symm, ?_, rfl⟩
      intro update never
      cases never
    exact ⟨leader, 0, there, renews, beats, fun _ _ => counts⟩
  · intro done contest action next ran ih acted undelayed undisturbed
    have whole := run?_append run ran
    have turn := turn_of_act? acted
    rw [← List.append_assoc] at undelayed undisturbed ⊢
    obtain ⟨member, count, found, renews, beats, counts⟩ := ih undelayed.before undisturbed.before
    obtain ⟨after, foundAfter, step⟩ := turn.memberStep found
    have named : member.key = leader.key := congrArg Candidacy.key renews.terms
    have current (holds : member.Holds) : ∃ held, member.Current held := by
      obtain ⟨_, record, _, _, _, _, current⟩ := sits_of_run whole found
        (named ▸ undisturbed.before) (swift_of_undelayed whole undelayed.before) holds
      exact ⟨record.revision, current⟩
    have prompt := prompt_of_run whole undelayed.before found
    have countsAfter (lone : (opening terms).Lone ((earlier ++ done) ++ [action]) leader.key first)
        (room : next.bucket.revision.toNat < Revision.last) : after.Counts first.toNat
          (count + ((next.issued id after).length - (contest.issued id member).length)) := by
      have roomBefore := Nat.lt_of_le_of_lt turn.revision_le room
      have loneBefore := lone.before whole
      refine step.counts beats (counts loneBefore roomBefore) ?_ roomBefore
      rw [named]
      exact loneBefore.counter whole roomBefore
    rcases step.beats beats prompt current with ⟨issued, beatsAfter⟩ | ⟨⟨held, issued⟩, beatsAfter⟩
    · rw [issued, Nat.sub_self] at countsAfter
      exact ⟨after, count, foundAfter, renews.still step.candidacy_eq issued, beatsAfter,
        countsAfter⟩
    · rw [issued, List.length_append, Nat.add_sub_cancel_left] at countsAfter
      rw [renews.terms] at issued
      exact ⟨after, count + 1, foundAfter, renews.again step.candidacy_eq issued, beatsAfter,
        countsAfter⟩

/-- An election that is over issues nothing more. -/
theorem issued_of_ended (goesOn : contest.run? later = some next)
    (found : contest.members[id]? = some member) (ended : member.candidate.task = .ended) :
    ∃ after, next.members[id]? = some after ∧ after.candidate.task = .ended ∧
      next.issued id after = contest.issued id member := by
  refine Runs.induct (motive := fun _ next => ∃ after, next.members[id]? = some after ∧
    after.candidate.task = .ended ∧ next.issued id after = contest.issued id member)
    ⟨member, found, ended, rfl⟩ ?_ later goesOn
  rintro _ middle _ _ _ ⟨between, there, finished, same⟩ acted
  obtain ⟨after, foundAfter, step⟩ := (turn_of_act? acted).memberStep there
  refine ⟨after, foundAfter, step.ended finished, (step.issued ?_).trans same⟩
  intro stage following waits
  rw [finished] at waits
  cases waits

structure Cadence (contest won : Contest) (later : List Action) (id : Nat) (leader member : Member)
    (count : Nat) : Prop where
  renews : contest.Renews won id leader member count
  punctual : member.candidate.closed = false →
    contest.now ≤ won.now + (count + 1) * leader.candidate.candidacy.renewEvery
  silent : ∀ done rest between ended, later = done ++ rest → won.run? done = some between →
    between.members[id]? = some ended → ended.candidate.closed = true →
    contest.issued id member = between.issued id ended

/-- A leader waits for its ticker and holds the revision of the live record of its key. -/
def Level (contest : Contest) (member : Member) (held : Revision) : Prop :=
  ∃ ticker record, member.candidate.task = .between (.leading held ticker) ∧
    contest.bucket.live? contest.now member.key = some record ∧ record.revision = held

theorem Renews.cadence (renews : contest.Renews won id leader member count)
    (beats : member.Beats contest.now won.now count) (goesOn : won.run? later = some contest)
    (found : contest.members[id]? = some member) :
    contest.Cadence won later id leader member count where
  renews := renews
  punctual := by
    intro running
    rw [← renews.terms]
    cases beats with
    | waiting held between past early => exact early
    | renewing held calling even begun =>
        rw [even]
        exact Nat.add_le_add_left (Nat.mul_le_mul_right _ (Nat.le_succ count)) won.now
    | ended ended =>
        simp only [Candidate.closed, ended] at running
        cases running
  silent := by
    intro done rest between ended split ran there closed
    have goesOnThere : between.run? rest = some contest := by
      rw [split, run?_append_eq ran] at goesOn
      exact goesOn
    obtain ⟨after, foundAfter, _, same⟩ := issued_of_ended goesOnThere there
      (of_decide_eq_true closed)
    obtain rfl := Option.some.inj (foundAfter.symm.trans found)
    exact same

/-- While all wait for the clock, the beats are those that have passed, and the record is level with
its leader. -/
theorem Sits.level {bound : Nat} (sits : member.Holds → contest.Sits id bound member)
    (swift : contest.Swift id bound) (beats : member.Beats contest.now start count)
    (prompt : member.Prompt contest.now) (found : contest.members[id]? = some member)
    (quiet : contest.quiet = true) (running : member.candidate.closed = false) :
    count = (contest.now - start) / member.candidate.candidacy.renewEvery ∧
      ∃ held, contest.Level member held ∧ member.Current held ∧ member.pending = 0 := by
  cases beats with
  | ended ended =>
      simp only [Candidate.closed, ended] at running
      cases running
  | renewing held calling =>
      obtain ⟨waits, _⟩ := waits_of_quiet quiet found prompt (Candidate.stage?_of_calling calling)
      rw [calling] at waits
      cases waits
  | waiting held between past early =>
      obtain ⟨_, ticker, ticking, later⟩ :=
        waits_of_quiet quiet found prompt (Candidate.stage?_of_between between)
      cases ticking
      simp only at later
      have holds : member.Holds := .waiting held _ between
      obtain ⟨_, record, _, _, live, _, current⟩ := (sits holds).live swift found
      refine ⟨?_, held, ⟨_, record, between, live, current.eq_of_between between⟩,
        .waiting held _ between, ?_⟩
      · exact (Nat.div_eq_of_lt_le (by omega) (by omega)).symm
      · simp only [Member.pending, between]

/-- A leader whose calls end in time never evicts itself, whatever the other candidates do: after its
victory it reports no defeat, and every renewal of its lease that is answered succeeds. If its calls
are not delayed at all, it renews exactly at the beats of its accession and calls the bucket at no
other instant. While all wait for the clock, it holds the revision of the record, which counts the
beats if no other key is written. -/
theorem incumbency_of_run (run : (opening terms).run? actions = some contest)
    (found : contest.members[id]? = some member)
    (undisturbed : (opening terms).Undisturbed member.key id actions) :
    (∀ bound, contest.Swift id bound → contest.Incumbent id member) ∧
      (Undelayed id actions → ∀ before action later eve won leader first,
        actions = before ++ action :: later → (opening terms).run? before = some eve →
        eve.Accession action won id leader first →
        ∃ count, contest.Cadence won later id leader member count ∧
          (contest.quiet = true → member.candidate.closed = false →
            count = (contest.now - won.now) / member.candidate.candidacy.renewEvery ∧
            ∃ held, contest.Level member held ∧
              ((opening terms).Lone actions member.key first →
                contest.bucket.revision.toNat < Revision.last →
                held.toNat = first.toNat + count))) := by
  constructor
  · intro bound swift
    exact incumbent_of_run run found undisturbed swift
  · rintro undelayed before action later eve won leader first rfl ran accession
    have swift := swift_of_undelayed run undelayed
    have prompt := prompt_of_run run undelayed found
    have sits := sits_of_run run found undisturbed swift
    have ranWon := run?_concat ran accession.acted
    rw [List.append_cons] at run undelayed undisturbed ⊢
    have goesOn : won.run? later = some contest := (run?_append_eq ranWon later).symm.trans run
    obtain ⟨after, foundAfter, terms⟩ := persists_of_run goesOn accession.there
    obtain rfl := Option.some.inj (foundAfter.symm.trans found)
    have named : after.key = leader.key := congrArg Candidacy.key terms
    rw [named] at undisturbed
    obtain ⟨beats, counts⟩ := accession.beats
    obtain ⟨_, count, there, renews, beats, counts⟩ :=
      renews_of_run ranWon goesOn accession.there undelayed undisturbed beats counts
    obtain rfl := Option.some.inj (there.symm.trans found)
    refine ⟨count, renews.cadence beats goesOn found, ?_⟩
    intro quiet running
    obtain ⟨floor, held, level, current, arrived⟩ :=
      Sits.level sits swift beats prompt found quiet running
    refine ⟨floor, held, level, ?_⟩
    intro lone room
    rw [named] at lone
    have counted := counts lone room held current
    rw [arrived] at counted
    exact counted

def candidacyOfFirst : Candidacy :=
  { key := "k", candidate := ⟨"a"⟩, renewEveryMs := 1500, pollEveryMs := 500 }

def candidacyOfSecond : Candidacy :=
  { key := "k", candidate := ⟨"b"⟩, renewEveryMs := 1500, pollEveryMs := 1900 }

def campaign : List Action :=
  [.nominate candidacyOfFirst, .nominate candidacyOfSecond, .start 0 "", .proceed 0 {},
    .proceed 0 {}]

/-- The second candidate loses and a third party tries to create the record. The first renews. -/
def firstRenewal : List Action :=
  [.start 1 "", .proceed 1 {}, .proceed 1 {}, .proceed 1 {}, .perform (.create "k" []),
    .passTo 1_500_000_000, .proceed 0 {}, .proceed 0 {}, .proceed 0 {}, .passTo 1_800_000_000]

def afterCampaign : Contest where
  bucket :=
    { terms := ⟨"b", 2_000_000_000⟩
      records := [("k", ⟨Text.encode "a", ⟨1⟩, 0⟩)]
      revision := ⟨1⟩ }
  members :=
    [{ candidate :=
        { candidacy := candidacyOfFirst, task := .calling .electing 0, listening := true }
       flight := some { plan := {}, landed := some (0, .ok ⟨"k", Text.encode "a", ⟨1⟩⟩) } },
      { candidate := { candidacy := candidacyOfSecond } }]

def elected : Member where
  candidate :=
    { candidacy := candidacyOfFirst
      task := .between (.leading ⟨1⟩ ⟨1_500_000_000, 1_500_000_000⟩)
      listening := true
      reports := [.won] }

def afterElection : Contest where
  bucket := afterCampaign.bucket
  members := [elected, { candidate := { candidacy := candidacyOfSecond } }]
  calls := [⟨0, .create, 0, 0, some (0, .ok ⟨"k", Text.encode "a", ⟨1⟩⟩), false⟩]

def incumbent : Member where
  candidate :=
    { candidacy := candidacyOfFirst
      task := .between (.leading ⟨2⟩ ⟨3_000_000_000, 1_500_000_000⟩)
      listening := true
      reports := [.won] }

def afterRenewal : Contest where
  bucket :=
    { terms := ⟨"b", 2_000_000_000⟩
      records := [("k", ⟨Text.encode "a", ⟨2⟩, 1_500_000_000⟩)]
      revision := ⟨2⟩ }
  now := 1_800_000_000
  members :=
    [incumbent,
      { candidate :=
        { candidacy := candidacyOfSecond
          task := .between (.following ⟨1_900_000_000, 1_900_000_000⟩)
          listening := true
          reports := [.lost] } }]
  calls :=
    [⟨0, .renew ⟨1⟩, 1_500_000_000, 1_500_000_000,
        some (1_500_000_000, .ok ⟨"k", Text.encode "a", ⟨2⟩⟩), false⟩,
      ⟨1, .create, 0, 0, some (0, .error (.keyExists "k")), false⟩,
      ⟨0, .create, 0, 0, some (0, .ok ⟨"k", Text.encode "a", ⟨1⟩⟩), false⟩]

theorem run_campaign :
    (opening ⟨"b", 2_000_000_000⟩).run? campaign = some afterCampaign := rfl

theorem act_election : afterCampaign.act? (.proceed 0 {}) = some afterElection := rfl

theorem run_firstRenewal : afterElection.run? firstRenewal = some afterRenewal := rfl

def firstTerm : List Action := campaign ++ .proceed 0 {} :: firstRenewal

theorem run_firstTerm : (opening ⟨"b", 2_000_000_000⟩).run? firstTerm = some afterRenewal :=
  run?_append run_campaign ((run?_cons act_election).trans run_firstRenewal)

theorem accession_elected :
    afterCampaign.Accession (.proceed 0 {}) afterElection 0 elected ⟨1⟩ where
  acted := act_election
  outside := by
    rintro member found ⟨held, leads⟩
    cases found
    cases leads
  there := rfl
  leads := rfl

theorem plain_firstTerm : firstTerm.all Action.isPlain = true := by decide

theorem undisturbed_firstTerm :
    (opening ⟨"b", 2_000_000_000⟩).Undisturbed "k" 0 firstTerm where
  spared := by
    simp [firstTerm, campaign, firstRenewal, Action.Spares]
  unharmed := unharmed_of_faultless (faultless_of_plain plain_firstTerm) 0

theorem lone_firstTerm : (opening ⟨"b", 2_000_000_000⟩).Lone firstTerm "k" ⟨1⟩ := by
  unfold Lone
  decide +kernel

def slowElection : List Action :=
  [.nominate candidacyOfFirst, .nominate candidacyOfSecond, .start 0 "",
    .proceed 0 { before := 100_000_000, after := 50_000_000 }, .passTo 100_000_000, .proceed 0 {},
    .passTo 150_000_000, .proceed 0 {}]

/-- A rival loses, and the renewal takes longer than the create. -/
def slowRenewal : List Action :=
  [.start 1 "", .proceed 1 {}, .proceed 1 {}, .proceed 1 {}, .passTo 1_650_000_000,
    .proceed 0 { before := 150_000_000, after := 50_000_000 }, .passTo 1_800_000_000, .proceed 0 {},
    .passTo 1_850_000_000, .proceed 0 {}]

def slowTerm : List Action := slowElection ++ slowRenewal

def afterSlowElection : Contest where
  bucket :=
    { terms := ⟨"b", 2_000_000_000⟩
      records := [("k", ⟨Text.encode "a", ⟨1⟩, 100_000_000⟩)]
      revision := ⟨1⟩ }
  now := 150_000_000
  members :=
    [{ candidate :=
        { candidacy := candidacyOfFirst
          task := .between (.leading ⟨1⟩ ⟨1_650_000_000, 1_500_000_000⟩)
          listening := true
          reports := [.won] } },
      { candidate := { candidacy := candidacyOfSecond } }]
  calls :=
    [⟨0, .create, 0, 150_000_000, some (100_000_000, .ok ⟨"k", Text.encode "a", ⟨1⟩⟩), false⟩]

def slowIncumbent : Member where
  candidate :=
    { candidacy := candidacyOfFirst
      task := .between (.leading ⟨2⟩ ⟨3_150_000_000, 1_500_000_000⟩)
      listening := true
      reports := [.won] }

def afterSlowTerm : Contest where
  bucket :=
    { terms := ⟨"b", 2_000_000_000⟩
      records := [("k", ⟨Text.encode "a", ⟨2⟩, 1_800_000_000⟩)]
      revision := ⟨2⟩ }
  now := 1_850_000_000
  members :=
    [slowIncumbent,
      { candidate :=
        { candidacy := candidacyOfSecond
          task := .between (.following ⟨2_050_000_000, 1_900_000_000⟩)
          listening := true
          reports := [.lost] } }]
  calls :=
    [⟨0, .renew ⟨1⟩, 1_650_000_000, 1_850_000_000,
        some (1_800_000_000, .ok ⟨"k", Text.encode "a", ⟨2⟩⟩), false⟩,
      ⟨1, .create, 150_000_000, 150_000_000, some (150_000_000, .error (.keyExists "k")), false⟩,
      ⟨0, .create, 0, 150_000_000, some (100_000_000, .ok ⟨"k", Text.encode "a", ⟨1⟩⟩), false⟩]

theorem run_slowElection :
    (opening ⟨"b", 2_000_000_000⟩).run? slowElection = some afterSlowElection := rfl

theorem run_slowRenewal : afterSlowElection.run? slowRenewal = some afterSlowTerm := rfl

theorem run_slowTerm : (opening ⟨"b", 2_000_000_000⟩).run? slowTerm = some afterSlowTerm :=
  run?_append run_slowElection run_slowRenewal

theorem undisturbed_slowTerm :
    (opening ⟨"b", 2_000_000_000⟩).Undisturbed "k" 0 slowTerm where
  spared := by
    simp [slowTerm, slowElection, slowRenewal, Action.Spares]
  unharmed := unharmed_of_faultless (faultless_of_calm (by decide)) 0

theorem swift_afterSlowTerm : afterSlowTerm.Swift 0 200_000_000 where
  brisk := by
    intro member found
    cases found
    decide
  finished := by
    simp [afterSlowTerm]
  underWay := by
    intro member found stage began calling
    cases found
    cases calling

/-- One leader whose calls take no time renews on its beat. Another one's take up to two tenths of a
second, and it stays the leader all the same. -/
theorem incumbency_afterRenewal :
    ((opening ⟨"b", 2_000_000_000⟩).run? firstTerm = some afterRenewal ∧
      afterRenewal.members[0]? = some incumbent ∧
      (opening ⟨"b", 2_000_000_000⟩).Undisturbed incumbent.key 0 firstTerm ∧
      afterRenewal.Swift 0 0 ∧ Undelayed 0 firstTerm ∧
      afterCampaign.Accession (.proceed 0 {}) afterElection 0 elected ⟨1⟩ ∧
      afterRenewal.Incumbent 0 incumbent ∧
      ∃ count, afterRenewal.Cadence afterElection firstRenewal 0 elected incumbent count ∧
        count = 1 ∧ ∃ held, afterRenewal.Level incumbent held ∧ held.toNat = 2) ∧
    (opening ⟨"b", 2_000_000_000⟩).run? slowTerm = some afterSlowTerm ∧
      afterSlowTerm.members[0]? = some slowIncumbent ∧
      (opening ⟨"b", 2_000_000_000⟩).Undisturbed slowIncumbent.key 0 slowTerm ∧
      afterSlowTerm.Swift 0 200_000_000 ∧ ¬ afterSlowTerm.Swift 0 0 ∧
      afterSlowTerm.Incumbent 0 slowIncumbent := by
  have undelayed : Undelayed 0 firstTerm := undelayed_of_plain plain_firstTerm 0
  have swift : afterRenewal.Swift 0 0 := swift_of_undelayed run_firstTerm undelayed
  obtain ⟨unbroken, cadence⟩ := incumbency_of_run run_firstTerm
    (rfl : afterRenewal.members[0]? = some incumbent) undisturbed_firstTerm
  obtain ⟨count, renews, settled⟩ := cadence undelayed campaign (.proceed 0 {})
    firstRenewal afterCampaign afterElection elected ⟨1⟩ rfl run_campaign accession_elected
  obtain ⟨floor, held, level, counted⟩ := settled (by decide) rfl
  have once : count = 1 := floor
  have two : held.toNat = 2 := by
    rw [counted lone_firstTerm (by decide), once]
    rfl
  have slow : ¬ afterSlowTerm.Swift 0 0 := fun swift =>
    absurd (swift.finished _ List.mem_cons_self rfl) (by decide)
  have unbrokenSlow := (incumbency_of_run run_slowTerm
    (rfl : afterSlowTerm.members[0]? = some slowIncumbent) undisturbed_slowTerm).1
  exact ⟨⟨run_firstTerm, rfl, undisturbed_firstTerm, swift, undelayed, accession_elected,
      unbroken 0 swift, count, renews, once, held, level, two⟩,
    run_slowTerm, rfl, undisturbed_slowTerm, swift_afterSlowTerm, slow,
    unbrokenSlow _ swift_afterSlowTerm⟩

end Contest

end Leasehold
