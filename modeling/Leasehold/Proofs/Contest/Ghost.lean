import Leasehold.Proofs.Contest.Abandonment
import Leasehold.Proofs.Contest.Limit

set_option autoImplicit false

/-!
The lease that a call leaves behind when it is cut off after it has written.

The election is over, and no other member goes by the revision of the write. So nobody in the contest
changes the record any more. Unless a third party deletes or updates the key, the record stays as it
was written until its time-to-live is over, and every create of the key is refused until then.
-/

namespace Leasehold

def Deed.LeftAlone (key : String) (lapse : Nat) (history : List Deed) : Prop :=
  ∀ deed ∈ history, deed.key = key → deed.author = none → deed.instant < lapse →
    deed.kind = .created

theorem Bucket.Performed.refused {bucket after : Bucket} {now : Nat} {key : String} {value : Bytes}
    {reply : Except StoreError Reply} {record : Record}
    (performed : bucket.Performed now (.create key value) reply after)
    (live : bucket.live? now key = some record) :
    reply = .error (bucket.injected.getD (.keyExists key)) := by
  cases performed with
  | struck _ failure waiting => rw [waiting, Option.getD_some]
  | created _ _ _ vacant => cases live.symm.trans vacant
  | taken _ _ _ calm => rw [calm, Option.getD_none]

namespace Contest

variable {contest next first after : Contest} {action : Action} {actions done rest : List Action}
  {id limitMs : Nat} {member later : Member} {stage : Stage} {plan other : Plan} {deed : Deed}
  {key : String} {record : Record} {terms : BucketTerms}

/-! ### One write for each call -/

theorem instant_of_deed? (does : contest.deed? action = some deed) : deed.instant = contest.now := by
  cases action with
  | perform operation =>
      obtain ⟨_, _, _, _, _, rfl⟩ := Bucket.deed?_eq_some does
      rfl
  | proceed id plan =>
      obtain ⟨_, _, _, _, _, _, _, lands⟩ := deed?_proceed_eq_some does
      obtain ⟨_, _, _, _, _, rfl⟩ := Bucket.deed?_eq_some lands
      rfl
  | _ => cases does

/-- A call that is cut off has written at the end of its first delay, if at all. -/
theorem Passage.of_deed (passage : first.Passage id member stage plan limitMs actions contest later)
    (late : Duration.ofMillis limitMs < plan.before + plan.after)
    (found : contest.members[id]? = some later)
    (does : contest.deed? (.proceed id other) = some deed) :
    first.deedsOf id actions = [] ∧ deed.instant = first.now + plan.before := by
  have lands : contest.step? later = some .land := by
    by_contra elsewhere
    cases (deed?_of_not_land found elsewhere).symm.trans does
  cases passage with
  | aloft calling flying issued reports unwritten early patient =>
      refine ⟨unwritten, (instant_of_deed? does).trans (Nat.le_antisymm early ?_)⟩
      exact Nat.not_lt.mp fun underWay =>
        absurd lands (step?_ne_land_of_underWay calling flying underWay)
  | landed answer calling flying =>
      exact absurd lands (step?_ne_land_of_landed calling flying rfl)
  | answered answer inTime => exact absurd late (Nat.not_lt.mpr inTime)
  | cutOff late cuts ended =>
      simp only [step?, Member.step?, ended] at lands
      cases lands

theorem deedsOf_of_late (found : first.members[id]? = some member)
    (calling : member.candidate.task = .calling stage first.now)
    (flying : member.flight = some { plan })
    (limited : member.candidate.candidacy.callLimitMs = some limitMs)
    (late : Duration.ofMillis limitMs < plan.before + plan.after)
    (run : first.run? actions = some contest) : (first.deedsOf id actions).length ≤ 1 := by
  refine run_induction (motive := fun actions _ => (first.deedsOf id actions).length ≤ 1)
    (Nat.zero_le 1) ?_ actions contest run
  intro actions contest action next ran ih turn
  by_cases own : ∃ other, action = .proceed id other
  · obtain ⟨other, rfl⟩ := own
    rw [deedsOf_concat_of_own ran]
    cases does : contest.deed? (.proceed id other) with
    | none => simpa only [Option.toList_none, List.append_nil] using ih
    | some deed =>
        obtain ⟨later, there, _, passage⟩ := passage_of_run found calling flying limited ran
        rw [(passage.of_deed late there does).1]
        exact Nat.le_refl 1
  · rw [deedsOf_concat_of_elsewhere ran fun other same => own ⟨other, same⟩]
    exact ih

/-- Whoever writes once at most in a run writes no more after that. -/
theorem deedsOf_of_single (ran : first.run? done = some contest)
    (acted : contest.act? (.proceed id plan) = some next)
    (does : contest.deed? (.proceed id plan) = some deed)
    (single : (first.deedsOf id (done ++ .proceed id plan :: rest)).length ≤ 1) :
    next.deedsOf id rest = [] := by
  rw [deedsOf_split ran acted, does, Option.toList_some, List.length_append,
    List.singleton_append, List.length_cons] at single
  exact List.length_eq_zero_iff.mp (by omega)

/-! ### Who can change a record -/

/-- A record that is live is changed from outside, or by a member that goes by its revision. -/
theorem author_of_live (live : contest.bucket.live? contest.now deed.key = some record)
    (does : contest.deed? action = some deed) :
    deed.author = none ∧ deed.kind ≠ .created ∨
      ∃ rival member, deed.author = some rival ∧ contest.members[rival]? = some member ∧
        member.key = deed.key ∧ member.Bears record.revision := by
  cases action with
  | perform operation =>
      obtain ⟨kind, answered, after, writes, performed, rfl⟩ := Bucket.deed?_eq_some does
      refine Or.inl ⟨rfl, ?_⟩
      rintro rfl
      cases operation with
      | get | update | delete => cases writes
      | create key value => cases performed.of_created.1.symm.trans live
  | proceed rival plan =>
      obtain ⟨member, stage, began, flight, found, calling, flying, lands⟩ :=
        deed?_proceed_eq_some does
      obtain ⟨kind, answered, after, writes, performed, rfl⟩ := Bucket.deed?_eq_some lands
      have shown := contest.bucket.live?_struckBy flight.plan.fault contest.now member.key
      cases stage with
      | following => cases writes
      | electing =>
          have vacant := performed.of_created.1
          cases (shown.symm.trans vacant).symm.trans live
      | leading held ticker =>
          obtain ⟨⟨holding, present, rfl⟩, _⟩ := performed.of_updated
          obtain rfl := Option.some.inj ((shown.symm.trans present).symm.trans live)
          exact Or.inr ⟨rival, member, rfl, found, rfl,
            .leading _ ticker (Candidate.stage?_of_calling calling)⟩
  | _ => cases does

theorem owned_of_run (run : (opening terms).run? actions = some contest) :
    contest.Owned ((opening terms).chronicle actions) := by
  refine run_induction (motive := fun actions contest =>
    contest.Owned ((opening terms).chronicle actions)) ?_ ?_ actions contest run
  · intro id member never
    cases never
  · intro actions contest action next ran owned turn
    rw [chronicle_concat ran]
    exact owned.turn turn

/-! ### A lease without a holder -/

structure Lingers (contest : Contest) (key : String) (record : Record) (lapse : Nat)
    (history : List Deed) : Prop where
  deeds : ∀ deed ∈ history, deed.key = key → lapse ≤ deed.instant
  held : contest.now < lapse → contest.bucket.live? contest.now key = some record
  refused : contest.now < lapse → ∀ value fault,
    ((contest.bucket.struckBy fault).perform contest.now (.create key value)).1 =
      .error ((contest.bucket.struckBy fault).injected.getD (.keyExists key))

theorem past_of_run (run : first.run? actions = some contest) :
    ∀ deed ∈ first.chronicle actions, deed.instant ≤ contest.now := by
  refine run_induction (motive := fun actions contest =>
    ∀ deed ∈ first.chronicle actions, deed.instant ≤ contest.now) ?_ ?_ actions contest run
  · intro deed never
    cases never
  · intro actions contest action next ran ih turn deed past
    rw [chronicle_concat ran] at past
    rcases List.mem_append.mp past with old | new
    · exact Nat.le_trans (ih deed old) turn.now_le
    · rw [instant_of_deed? (Option.mem_toList.mp new)]
      exact turn.now_le

structure Wrote (terms : BucketTerms) (done : List Action) (contest : Contest) (id : Nat)
    (plan : Plan) (deed : Deed) (next : Contest) : Prop where
  ran : (opening terms).run? done = some contest
  room : contest.bucket.revision.toNat < Revision.last
  acted : contest.act? (.proceed id plan) = some next
  does : contest.deed? (.proceed id plan) = some deed

namespace Wrote

variable (wrote : Wrote terms done contest id plan deed next)
include wrote

theorem writes : deed.kind ≠ .removed := by
  obtain ⟨_, stage, _, _, _, _, _, lands⟩ := deed?_proceed_eq_some wrote.does
  obtain ⟨kind, _, _, changes, _, rfl⟩ := Bucket.deed?_eq_some lands
  rintro rfl
  cases stage <;> cases changes

theorem author : deed.author = some id := by
  obtain ⟨_, _, _, _, _, _, _, lands⟩ := deed?_proceed_eq_some wrote.does
  obtain ⟨_, _, _, _, _, rfl⟩ := Bucket.deed?_eq_some lands
  rfl

/-- A write takes a revision that nobody has gone by. After it only its author does, as long as the
key is not written again. -/
theorem eq_of_bears {rival : Nat} {holder : Member} (run : next.run? rest = some after)
    (untouched : ∀ other ∈ next.chronicle rest, other.key ≠ holder.key)
    (found : after.members[rival]? = some holder) (bears : holder.Bears deed.revision) :
    rival = id := by
  have begun := run?_concat wrote.ran wrote.acted
  have history : (opening terms).chronicle ((done ++ [.proceed id plan]) ++ rest) =
      (opening terms).chronicle done ++ [deed] ++ next.chronicle rest := by
    rw [chronicle_append begun, chronicle_concat wrote.ran, wrote.does, Option.toList_some]
  obtain ⟨mine, past, author, changes, same⟩ :=
    owned_of_run (run?_append begun run) rival holder found _ bears
  rw [history] at past
  rcases List.mem_append.mp past with before | since
  · rcases List.mem_append.mp before with old | new
    · have counted := (annals_of_run wrote.ran wrote.room).recorded.counted mine old
      have room := wrote.room
      obtain ⟨stamp, counter⟩ := (turn_of_act? wrote.acted).wrote wrote.does wrote.writes
      rw [same, stamp, counter, Revision.toNat_next] at counted
      omega
    · rw [List.mem_singleton.mp new, wrote.author] at author
      exact (Option.some.inj author).symm
  · obtain ⟨member, there, named⟩ := keyed_of_run run mine since rival author
    obtain rfl := Option.some.inj (there.symm.trans found)
    exact absurd named.symm (untouched mine since)

/-- The record that is written is live until it lapses, unless its key is touched before. -/
theorem live? (found : contest.members[id]? = some member) (run : next.run? rest = some after)
    (lasting : ∀ other ∈ next.chronicle rest, other.key = member.key →
      deed.instant + terms.ttl ≤ other.instant)
    (early : after.now < deed.instant + terms.ttl) :
    (∀ other ∈ next.chronicle rest, other.key ≠ member.key) ∧
      after.bucket.live? after.now member.key =
        some ⟨member.stamp, deed.revision, deed.instant⟩ := by
  have positive := Candidacy.ttl_pos_of_accept (accepted_of_run wrote.ran found)
  have same := terms_of_run (run?_concat wrote.ran wrote.acted)
  rw [terms_of_run wrote.ran] at positive
  have limited : next.bucket.terms.ttl? = some terms.ttl := by
    rw [same]
    exact if_neg (Nat.ne_of_gt positive)
  have untouched : ∀ other ∈ next.chronicle rest, other.key ≠ member.key := by
    intro other past named
    have lapsed := lasting other past named
    have soon := past_of_run run other past
    omega
  have written := ((turn_of_act? wrote.acted).live?_of_deed found wrote.does).2
  refine ⟨untouched, ?_⟩
  rw [live?_of_untouched run untouched (Nat.le_refl _),
    Bucket.live?_of_live limited positive written]
  exact if_pos early

/-- Once its author writes no more, nobody in the contest touches the key before the record lapses:
whoever could would have to go by its revision. -/
theorem lasting (found : contest.members[id]? = some member) (run : next.run? rest = some after)
    (silent : next.deedsOf id rest = [])
    (alone : Deed.LeftAlone member.key (deed.instant + terms.ttl) (next.chronicle rest)) :
    ∀ other ∈ next.chronicle rest, other.key = member.key →
      deed.instant + terms.ttl ≤ other.instant := by
  refine run_induction (motive := fun rest _ => next.deedsOf id rest = [] →
    Deed.LeftAlone member.key (deed.instant + terms.ttl) (next.chronicle rest) →
      ∀ other ∈ next.chronicle rest, other.key = member.key →
        deed.instant + terms.ttl ≤ other.instant) ?_ ?_ rest after run silent alone
  · intro _ _ other never
    cases never
  · intro rest middle action last onward ih turn silent alone other past named
    rw [deedsOf, chronicle_concat onward, List.filter_append] at silent
    rw [chronicle_concat onward] at alone past
    obtain ⟨quiet, still⟩ := List.append_eq_nil_iff.mp silent
    have before := ih quiet fun other old => alone other (List.mem_append_left _ old)
    rcases List.mem_append.mp past with old | new
    · exact before other old named
    · -- Up to here the record is live, so only one who goes by its revision could touch it.
      by_contra early
      have touches := Option.mem_toList.mp new
      have now := instant_of_deed? touches
      obtain ⟨untouched, live⟩ := wrote.live? found onward before (by omega)
      rw [← named] at live
      rcases author_of_live live touches with
        ⟨outside, changes⟩ | ⟨rival, holder, own, there, keyed, bears⟩
      · exact changes (alone other past named outside (Nat.not_le.mp early))
      · rw [← keyed.trans named] at untouched
        obtain rfl := wrote.eq_of_bears onward untouched there bears
        have listed : other ∈ (middle.deed? action).toList.filter (·.author = some rival) :=
          List.mem_filter.mpr ⟨new, decide_eq_true own⟩
        rw [still] at listed
        cases listed

theorem lingers (found : contest.members[id]? = some member) (run : next.run? rest = some after)
    (silent : next.deedsOf id rest = [])
    (alone : Deed.LeftAlone member.key (deed.instant + terms.ttl) (next.chronicle rest)) :
    after.Lingers member.key ⟨member.stamp, deed.revision, deed.instant⟩ (deed.instant + terms.ttl)
      (next.chronicle rest) := by
  have lasting := wrote.lasting found run silent alone
  have held (early : after.now < deed.instant + terms.ttl) :=
    (wrote.live? found run lasting early).2
  refine ⟨lasting, held, ?_⟩
  intro early value fault
  have live := (after.bucket.live?_struckBy fault after.now member.key).trans (held early)
  exact ((after.bucket.struckBy fault).performed after.now (.create member.key value)).refused live

end Wrote

/-- The lease that a call has taken or renewed before it is cut off belongs to nobody until it
lapses. -/
theorem lingers_of_late (began : Reachable terms first) (found : first.members[id]? = some member)
    (calling : member.candidate.task = .calling stage first.now)
    (flying : member.flight = some { plan })
    (limited : member.candidate.candidacy.callLimitMs = some limitMs)
    (late : Duration.ofMillis limitMs < plan.before + plan.after)
    (ran : first.run? done = some contest) (acted : contest.act? (.proceed id other) = some next)
    (does : contest.deed? (.proceed id other) = some deed)
    (room : contest.bucket.revision.toNat < Revision.last) (run : next.run? rest = some after)
    (alone : Deed.LeftAlone member.key (deed.instant + terms.ttl) (next.chronicle rest)) :
    deed.instant = first.now + plan.before ∧
      after.Lingers member.key ⟨member.stamp, deed.revision, deed.instant⟩
        (deed.instant + terms.ttl) (next.chronicle rest) := by
  obtain ⟨earlier, opened⟩ := began
  have wrote : Wrote terms (earlier ++ done) contest id other deed next :=
    ⟨run?_append opened ran, room, acted, does⟩
  obtain ⟨later, there, same, passage⟩ := passage_of_run found calling flying limited ran
  have whole : first.run? (done ++ .proceed id other :: rest) = some after := by
    rw [run?_append_eq ran, run?_cons acted]
    exact run
  have silent := deedsOf_of_single ran acted does
    (deedsOf_of_late found calling flying limited late whole)
  have key : later.key = member.key := congrArg Candidacy.key same
  have stamp : later.stamp = member.stamp :=
    congrArg (fun terms : Candidacy => terms.candidate.bytes) same
  rw [← key] at alone ⊢
  rw [← stamp]
  exact ⟨(passage.of_deed late there does).2, wrote.lingers there run silent alone⟩

end Contest

end Leasehold
