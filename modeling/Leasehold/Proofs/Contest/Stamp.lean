import Leasehold.Proofs.Contest.Tenure

set_option autoImplicit false

/-!
Whose name the record of a key bears.

As long as no third party deletes or updates it, the record of a holder bears the name of the holder.
And while the clock stands, a live record that bears the name of a member goes on bearing it, even
when the member has ceased to lead in the meantime.
-/

namespace Leasehold

def Action.Spares (key : String) (action : Action) : Prop :=
  action ≠ .perform (.delete key) ∧
    ∀ value expected, action ≠ .perform (.update key value expected)

theorem Action.spares_of_ne_perform {key : String} {action : Action}
    (idle : ∀ operation, action ≠ .perform operation) : action.Spares key :=
  ⟨idle _, fun _ _ => idle _⟩

def Member.stamp (member : Member) : Bytes := member.candidate.candidacy.candidate.bytes

namespace Contest

variable {contest next : Contest} {action : Action} {key : String} {bound id : Nat}
  {member : Member}

/-! ### The record of a holder -/

/-- The record of a key bears the name of whoever holds the lease. -/
def Stamped (contest : Contest) (key : String) : Prop :=
  ∀ (id : Nat) (member : Member), contest.members[id]? = some member → member.key = key →
    member.Holds → ∀ record, contest.bucket.record? key = some record → record.value = member.stamp

theorem Stamped.carry (stamped : contest.Stamped key) (tenure : contest.Tenure key bound)
    (paced : contest.Paced key bound)
    (carried : ∀ (id : Nat) (after : Member), next.members[id]? = some after → after.Holds →
      ∃ member, contest.members[id]? = some member ∧ member.Holds ∧
        member.candidate.candidacy = after.candidate.candidacy)
    (kept : ∀ record, contest.bucket.live? contest.now key = some record →
      next.bucket.record? key = some record) : next.Stamped key := by
  intro id after found named holds record present
  obtain ⟨member, was, held, terms⟩ := carried id after found holds
  have wasNamed : member.key = key := by
    rw [Member.key, terms]
    exact named
  obtain ⟨_, earlier, _, _, live, _⟩ := tenure.live paced was wasNamed held
  have same := kept earlier live
  rw [present] at same
  cases same
  rw [Member.stamp, ← terms]
  exact stamped id member was wasNamed held record (Bucket.live?_eq_some_iff.mp live).1

theorem Stamped.replace (stamped : contest.Stamped key) (tenure : contest.Tenure key bound)
    (paced : contest.Paced key bound) {after : Member}
    (found : contest.members[id]? = some member)
    (members : next.members = contest.members.set id after)
    (own : after.Holds → member.Holds)
    (terms : after.candidate.candidacy = member.candidate.candidacy)
    (bucket : next.bucket = contest.bucket) : next.Stamped key := by
  apply stamped.carry tenure paced
  · intro other rival foundRival holds
    rw [members] at foundRival
    rcases found_in_set foundRival with ⟨rfl, rfl⟩ | ⟨_, was⟩
    · exact ⟨member, found, own holds, terms.symm⟩
    · exact ⟨rival, was, holds, rfl⟩
  · intro record live
    rw [bucket]
    exact (Bucket.live?_eq_some_iff.mp live).1

/-- Whoever held the lease before an operation finds its record as it was, unless that was an update
of the key. -/
theorem Stamped.kept_or_updated (stamped : contest.Stamped key) (tenure : contest.Tenure key bound)
    (paced : contest.Paced key bound) {fault : Option StoreError} {operation : Operation}
    {reply : Except StoreError Reply} {bucket : Bucket} {record : Record}
    (performed : (contest.bucket.struckBy fault).Performed contest.now operation reply bucket)
    (safe : operation ≠ .delete key) (found : contest.members[id]? = some member)
    (named : member.key = key) (holds : member.Holds)
    (present : bucket.record? key = some record) :
    record.value = member.stamp ∨
      ∃ value expected, operation = .update key value expected ∧ record.value = value := by
  obtain ⟨_, earlier, _, _, live, _⟩ := tenure.live paced found named holds
  have before := (Bucket.live?_eq_some_iff.mp live).1
  rw [← contest.bucket.live?_struckBy fault] at live
  rcases performed.record?_of_live live safe with same | ⟨value, updates, _, updated⟩
  · rw [present] at same
    cases same
    exact Or.inl (stamped id member found named holds record before)
  · rw [present] at updated
    cases updated
    exact Or.inr ⟨value, earlier.revision, updates, rfl⟩

theorem Stamped.landed (stamped : contest.Stamped key) (tenure : contest.Tenure key bound)
    (paced : contest.Paced key bound) {stage : Stage} {began : Nat} {flight : Flight}
    {reply : Except StoreError Reply} {bucket : Bucket}
    (found : contest.members[id]? = some member)
    (calling : member.candidate.task = .calling stage began)
    (performed : (contest.bucket.struckBy flight.plan.fault).Performed contest.now
      (stage.call.operation member.candidate.candidacy) reply bucket) :
    Stamped { contest.put id { member with
        flight := some { flight with
          landed := some (contest.now, reply.map member.candidate.candidacy.seen) } }
      with bucket } key := by
  have safe := Call.operation_ne_delete stage.call member.candidate.candidacy key
  intro other rival foundRival named holds record present
  rcases found_in_set foundRival with ⟨rfl, rfl⟩ | ⟨apart, was⟩
  · cases holds with
    | waiting _ _ waits =>
        rw [calling] at waits
        cases waits
    | renewing held ticker since calls =>
        obtain ⟨rfl, rfl⟩ := Task.calling.inj (calling.symm.trans calls)
        have holder : member.Holds := .renewing held ticker began calling
        rcases stamped.kept_or_updated tenure paced performed safe found named holder present
          with same | ⟨value, expected, updates, fresh⟩
        · exact same
        · cases updates
          exact fresh
    | created since flown instant entry calls flying landed =>
        obtain ⟨rfl, rfl⟩ := Task.calling.inj (calling.symm.trans calls)
        cases flying
        obtain ⟨answered, rfl⟩ := ok_of_map_seen (Prod.mk.inj (Option.some.inj landed)).2
        obtain ⟨_, _, written⟩ := performed.of_created
        obtain rfl : member.candidate.candidacy.key = key := named
        rw [present] at written
        cases written
        rfl
  · rcases stamped.kept_or_updated tenure paced performed safe was named holds present
      with same | ⟨value, expected, updates, fresh⟩
    · exact same
    · cases stage with
      | electing | following => cases updates
      | leading held ticker =>
          have mine : member.key = key := (Operation.update.inj updates).1
          have holder : member.Holds := .renewing held ticker began calling
          exact absurd (tenure.sole other id rival member was found named mine holds holder) apart

theorem Stamped.turn (stamped : contest.Stamped key) (tenure : contest.Tenure key bound)
    (paced : contest.Paced key bound) (spares : action.Spares key)
    (turn : Turn contest action next) : next.Stamped key := by
  have live (record : Record) (shown : contest.bucket.live? contest.now key = some record) :
      contest.bucket.record? key = some record := (Bucket.live?_eq_some_iff.mp shown).1
  cases turn with
  | joined candidacy accepted =>
      refine stamped.carry tenure paced ?_ live
      intro id after found holds
      rcases found_in_concat found with was | rfl
      · exact ⟨after, was, holds, rfl⟩
      · exact absurd holds (Member.not_holds_of_joined candidacy)
  | started id context member found fresh =>
      refine stamped.replace tenure paced found rfl ?_ rfl rfl
      exact fun holds => absurd holds (member.not_holds_of_started context)
  | ignored | cancelled | injected | passed => exact stamped
  | stopped id member found | deafened id member found =>
      exact stamped.replace tenure paced found rfl (fun holds => holds.of_same_work rfl rfl) rfl rfl
  | performed operation reply bucket performed =>
      refine stamped.carry tenure paced (fun id after found holds => ⟨after, found, holds, rfl⟩) ?_
      intro record shown
      rcases performed.record?_of_live shown (fun same => spares.1 (same ▸ rfl))
        with same | ⟨value, updates, _⟩
      · exact same
      · exact absurd (congrArg Action.perform updates) (spares.2 value record.revision)
  | called id plan member stage following found between moved =>
      exact stamped.replace tenure paced found rfl (fun holds => holds.of_called between moved) rfl rfl
  | quit id plan member stage outcome found between moved =>
      refine stamped.replace tenure paced found rfl ?_ (Candidate.candidacy_finish _ _) rfl
      exact fun holds => absurd holds (Member.not_holds_of_ended rfl)
  | abandoned id plan member stage found between moved =>
      refine stamped.replace tenure paced found rfl ?_ rfl rfl
      exact fun holds => absurd holds (Member.not_holds_of_ended rfl)
  | landed id plan member stage began flight reply bucket found calling flying aloft arrived
      performed =>
      exact stamped.landed tenure paced found calling performed
  | answered id plan member stage began flight landedAt answer found calling flying landed =>
      exact stamped.replace tenure paced found rfl
        (fun holds => holds.of_answered calling flying landed) (Candidate.candidacy_settle _ _ _ _) rfl
  | cutOff id plan member stage began flight limit found calling flying =>
      refine stamped.replace tenure paced found rfl ?_ (Candidate.candidacy_settle _ _ _ _) rfl
      intro holds
      exact absurd holds (Member.not_holds_of_ended (by
        simp only [Candidate.settle_timeout, Candidate.task_finish]))

theorem stamped_of_run {terms : BucketTerms} {actions : List Action}
    (run : (opening terms).run? actions = some contest)
    (spared : ∀ action ∈ actions, action.Spares key) (paced : contest.Paced key bound) :
    contest.Stamped key := by
  refine run_induction (motive := fun actions contest =>
    (∀ action ∈ actions, action.Spares key) → contest.Paced key bound → contest.Stamped key)
    ?_ ?_ actions contest run spared paced
  · intro _ _ id member found
    cases found
  · intro actions contest action next ran ih turn spared paced
    have sparedBefore (earlier : Action) (done : earlier ∈ actions) : earlier.Spares key :=
      spared earlier (List.mem_append_left _ done)
    have pacedBefore := paced.before turn
    have tenure := tenure_of_run actions contest ran
      (fun deleted => (sparedBefore _ deleted).1 rfl) pacedBefore
    exact (ih sparedBefore pacedBefore).turn tenure pacedBefore
      (spared action (List.mem_append_right _ List.mem_cons_self)) turn

/-! ### A name that is shown -/

def Shows (contest : Contest) (key : String) (id : Nat) : Prop :=
  ∃ member record, contest.members[id]? = some member ∧ member.key = key ∧
    contest.bucket.live? contest.now key = some record ∧ record.value = member.stamp

theorem shows_of_holds (tenure : contest.Tenure key bound) (paced : contest.Paced key bound)
    (stamped : contest.Stamped key) (found : contest.members[id]? = some member)
    (named : member.key = key) (holds : member.Holds) : contest.Shows key id := by
  obtain ⟨_, record, _, _, live, _⟩ := tenure.live paced found named holds
  exact ⟨member, record, found, named, live,
    stamped id member found named holds record (Bucket.live?_eq_some_iff.mp live).1⟩

/-- A live record outlives a turn that spares its key, as it is or renewed by a member that leads
under its revision. -/
theorem Turn.record_cases (turn : Turn contest action next) (spares : action.Spares key)
    {record : Record} (live : contest.bucket.live? contest.now key = some record) :
    next.bucket.record? key = some record ∨
      ∃ id plan member ticker began, action = .proceed id plan ∧
        contest.members[id]? = some member ∧ member.key = key ∧
        member.candidate.task = .calling (.leading record.revision ticker) began ∧
        next.bucket.record? key =
          some ⟨member.stamp, contest.bucket.revision.next, contest.now⟩ := by
  have present := (Bucket.live?_eq_some_iff.mp live).1
  cases turn with
  | performed operation reply bucket performed =>
      rcases performed.record?_of_live live (fun same => spares.1 (same ▸ rfl))
        with same | ⟨value, updates, _⟩
      · exact Or.inl same
      · exact absurd (congrArg Action.perform updates) (spares.2 value record.revision)
  | landed id plan member stage began flight reply bucket found calling flying aloft arrived
      performed =>
      have shown := live
      rw [← contest.bucket.live?_struckBy flight.plan.fault] at shown
      rcases performed.record?_of_live shown
        (Call.operation_ne_delete stage.call member.candidate.candidacy key)
        with same | ⟨value, updates, _, updated⟩
      · exact Or.inl same
      · rw [Bucket.revision_struckBy] at updated
        cases stage with
        | electing | following => cases updates
        | leading held ticker =>
            obtain ⟨rfl, rfl, rfl⟩ := Operation.update.inj updates
            exact Or.inr ⟨id, plan, member, ticker, began, rfl, found, rfl, calling, updated⟩
  | joined | started | ignored | stopped | deafened | cancelled | injected | called | quit
  | abandoned | answered | cutOff | passed => exact Or.inl present

/-- Within an instant a live record keeps its value: nobody can create another one, and whoever
renews it holds the lease, so that it bears the same name before and after. -/
theorem Turn.value_kept (turn : Turn contest action next) (stamped : contest.Stamped key)
    (spares : action.Spares key) {record : Record}
    (live : contest.bucket.live? contest.now key = some record) :
    ∃ later, next.bucket.record? key = some later ∧ later.value = record.value ∧
      (later = record ∨ later.writtenAt = contest.now) := by
  have present := (Bucket.live?_eq_some_iff.mp live).1
  rcases turn.record_cases spares live with
    same | ⟨id, _, member, ticker, began, _, found, named, calling, renewed⟩
  · exact ⟨record, same, rfl, Or.inl rfl⟩
  · have bears := stamped id member found named (.renewing _ ticker began calling) record present
    exact ⟨_, renewed, bears.symm, Or.inr rfl⟩

theorem Turn.shows (turn : Turn contest action next) (stamped : contest.Stamped key)
    (spares : action.Spares key) (stands : next.now = contest.now)
    (shows : contest.Shows key id) : next.Shows key id := by
  obtain ⟨member, record, found, named, live, value⟩ := shows
  obtain ⟨after, foundAfter, terms, _⟩ := turn.persists found
  obtain ⟨later, present, same, unchanged⟩ := turn.value_kept stamped spares live
  have stamp : after.stamp = member.stamp :=
    congrArg (fun terms : Candidacy => terms.candidate.bytes) terms
  have going : next.bucket.expired next.now later = false := by
    rw [stands, Bucket.expired_congr turn.terms_eq]
    rcases unchanged with rfl | fresh
    · exact (Bucket.live?_eq_some_iff.mp live).2
    · exact Bucket.expired_of_fresh fresh
  exact ⟨after, later, foundAfter, (congrArg Candidacy.key terms).trans named,
    Bucket.live?_eq_some_iff.mpr ⟨present, going⟩, same.trans (value.trans stamp.symm)⟩

end Contest

end Leasehold
