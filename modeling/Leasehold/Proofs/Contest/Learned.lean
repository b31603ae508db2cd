import Leasehold.Proofs.Contest.Renumbering

set_option autoImplicit false

/-!
Where the revisions that a bucket tells come from.

As long as no failure is injected, a result on a key only tells revisions under which that key has been
written, whoever has written it. The calls of members remember their results, so this is an invariant.
-/

namespace Leasehold

inductive Tells : Except StoreError Reply → Revision → Prop
  | found (entry : Entry) : Tells (.ok (.found entry)) entry.revision
  | written (revision : Revision) : Tells (.ok (.written revision)) revision
  | moved (key : String) (expected actual : Revision) :
      Tells (.error (.wrongRevision key expected (some actual))) actual

/-- A revision that a call has been told, whether or not its answer has come back. -/
def Lands (landed : Option (Nat × Except StoreError Entry)) (revision : Revision) : Prop :=
  ∃ instant answer, landed = some (instant, answer) ∧ Tells (answer.map .found) revision

theorem Tells.of_seen {candidacy : Candidacy} {reply : Except StoreError Reply} {revision : Revision}
    (tells : Tells ((reply.map candidacy.seen).map .found) revision) (kept : reply ≠ .ok .removed) :
    Tells reply revision := by
  cases reply with
  | error cause =>
      cases tells
      exact .moved _ _ revision
  | ok answered =>
      cases answered with
      | found entry =>
          cases tells
          exact .found entry
      | written given =>
          cases tells
          exact .written given
      | removed => exact absurd rfl kept

theorem Bucket.Performed.ne_removed {bucket after : Bucket} {now : Nat} {operation : Operation}
    {reply : Except StoreError Reply} (performed : bucket.Performed now operation reply after)
    (keeps : ∀ key, operation ≠ .delete key) : reply ≠ .ok .removed := by
  cases performed with
  | deleted key => exact absurd rfl (keeps key)
  | _ => intro same; cases same

namespace Contest

variable {contest next : Contest} {action : Action} {past : List Deed} {id : Nat} {member : Member}
  {revision : Revision}

/-- What a result tells has been given out by a write of the key. -/
theorem Annals.given_of_tells {author : Option Nat} {operation : Operation}
    {reply : Except StoreError Reply} {after : Bucket} (annals : contest.Annals past)
    (calm : contest.bucket.injected = none)
    (performed : contest.bucket.Performed contest.now operation reply after)
    (tells : Tells reply revision) :
    Deed.Given (past ++ (Deed.of? author operation reply after contest.now).toList) operation.key
      revision := by
  have counter (key : String) (value : Bytes) :
      ((contest.bucket.purge contest.now key).write contest.now key value).2.revision =
        contest.bucket.revision.next := congrArg Revision.next Bucket.revision_purge
  have wrote {kind : Deed.Kind} (does : operation.kind? = some kind) (writes : kind ≠ .removed)
      (stamp : after.revision = revision) {answered : Reply} (ok : reply = .ok answered) :
      Deed.Given (past ++ (Deed.of? author operation reply after contest.now).toList) operation.key
        revision := by
    rw [ok, Bucket.of?_of_ok does]
    exact ⟨_, Deed.mem_writes.mpr ⟨List.mem_append_right _ (List.mem_singleton_self _), rfl, writes⟩,
      stamp⟩
  cases performed with
  | struck _ failure waiting =>
      rw [calm] at waiting
      cases waiting
  | found key record _ live =>
      cases tells
      exact (annals.given_of_record (Bucket.live?_eq_some_iff.mp live).1).before
  | stale key value expected record _ live =>
      cases tells
      exact (annals.given_of_record (Bucket.live?_eq_some_iff.mp live).1).before
  | created key value =>
      cases tells
      exact wrote rfl Deed.Kind.noConfusion (counter key value) rfl
  | updated key value record =>
      cases tells
      exact wrote rfl Deed.Kind.noConfusion (counter key value) rfl
  | missing | taken | gone | deleted => cases tells

/-! ### What members have been told -/

structure Learned (contest : Contest) (history : List Deed) : Prop where
  flying : ∀ (id : Nat) (member : Member) (flight : Flight) (revision : Revision),
    contest.members[id]? = some member → member.flight = some flight →
      Lands flight.landed revision → Deed.Given history member.key revision
  recorded : ∀ record ∈ contest.calls, ∃ member, contest.members[record.member]? = some member ∧
    ∀ revision, Lands record.landed revision → Deed.Given history member.key revision

/-- A call is told only what the key has been written under. -/
theorem Annals.given_of_landed {stage : Stage} {began : Nat} {flight : Flight}
    {reply : Except StoreError Reply} {bucket : Bucket} (annals : contest.Annals past) (plan : Plan)
    (calm : contest.Calm) (found : contest.members[id]? = some member)
    (calling : member.candidate.task = .calling stage began) (flying : member.flight = some flight)
    (aloft : flight.landed = none) (arrived : Member.progressAt began flight ≤ contest.now)
    (performed : (contest.bucket.struckBy flight.plan.fault).Performed contest.now
      (stage.call.operation member.candidate.candidacy) reply bucket)
    (tells : Tells ((reply.map member.candidate.candidacy.seen).map .found) revision) :
    Deed.Given (past ++ (contest.deed? (.proceed id plan)).toList) member.key revision := by
  have keeps := Call.operation_ne_delete stage.call member.candidate.candidacy
  have told := tells.of_seen (performed.ne_removed keeps)
  rw [deed?_of_landed found calling flying aloft arrived performed]
  rw [calm.unplanned id member found flight flying] at performed
  have given := @annals.given_of_tells _ _ _ (some id) _ _ _ calm.injected performed told
  rwa [Call.key_operation] at given

theorem Learned.turn (learned : contest.Learned past) (annals : contest.Annals past)
    (calm : contest.Calm) (turn : Turn contest action next) :
    next.Learned (past ++ (contest.deed? action).toList) where
  flying := by
    intro id after flight revision found flying lands
    rcases turn.member_cases found with ⟨candidacy, _, rfl⟩ | ⟨member, was, step⟩
    · cases flying
    · have old (flies : member.flight = some flight) :
          Deed.Given (past ++ (contest.deed? action).toList) after.key revision := by
        have given := learned.flying id member flight revision was flies lands
        rw [Member.key, ← step.candidacy_eq] at given
        exact given.before
      cases step with
      | kept _ _ _ _ _ _ _ same => exact old (same ▸ flying)
      | started | passed => exact old flying
      | called =>
          cases flying
          obtain ⟨_, _, never, _⟩ := lands
          cases never
      | left _ _ _ _ _ _ grounded =>
          rw [grounded] at flying
          cases flying
      | landed plan stage began flown reply bucket _ calling flies aloft arrived performed =>
          cases flying
          obtain ⟨_, _, same, tells⟩ := lands
          cases same
          have given :=
            annals.given_of_landed plan calm was calling flies aloft arrived performed tells
          exact given
      | answered | cutOff => cases flying
  recorded := by
    have stays {id : Nat} {member : Member} {landed : Option (Nat × Except StoreError Entry)}
        (found : contest.members[id]? = some member)
        (given : ∀ revision, Lands landed revision → Deed.Given past member.key revision) :
        ∃ after, next.members[id]? = some after ∧ ∀ revision, Lands landed revision →
          Deed.Given (past ++ (contest.deed? action).toList) after.key revision := by
      obtain ⟨after, there, terms, _⟩ := turn.persists found
      refine ⟨after, there, ?_⟩
      intro revision lands
      rw [Member.key, terms]
      exact (given revision lands).before
    intro record present
    have old (was : record ∈ contest.calls) :
        ∃ after, next.members[record.member]? = some after ∧ ∀ revision,
          Lands record.landed revision →
            Deed.Given (past ++ (contest.deed? action).toList) after.key revision := by
      obtain ⟨member, found, given⟩ := learned.recorded record was
      exact stays found given
    cases turn with
    | answered id plan member stage began flight landedAt answer found calling flying landed =>
        rcases List.mem_cons.mp present with rfl | was
        · refine stays found fun revision lands => ?_
          exact learned.flying id member flight revision found flying (landed ▸ lands)
        · exact old was
    | cutOff id plan member stage began flight limit found calling flying =>
        rcases List.mem_cons.mp present with rfl | was
        · exact stays found fun revision => learned.flying id member flight revision found flying
        · exact old was
    | _ => exact old present

theorem learned_of_run {terms : BucketTerms} {actions : List Action}
    (run : (opening terms).run? actions = some contest)
    (room : contest.bucket.revision.toNat < Revision.last) (faultless : Faultless actions) :
    contest.Learned ((opening terms).chronicle actions) := by
  refine run_induction (motive := fun actions contest =>
    contest.bucket.revision.toNat < Revision.last → Faultless actions →
      contest.Learned ((opening terms).chronicle actions)) ?_ ?_ actions contest run room faultless
  · intro _ _
    constructor
    · intro _ _ _ _ never
      cases never
    · intro _ never
      cases never
  · intro actions contest action next ran ih turn room faultless
    have earlier := Nat.lt_of_le_of_lt turn.revision_le room
    obtain ⟨injected, unplanned⟩ := calm_of_faultless rfl (fun _ never => by cases never) ran
      faultless.before
    rw [chronicle_concat ran]
    exact (ih earlier faultless.before).turn (annals_of_run ran earlier) ⟨injected, unplanned⟩ turn

end Contest

end Leasehold
