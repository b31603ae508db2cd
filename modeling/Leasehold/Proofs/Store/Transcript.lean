import Mathlib.Data.List.Induction
import Mathlib.Data.List.Nodup
import Leasehold.Store.Session
import Leasehold.Proofs.Store.Deed

set_option autoImplicit false

/-!
What a bucket answers follows from the history of a key: its latest write, what was deleted since,
and how much time has passed.

The bucket keeps one record for each key and one counter for all of them. `Session.Answers` says the
same without either. As long as the counter has room, no revision is ever spent twice: whoever
updates under the revision of a record is the only one to do so, even if the key is deleted and
created again.
-/

namespace Leasehold

structure Exchange where
  operation : Operation
  reply : Except StoreError Reply
  instant : Nat

namespace Exchange

def wrote? (exchange : Exchange) (key : String) : Option Record :=
  match exchange.operation, exchange.reply with
  | .create name value, .ok (.written revision) | .update name value _, .ok (.written revision) =>
      if name = key then some ⟨value, revision, exchange.instant⟩ else none
  | _, _ => none

def Deletes (exchange : Exchange) (key : String) : Prop :=
  exchange.operation = .delete key ∧ exchange.reply = .ok .removed

def spent? (exchange : Exchange) : Option Revision :=
  match exchange.operation, exchange.reply with
  | .update _ _ expected, .ok _ => some expected
  | _, _ => none

end Exchange

structure LastWrite (history : List Exchange) (key : String) (write : Record)
    (since : List Exchange) : Prop where
  split : ∃ earlier exchange, history = earlier ++ exchange :: since ∧
    exchange.wrote? key = some write
  last : ∀ exchange ∈ since, exchange.wrote? key = none

def BucketTerms.Lasts (terms : BucketTerms) (since now : Nat) : Prop :=
  terms.ttl = 0 ∨ now < since + terms.ttl

namespace Session

def exchange? (session : Session) : Event → Option Exchange
  | .perform operation =>
      some ⟨operation, (session.bucket.perform session.now operation).1, session.now⟩
  | .inject _ | .pass _ => none

def transcript (session : Session) : List Event → List Exchange
  | [] => []
  | event :: rest =>
      (session.exchange? event).toList ++ (session.step event).2.transcript rest

def opening (terms : BucketTerms) : Session := { bucket := { terms } }

structure Answers (session : Session) (history : List Exchange) : Prop where
  update : ∀ key value expected,
    (∃ revision, (session.bucket.perform session.now (.update key value expected)).1 =
        .ok (.written revision)) ↔
      ∃ write since, LastWrite history key write since ∧ write.revision = expected ∧
        (∀ exchange ∈ since, ¬exchange.Deletes key) ∧
        session.bucket.terms.Lasts write.writtenAt session.now
  create : ∀ key value,
    (∃ revision, (session.bucket.perform session.now (.create key value)).1 =
        .ok (.written revision)) ↔
      (∀ exchange ∈ history, exchange.wrote? key = none) ∨
        ∃ write since, LastWrite history key write since ∧
          ((∃ exchange ∈ since, exchange.Deletes key) ∨
            ¬session.bucket.terms.Lasts write.writtenAt session.now)
  get : ∀ key value,
    (∃ write since, LastWrite history key write since ∧
        (session.bucket.perform session.now (.get key)).1 =
          .ok (.found ⟨key, write.value, write.revision⟩)) ↔
      ∃ cause, (session.bucket.perform session.now (.create key value)).1 = .error cause
  missing : ∀ key value,
    (session.bucket.perform session.now (.get key)).1 = .error (.keyNotFound key) ↔
      ∃ revision, (session.bucket.perform session.now (.create key value)).1 =
        .ok (.written revision)

end Session

/-! ### The latest write when a history goes on -/

section Concat

variable {history since : List Exchange} {exchange : Exchange} {key : String} {write : Record}

theorem lastWrite_concat_of_wrote (wrote : exchange.wrote? key = some write) :
    LastWrite (history ++ [exchange]) key write [] :=
  ⟨⟨history, exchange, rfl, wrote⟩, fun _ never => by cases never⟩

theorem LastWrite.concat (lastWrite : LastWrite history key write since)
    (idle : exchange.wrote? key = none) :
    LastWrite (history ++ [exchange]) key write (since ++ [exchange]) where
  split := by
    obtain ⟨earlier, writing, split, wrote⟩ := lastWrite.split
    refine ⟨earlier, writing, ?_, wrote⟩
    rw [split, List.append_assoc, List.cons_append]
  last := by
    intro other present
    rcases List.mem_append.mp present with old | new
    · exact lastWrite.last other old
    · rw [List.mem_singleton.mp new]
      exact idle

/-- The latest write of a history that has just gone on is its last exchange or was the latest
before. -/
theorem LastWrite.of_concat (lastWrite : LastWrite (history ++ [exchange]) key write since) :
    (exchange.wrote? key = some write ∧ since = []) ∨
      exchange.wrote? key = none ∧
        ∃ before, since = before ++ [exchange] ∧ LastWrite history key write before := by
  obtain ⟨⟨earlier, writing, split, wrote⟩, last⟩ := lastWrite
  rcases List.eq_nil_or_concat since with rfl | ⟨before, newest, rfl⟩
  · obtain ⟨_, same⟩ := List.append_inj' split rfl
    obtain rfl := List.singleton_inj.mp same
    exact Or.inl ⟨wrote, rfl⟩
  · rw [List.concat_eq_append] at *
    rw [← List.cons_append, ← List.append_assoc] at split
    obtain ⟨whole, same⟩ := List.append_inj' split rfl
    obtain rfl := List.singleton_inj.mp same
    refine Or.inr ⟨last exchange (List.mem_append_right _ List.mem_cons_self), before, rfl,
      ⟨earlier, writing, whole, wrote⟩, ?_⟩
    exact fun other present => last other (List.mem_append_left _ present)

theorem lastWrite_or_unwritten (history : List Exchange) (key : String) :
    (∀ exchange ∈ history, exchange.wrote? key = none) ∨
      ∃ write since, LastWrite history key write since := by
  induction history using List.reverseRecOn with
  | nil => exact Or.inl fun _ never => by cases never
  | append_singleton history exchange ih =>
      cases wrote : exchange.wrote? key with
      | some write => exact Or.inr ⟨write, [], lastWrite_concat_of_wrote wrote⟩
      | none =>
          rcases ih with unwritten | ⟨write, since, lastWrite⟩
          · refine Or.inl fun other present => ?_
            rcases List.mem_append.mp present with old | new
            · exact unwritten other old
            · rw [List.mem_singleton.mp new]
              exact wrote
          · exact Or.inr ⟨write, since ++ [exchange], lastWrite.concat wrote⟩

theorem LastWrite.unique {other : Record} {after : List Exchange}
    (lastWrite : LastWrite history key write since) (rival : LastWrite history key other after) :
    write = other ∧ since = after := by
  induction history using List.reverseRecOn generalizing since after with
  | nil =>
      obtain ⟨earlier, writing, split, _⟩ := lastWrite.split
      exact absurd split (by simp)
  | append_singleton history exchange ih =>
      rcases lastWrite.of_concat with ⟨wrote, rfl⟩ | ⟨idle, before, rfl, earlier⟩
      · rcases rival.of_concat with ⟨wroteOther, rfl⟩ | ⟨idle, _⟩
        · exact ⟨Option.some.inj (wrote.symm.trans wroteOther), rfl⟩
        · rw [wrote] at idle
          cases idle
      · rcases rival.of_concat with ⟨wroteOther, _⟩ | ⟨_, beforeOther, rfl, earlierOther⟩
        · rw [idle] at wroteOther
          cases wroteOther
        · obtain ⟨same, rfl⟩ := ih earlier earlierOther
          exact ⟨same, rfl⟩

/-! ### What a history leaves standing -/

def Stands (history : List Exchange) (key : String) (write : Record) : Prop :=
  ∃ since, LastWrite history key write since ∧ ∀ exchange ∈ since, ¬exchange.Deletes key

theorem not_stands_of_unwritten (unwritten : ∀ exchange ∈ history, exchange.wrote? key = none) :
    ¬Stands history key write := by
  rintro ⟨since, ⟨⟨earlier, writing, rfl, wrote⟩, _⟩, _⟩
  rw [unwritten writing (List.mem_append_right _ List.mem_cons_self)] at wrote
  cases wrote

theorem stands_concat_of_wrote {written : Record} (wrote : exchange.wrote? key = some written) :
    Stands (history ++ [exchange]) key write ↔ written = write := by
  constructor
  · rintro ⟨since, lastWrite, _⟩
    exact ((lastWrite_concat_of_wrote wrote).unique lastWrite).1
  · rintro rfl
    exact ⟨[], lastWrite_concat_of_wrote wrote, fun _ never => by cases never⟩

theorem stands_concat_of_idle (idle : exchange.wrote? key = none) :
    Stands (history ++ [exchange]) key write ↔
      Stands history key write ∧ ¬exchange.Deletes key := by
  constructor
  · rintro ⟨since, lastWrite, kept⟩
    rcases lastWrite.of_concat with ⟨wrote, _⟩ | ⟨_, before, rfl, earlier⟩
    · rw [idle] at wrote
      cases wrote
    · refine ⟨⟨before, earlier, ?_⟩, kept exchange (List.mem_append_right _ List.mem_cons_self)⟩
      exact fun other present => kept other (List.mem_append_left _ present)
  · rintro ⟨⟨since, lastWrite, kept⟩, keeps⟩
    refine ⟨since ++ [exchange], lastWrite.concat idle, ?_⟩
    intro other present
    rcases List.mem_append.mp present with old | new
    · exact kept other old
    · rw [List.mem_singleton.mp new]
      exact keeps

end Concat

namespace Bucket

variable {bucket after : Bucket} {now : Nat} {operation : Operation}
  {reply : Except StoreError Reply} {key : String} {record : Record} {history : List Exchange}

theorem expired_eq_false_iff_lasts :
    bucket.expired now record = false ↔ bucket.terms.Lasts record.writtenAt now := by
  by_cases forever : bucket.terms.ttl = 0
  · have unlimited : bucket.terms.ttl? = none := if_pos forever
    refine iff_of_true ?_ (Or.inl forever)
    simp only [expired, unlimited]
  · have limited : bucket.terms.ttl? = some bucket.terms.ttl := if_neg forever
    rw [expired_eq_false_iff limited]
    unfold BucketTerms.Lasts
    omega

/-- What is live under each key is what the history leaves standing, unless it has run out. -/
def Reflects (bucket : Bucket) (now : Nat) (history : List Exchange) : Prop :=
  ∀ key record, bucket.live? now key = some record ↔
    Stands history key record ∧ bucket.terms.Lasts record.writtenAt now

theorem Reflects.later {later : Nat} (reflects : bucket.Reflects now history)
    (passed : now ≤ later) : bucket.Reflects later history := by
  intro key record
  rw [live?_later_iff passed, reflects key record, expired_eq_false_iff_lasts]
  unfold BucketTerms.Lasts
  constructor
  · rintro ⟨⟨stands, _⟩, lasts⟩
    exact ⟨stands, lasts⟩
  · rintro ⟨stands, lasts⟩
    exact ⟨⟨stands, by omega⟩, lasts⟩

theorem wrote?_of_ne {exchange : Exchange} (apart : key ≠ exchange.operation.key) :
    exchange.wrote? key = none ∧ ¬exchange.Deletes key := by
  obtain ⟨operation, reply, instant⟩ := exchange
  refine ⟨?_, fun deletes => apart (by rw [deletes.1]; rfl)⟩
  unfold Exchange.wrote?
  split
  · rename_i name value revision writes answered
    obtain rfl : operation = .create name value := writes
    exact if_neg (Ne.symm apart)
  · rename_i name value expected revision writes answered
    obtain rfl : operation = .update name value expected := writes
    exact if_neg (Ne.symm apart)
  · rfl

theorem Reflects.performed (reflects : bucket.Reflects now history)
    (performed : bucket.Performed now operation reply after) :
    after.Reflects now (history ++ [⟨operation, reply, now⟩]) := by
  intro key record
  rw [performed.terms_eq]
  by_cases same : key = operation.key
  · subst same
    have unchanged (idle : Exchange.wrote? ⟨operation, reply, now⟩ operation.key = none)
        (keeps : ¬Exchange.Deletes ⟨operation, reply, now⟩ operation.key)
        (live : after.live? now operation.key = bucket.live? now operation.key) :
        after.live? now operation.key = some record ↔
          Stands (history ++ [⟨operation, reply, now⟩]) operation.key record ∧
            bucket.terms.Lasts record.writtenAt now := by
      rw [live, reflects, stands_concat_of_idle idle, and_iff_left keeps]
    have written (value : Bytes) (revision : Revision)
        (wrote : Exchange.wrote? ⟨operation, reply, now⟩ operation.key =
          some ⟨value, revision, now⟩)
        (live : after.live? now operation.key = some ⟨value, revision, now⟩) :
        after.live? now operation.key = some record ↔
          Stands (history ++ [⟨operation, reply, now⟩]) operation.key record ∧
            bucket.terms.Lasts record.writtenAt now := by
      rw [live, stands_concat_of_wrote wrote, Option.some.injEq]
      refine (and_iff_left_of_imp ?_).symm
      rintro rfl
      exact expired_eq_false_iff_lasts.mp (expired_of_fresh rfl)
    have live := performed.live?_eq
    cases performed with
    | struck =>
        refine unchanged ?_ (fun deletes => by cases deletes.2) ?_
        · cases operation <;> rfl
        · cases operation <;> exact live
    | found | missing | taken | stale | gone =>
        exact unchanged rfl (fun deletes => by cases deletes.1) live
    | created key value | updated key value =>
        exact written value bucket.revision.next (if_pos rfl) live
    | deleted key =>
        have idle : Exchange.wrote? ⟨.delete key, .ok .removed, now⟩ key = none := rfl
        refine iff_of_false ?_ ?_
        · rw [live]
          exact fun never => by cases never
        · rw [show Operation.key (.delete key) = key from rfl, stands_concat_of_idle idle]
          exact fun stands => stands.1.2 ⟨rfl, rfl⟩
  · obtain ⟨idle, keeps⟩ : Exchange.wrote? ⟨operation, reply, now⟩ key = none ∧
        ¬Exchange.Deletes ⟨operation, reply, now⟩ key := wrote?_of_ne same
    rw [performed.live?_of_ne now same, reflects, stands_concat_of_idle idle, and_iff_left keeps]

/-! ### Revisions that are spent -/

structure Unspent (bucket : Bucket) (now : Nat) (spent : List Revision) : Prop where
  counted : ∀ key record, bucket.live? now key = some record →
    record.revision.toNat ≤ bucket.revision.toNat
  apart : ∀ key other record rival, bucket.live? now key = some record →
    bucket.live? now other = some rival → record.revision = rival.revision → key = other
  bounded : ∀ revision ∈ spent, revision.toNat ≤ bucket.revision.toNat
  kept : ∀ key record, bucket.live? now key = some record → record.revision ∉ spent
  once : spent.Nodup

namespace Unspent

variable {spent : List Revision}

theorem shrink {later : Nat} (unspent : bucket.Unspent now spent)
    (counter : after.revision = bucket.revision)
    (fewer : ∀ key record, after.live? later key = some record →
      bucket.live? now key = some record) : after.Unspent later spent where
  counted := by
    intro key record live
    rw [counter]
    exact unspent.counted key record (fewer key record live)
  apart := fun key other record rival live liveOther =>
    unspent.apart key other record rival (fewer key record live) (fewer other rival liveOther)
  bounded := by
    rw [counter]
    exact unspent.bounded
  kept := fun key record live => unspent.kept key record (fewer key record live)
  once := unspent.once

/-- A write gives its key a revision that is higher than all before. -/
theorem wrote {value : Bytes} {extra : List Revision} (unspent : bucket.Unspent now spent)
    (room : bucket.revision.toNat < Revision.last)
    (counter : after.revision = bucket.revision.next)
    (here : after.live? now key = some ⟨value, bucket.revision.next, now⟩)
    (elsewhere : ∀ other, other ≠ key → after.live? now other = bucket.live? now other)
    (spends : extra = [] ∨ ∃ record, bucket.live? now key = some record ∧
      extra = [record.revision]) : after.Unspent now (spent ++ extra) := by
  have grown : bucket.revision.next.toNat = bucket.revision.toNat + 1 := by
    rw [Revision.toNat_next]
    omega
  have young {other : String} {record : Record} (live : bucket.live? now other = some record) :
      record.revision ≠ bucket.revision.next := by
    intro same
    have old := unspent.counted other record live
    rw [same, grown] at old
    omega
  have bounded : ∀ revision ∈ spent ++ extra, revision.toNat ≤ bucket.revision.toNat := by
    intro revision present
    rcases List.mem_append.mp present with old | new
    · exact unspent.bounded revision old
    · rcases spends with rfl | ⟨record, live, rfl⟩
      · cases new
      · rw [List.mem_singleton.mp new]
        exact unspent.counted key record live
  constructor
  · intro other record live
    rw [counter, grown]
    by_cases same : other = key
    · subst same
      rw [here] at live
      cases live
      exact Nat.le_of_eq grown
    · rw [elsewhere other same] at live
      exact Nat.le_succ_of_le (unspent.counted other record live)
  · intro one other record rival live liveOther same
    by_cases isKey : one = key <;> by_cases isKeyOther : other = key
    · rw [isKey, isKeyOther]
    · subst isKey
      rw [here] at live
      rw [elsewhere other isKeyOther] at liveOther
      cases live
      exact absurd same.symm (young liveOther)
    · subst isKeyOther
      rw [here] at liveOther
      rw [elsewhere one isKey] at live
      cases liveOther
      exact absurd same (young live)
    · rw [elsewhere one isKey] at live
      rw [elsewhere other isKeyOther] at liveOther
      exact unspent.apart one other record rival live liveOther same
  · intro revision present
    rw [counter, grown]
    exact Nat.le_succ_of_le (bounded revision present)
  · intro other record live spentIt
    by_cases same : other = key
    · subst same
      rw [here] at live
      cases live
      have old := bounded _ spentIt
      rw [grown] at old
      omega
    · rw [elsewhere other same] at live
      rcases List.mem_append.mp spentIt with old | new
      · exact unspent.kept other record live old
      · rcases spends with rfl | ⟨mine, was, rfl⟩
        · cases new
        · exact same (unspent.apart other key record mine live was (List.mem_singleton.mp new))
  · rcases spends with rfl | ⟨record, live, rfl⟩
    · rw [List.append_nil]
      exact unspent.once
    · rw [List.nodup_append]
      refine ⟨unspent.once, List.nodup_singleton _, ?_⟩
      intro revision old other new same
      rw [List.mem_singleton.mp new] at same
      exact unspent.kept key record live (same ▸ old)

theorem performed (unspent : bucket.Unspent now spent)
    (room : bucket.revision.toNat < Revision.last)
    (performed : bucket.Performed now operation reply after) :
    after.Unspent now (spent ++ (Exchange.spent? ⟨operation, reply, now⟩).toList) := by
  have elsewhere (other : String) (apart : other ≠ operation.key) :=
    performed.live?_of_ne now apart
  have here := performed.live?_eq
  have idle (counter : after.revision = bucket.revision)
      (quiet : Exchange.spent? ⟨operation, reply, now⟩ = none)
      (fewer : after.live? now operation.key = bucket.live? now operation.key ∨
        after.live? now operation.key = none) :
      after.Unspent now (spent ++ (Exchange.spent? ⟨operation, reply, now⟩).toList) := by
    rw [quiet, Option.toList_none, List.append_nil]
    refine unspent.shrink counter ?_
    intro other record live
    by_cases same : other = operation.key
    · subst same
      rcases fewer with kept | gone
      · exact kept ▸ live
      · rw [gone] at live
        cases live
    · exact elsewhere other same ▸ live
  cases performed with
  | struck =>
      refine idle rfl ?_ (Or.inl ?_)
      · cases operation <;> rfl
      · cases operation <;> exact here
  | found | missing | taken | stale | gone => exact idle revision_purge rfl (Or.inl here)
  | created key value =>
      exact unspent.wrote room (congrArg Revision.next revision_purge) here elsewhere (Or.inl rfl)
  | updated key value record calm live =>
      exact unspent.wrote room (congrArg Revision.next revision_purge) here elsewhere
        (Or.inr ⟨record, live, rfl⟩)
  | deleted key => exact idle revision_purge rfl (Or.inr here)

end Unspent

end Bucket

/-! ### Runs -/

namespace Session

variable {session : Session}

theorem transcript_concat (session : Session) (events : List Event) (event : Event) :
    session.transcript (events ++ [event]) =
      session.transcript events ++ ((session.run events).2.exchange? event).toList := by
  induction events generalizing session with
  | nil => simp only [List.nil_append, transcript, List.append_nil, run]
  | cons first rest ih => simp only [List.cons_append, transcript, run, ih, List.append_assoc]

theorem run_concat (session : Session) (events : List Event) (event : Event) :
    (session.run (events ++ [event])).2 = ((session.run events).2.step event).2 := by
  rw [run_append]
  rfl

theorem reflects_of_run (terms : BucketTerms) (events : List Event) :
    ((opening terms).run events).2.bucket.Reflects ((opening terms).run events).2.now
      ((opening terms).transcript events) := by
  induction events using List.reverseRecOn with
  | nil =>
      intro key record
      refine iff_of_false (fun never => by cases never) ?_
      rintro ⟨stands, _⟩
      exact not_stands_of_unwritten (fun _ never => by cases never) stands
  | append_singleton events event ih =>
      rw [run_concat, transcript_concat]
      generalize ((opening terms).run events).2 = session at ih ⊢
      cases event with
      | perform operation => exact ih.performed (session.bucket.performed session.now operation)
      | inject failure =>
          rw [exchange?, Option.toList_none, List.append_nil]
          exact ih
      | pass duration =>
          rw [exchange?, Option.toList_none, List.append_nil]
          exact ih.later (Nat.le_add_right _ _)

theorem revision_le_of_step (session : Session) (event : Event) :
    session.bucket.revision.toNat ≤ (session.step event).2.bucket.revision.toNat := by
  cases event with
  | perform operation =>
      have performed := session.bucket.performed session.now operation
      exact (performed.changed none).revision_le
  | inject | pass => exact Nat.le_refl _

theorem unspent_of_run (terms : BucketTerms) (events : List Event)
    (room : ((opening terms).run events).2.bucket.revision.toNat < Revision.last) :
    ((opening terms).run events).2.bucket.Unspent ((opening terms).run events).2.now
      (((opening terms).transcript events).filterMap Exchange.spent?) := by
  induction events using List.reverseRecOn with
  | nil =>
      refine ⟨?_, ?_, ?_, ?_, List.nodup_nil⟩
      · intro _ _ never
        cases never
      · intro _ _ _ _ never
        cases never
      · intro _ never
        cases never
      · intro _ _ never
        cases never
  | append_singleton events event ih =>
      rw [run_concat] at room ⊢
      rw [transcript_concat, List.filterMap_append]
      have roomBefore := Nat.lt_of_le_of_lt (revision_le_of_step _ event) room
      have unspent := ih roomBefore
      generalize ((opening terms).run events).2 = session at unspent roomBefore ⊢
      cases event with
      | perform operation =>
          have performed := session.bucket.performed session.now operation
          exact unspent.performed roomBefore performed
      | inject failure =>
          rw [exchange?, Option.toList_none, List.filterMap_nil, List.append_nil]
          exact unspent.shrink rfl fun _ _ live => live
      | pass duration =>
          rw [exchange?, Option.toList_none, List.filterMap_nil, List.append_nil]
          refine unspent.shrink rfl ?_
          intro key record live
          exact ((Bucket.live?_later_iff (Nat.le_add_right _ duration)).mp live).1

theorem live?_eq_none_iff {history : List Exchange}
    (reflects : session.bucket.Reflects session.now history) (key : String) :
    session.bucket.live? session.now key = none ↔
      (∀ exchange ∈ history, exchange.wrote? key = none) ∨
        ∃ write since, LastWrite history key write since ∧
          ((∃ exchange ∈ since, exchange.Deletes key) ∨
            ¬session.bucket.terms.Lasts write.writtenAt session.now) := by
  constructor
  · intro vacant
    rcases lastWrite_or_unwritten history key with unwritten | ⟨write, since, lastWrite⟩
    · exact Or.inl unwritten
    · refine Or.inr ⟨write, since, lastWrite, ?_⟩
      by_contra undone
      obtain ⟨kept, lasts⟩ := not_or.mp undone
      have live := (reflects key write).mpr
        ⟨⟨since, lastWrite, fun exchange present deletes => kept ⟨exchange, present, deletes⟩⟩,
          not_not.mp lasts⟩
      rw [vacant] at live
      cases live
  · intro gone
    cases live : session.bucket.live? session.now key with
    | none => rfl
    | some record =>
        obtain ⟨⟨since, lastWrite, kept⟩, lasts⟩ := (reflects key record).mp live
        rcases gone with unwritten | ⟨write, after, rival, ⟨exchange, present, deletes⟩ | old⟩
        · exact absurd ⟨since, lastWrite, kept⟩ (not_stands_of_unwritten unwritten)
        · obtain ⟨_, rfl⟩ := lastWrite.unique rival
          exact absurd deletes (kept exchange present)
        · obtain ⟨rfl, _⟩ := lastWrite.unique rival
          exact absurd lasts old

theorem created_iff (calm : session.bucket.injected = none) (key : String) (value : Bytes) :
    (∃ revision, (session.bucket.perform session.now (.create key value)).1 =
        .ok (.written revision)) ↔ session.bucket.live? session.now key = none := by
  constructor
  · rintro ⟨revision, created⟩
    have performed := session.bucket.performed session.now (.create key value)
    rw [created] at performed
    exact performed.of_created.1
  · intro vacant
    exact ⟨_, congrArg Prod.fst (Bucket.Performed.created key value calm vacant).perform_eq⟩

theorem answers_of_reflects {history : List Exchange} (calm : session.bucket.injected = none)
    (reflects : session.bucket.Reflects session.now history) : session.Answers history where
  update := by
    intro key value expected
    constructor
    · rintro ⟨revision, updated⟩
      have performed := session.bucket.performed session.now (.update key value expected)
      rw [updated] at performed
      obtain ⟨⟨record, live, current⟩, _, _⟩ := performed.of_updated
      obtain ⟨⟨since, lastWrite, kept⟩, lasts⟩ := (reflects key record).mp live
      exact ⟨record, since, lastWrite, current, kept, lasts⟩
    · rintro ⟨write, since, lastWrite, rfl, kept, lasts⟩
      have live := (reflects key write).mpr ⟨⟨since, lastWrite, kept⟩, lasts⟩
      exact ⟨_, congrArg Prod.fst (Bucket.Performed.updated key value write calm live).perform_eq⟩
  create := by
    intro key value
    rw [created_iff calm, live?_eq_none_iff reflects]
  get := by
    intro key value
    cases live : session.bucket.live? session.now key with
    | none =>
        have missing := (Bucket.Performed.missing key calm live).perform_eq
        have created := (Bucket.Performed.created key value calm live).perform_eq
        rw [missing, created]
        refine iff_of_false ?_ (fun ⟨_, never⟩ => by cases never)
        rintro ⟨_, _, _, never⟩
        cases never
    | some record =>
        have found := (Bucket.Performed.found key record calm live).perform_eq
        have taken := (Bucket.Performed.taken key value record calm live).perform_eq
        obtain ⟨⟨since, lastWrite, _⟩, _⟩ := (reflects key record).mp live
        rw [found, taken]
        exact iff_of_true ⟨record, since, lastWrite, rfl⟩ ⟨_, rfl⟩
  missing := by
    intro key value
    rw [created_iff calm]
    cases live : session.bucket.live? session.now key with
    | none =>
        have missing := (Bucket.Performed.missing key calm live).perform_eq
        rw [missing]
        exact iff_of_true rfl rfl
    | some record =>
        have found := (Bucket.Performed.found key record calm live).perform_eq
        rw [found]
        exact iff_of_false (fun never => by cases never) (fun never => by cases never)

/-- However a bucket has been used, the history of a key decides what comes next, unless a failure is
waiting to strike: an update goes through just under the revision of the latest write, if that is
neither deleted nor run out, and a create goes through just where there is no such write. While the
counter has room, each revision lets one update through at most. -/
theorem answers_of_transcript {terms : BucketTerms} {events : List Event}
    (run : ((opening terms).run events).2 = session) :
    (session.bucket.injected = none → session.Answers ((opening terms).transcript events)) ∧
      (session.bucket.revision.toNat < Revision.last →
        (((opening terms).transcript events).filterMap Exchange.spent?).Nodup) := by
  subst run
  constructor
  · intro calm
    exact answers_of_reflects calm (reflects_of_run terms events)
  · intro room
    exact (unspent_of_run terms events room).once

/-- A key is written, renewed, deleted at the second attempt, and created again. -/
def rebirth : List Event :=
  [.perform (.create "k" [1]), .pass 1_999_999_999, .perform (.update "k" [2] ⟨1⟩),
    .inject (.unavailable "gone"), .perform (.delete "k"), .perform (.delete "k"),
    .perform (.create "k" [3]), .perform (.update "k" [4] ⟨2⟩), .pass 2_000_000_000]

def afterRebirth : Session where
  bucket :=
    { terms := ⟨"b", 2_000_000_000⟩
      records := [("k", ⟨[3], ⟨3⟩, 1_999_999_999⟩)]
      revision := ⟨3⟩ }
  now := 3_999_999_999

theorem run_rebirth : ((opening ⟨"b", 2_000_000_000⟩).run rebirth).2 = afterRebirth := rfl

theorem answers_afterRebirth :
    ((opening ⟨"b", 2_000_000_000⟩).run rebirth).2 = afterRebirth ∧
      afterRebirth.bucket.injected = none ∧
      afterRebirth.bucket.revision.toNat < Revision.last ∧
      afterRebirth.Answers ((opening ⟨"b", 2_000_000_000⟩).transcript rebirth) ∧
      (((opening ⟨"b", 2_000_000_000⟩).transcript rebirth).filterMap Exchange.spent?).Nodup :=
  have room : afterRebirth.bucket.revision.toNat < Revision.last := by decide
  ⟨run_rebirth, rfl, room, (answers_of_transcript run_rebirth).1 rfl,
    (answers_of_transcript run_rebirth).2 room⟩

end Session

end Leasehold
