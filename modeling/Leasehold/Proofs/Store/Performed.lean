import Leasehold.Store.Bucket

set_option autoImplicit false

/-!
What one operation on a bucket does, by cases, and what it leaves of the records.

`Bucket.Performed` lists the cases once. Nothing else here or in what builds on it opens the
operations again.
-/

namespace Leasehold

namespace Bucket

inductive Performed (bucket : Bucket) (now : Nat) :
    Operation → Except StoreError Reply → Bucket → Prop
  | struck (operation : Operation) (failure : StoreError)
      (waiting : bucket.injected = some failure) :
      Performed bucket now operation (.error failure) { bucket with injected := none }
  | found (key : String) (record : Record) (calm : bucket.injected = none)
      (live : bucket.live? now key = some record) :
      Performed bucket now (.get key) (.ok (.found ⟨key, record.value, record.revision⟩))
        (bucket.purge now key)
  | missing (key : String) (calm : bucket.injected = none)
      (vacant : bucket.live? now key = none) :
      Performed bucket now (.get key) (.error (.keyNotFound key)) (bucket.purge now key)
  | created (key : String) (value : Bytes) (calm : bucket.injected = none)
      (vacant : bucket.live? now key = none) :
      Performed bucket now (.create key value) (.ok (.written bucket.revision.next))
        ((bucket.purge now key).write now key value).2
  | taken (key : String) (value : Bytes) (record : Record) (calm : bucket.injected = none)
      (live : bucket.live? now key = some record) :
      Performed bucket now (.create key value) (.error (.keyExists key)) (bucket.purge now key)
  | updated (key : String) (value : Bytes) (record : Record) (calm : bucket.injected = none)
      (live : bucket.live? now key = some record) :
      Performed bucket now (.update key value record.revision)
        (.ok (.written bucket.revision.next)) ((bucket.purge now key).write now key value).2
  | stale (key : String) (value : Bytes) (expected : Revision) (record : Record)
      (calm : bucket.injected = none) (live : bucket.live? now key = some record)
      (moved : record.revision ≠ expected) :
      Performed bucket now (.update key value expected)
        (.error (.wrongRevision key expected (some record.revision))) (bucket.purge now key)
  | gone (key : String) (value : Bytes) (expected : Revision) (calm : bucket.injected = none)
      (vacant : bucket.live? now key = none) :
      Performed bucket now (.update key value expected) (.error (.keyNotFound key))
        (bucket.purge now key)
  | deleted (key : String) (calm : bucket.injected = none) :
      Performed bucket now (.delete key) (.ok .removed) ((bucket.purge now key).drop key)

variable {bucket after : Bucket} {now : Nat} {operation : Operation}
  {reply : Except StoreError Reply} {key : String} {record : Record}

theorem attempt_of_struck {α : Type} {failure : StoreError}
    (waiting : bucket.injected = some failure)
    (operation : Bucket → Except StoreError α × Bucket) :
    bucket.attempt now key operation = (.error failure, { bucket with injected := none }) := by
  simp only [attempt, waiting]

theorem attempt_of_calm {α : Type} (calm : bucket.injected = none)
    (operation : Bucket → Except StoreError α × Bucket) :
    bucket.attempt now key operation = operation (bucket.purge now key) := by
  simp only [attempt, calm]

theorem performed (bucket : Bucket) (now : Nat) (operation : Operation) :
    bucket.Performed now operation (bucket.perform now operation).1
      (bucket.perform now operation).2 := by
  cases waiting : bucket.injected with
  | some failure =>
      have struck := @Performed.struck bucket now operation failure waiting
      cases operation <;>
        (simp only [perform, get, create, update, delete, attempt_of_struck waiting]
         exact struck)
  | none =>
      cases operation with
      | get key =>
          simp only [perform, get, attempt_of_calm waiting, record?_purge]
          cases live : bucket.live? now key with
          | none => exact .missing key waiting live
          | some record => exact .found key record waiting live
      | create key value =>
          simp only [perform, create, attempt_of_calm waiting, record?_purge]
          cases live : bucket.live? now key with
          | none =>
              have created := @Performed.created bucket now key value waiting live
              simp only [write, revision_purge] at created ⊢
              exact created
          | some record => exact .taken key value record waiting live
      | update key value expected =>
          simp only [perform, update, attempt_of_calm waiting, record?_purge]
          cases live : bucket.live? now key with
          | none => exact .gone key value expected waiting live
          | some record =>
              by_cases current : record.revision = expected
              · subst expected
                have updated := @Performed.updated bucket now key value record waiting live
                simp only [if_true, write, revision_purge] at updated ⊢
                exact updated
              · simp only [if_neg current]
                exact .stale key value expected record waiting live current
      | delete key =>
          simp only [perform, delete, attempt_of_calm waiting]
          exact .deleted key waiting

/-- The cases exclude each other: there is nothing else that an operation could have done. -/
theorem Performed.perform_eq (performed : bucket.Performed now operation reply after) :
    bucket.perform now operation = (reply, after) := by
  cases performed with
  | struck _ _ waiting =>
      cases operation <;>
        (simp only [perform, get, create, update, delete, attempt_of_struck waiting]
         rfl)
  | found _ _ calm live | missing _ calm live =>
      simp only [perform, get, attempt_of_calm calm, record?_purge, live]
      rfl
  | created _ _ calm live =>
      simp only [perform, create, attempt_of_calm calm, record?_purge, live, write, revision_purge]
      rfl
  | taken _ _ _ calm live =>
      simp only [perform, create, attempt_of_calm calm, record?_purge, live]
      rfl
  | updated _ _ _ calm live =>
      simp only [perform, update, attempt_of_calm calm, record?_purge, live, if_true, write,
        revision_purge]
      rfl
  | stale _ _ _ _ calm live moved =>
      simp only [perform, update, attempt_of_calm calm, record?_purge, live, if_neg moved]
      rfl
  | gone _ _ _ calm live =>
      simp only [perform, update, attempt_of_calm calm, record?_purge, live]
      rfl
  | deleted _ calm =>
      simp only [perform, delete, attempt_of_calm calm]
      rfl

/-! ### What is live -/

theorem live?_eq_some_iff :
    bucket.live? now key = some record ↔
      bucket.record? key = some record ∧ bucket.expired now record = false := by
  simp [live?, Option.filter_eq_some_iff]

theorem expired_eq_false_iff {ttl : Nat} (limited : bucket.terms.ttl? = some ttl) :
    bucket.expired now record = false ↔ now - record.writtenAt < ttl := by
  simp only [expired, limited, decide_eq_false_iff_not, Nat.not_le]

theorem expired_congr (terms : after.terms = bucket.terms) (record : Record) :
    after.expired now record = bucket.expired now record := by
  unfold expired
  rw [terms]

theorem expired_of_fresh (fresh : record.writtenAt = now) : bucket.expired now record = false := by
  unfold expired BucketTerms.ttl?
  by_cases forever : bucket.terms.ttl = 0
  · simp only [if_pos forever]
  · simp only [if_neg forever, fresh, Nat.sub_self]
    exact decide_eq_false (by omega)

theorem expired_later {later : Nat} (passed : now ≤ later)
    (old : bucket.expired now record = true) : bucket.expired later record = true := by
  unfold expired at *
  cases limited : bucket.terms.ttl? with
  | none => simp only [limited, Bool.false_eq_true] at old
  | some ttl =>
      simp only [limited, decide_eq_true_eq] at old ⊢
      omega

theorem live?_later_iff {later : Nat} (passed : now ≤ later) :
    bucket.live? later key = some record ↔
      bucket.live? now key = some record ∧ bucket.expired later record = false := by
  rw [live?_eq_some_iff, live?_eq_some_iff]
  constructor
  · rintro ⟨held, fresh⟩
    have young : bucket.expired now record = false := by
      cases old : bucket.expired now record with
      | false => rfl
      | true =>
          rw [expired_later passed old] at fresh
          cases fresh
    exact ⟨⟨held, young⟩, fresh⟩
  · rintro ⟨⟨held, _⟩, fresh⟩
    exact ⟨held, fresh⟩

theorem live?_congr (terms : after.terms = bucket.terms)
    (same : after.record? key = bucket.record? key) : after.live? now key = bucket.live? now key := by
  simp only [live?, same, expired_congr terms]

theorem live?_eq_none (absent : bucket.record? key = none) : bucket.live? now key = none := by
  simp only [live?, absent, Option.filter_none]

theorem terms_purge : (bucket.purge now key).terms = bucket.terms := by
  unfold purge
  split
  · split <;> rfl
  · rfl

theorem injected_purge : (bucket.purge now key).injected = bucket.injected := by
  unfold purge
  split
  · split <;> rfl
  · rfl

/-- Purging drops only what is not live any more. -/
theorem live?_purge (other : String) :
    (bucket.purge now key).live? now other = bucket.live? now other := by
  by_cases same : other = key
  · subst same
    ext record
    rw [live?_eq_some_iff, record?_purge, expired_congr terms_purge, live?_eq_some_iff, and_assoc,
      and_self]
  · exact live?_congr terms_purge (record?_purge_of_ne same)

/-! ### What an operation leaves -/

namespace Performed

theorem terms_eq (performed : bucket.Performed now operation reply after) :
    after.terms = bucket.terms := by
  cases performed <;> first | rfl | exact terms_purge

theorem injected_eq (performed : bucket.Performed now operation reply after) :
    after.injected = none := by
  cases performed with
  | struck => rfl
  | found _ _ calm | missing _ calm | created _ _ calm | taken _ _ _ calm | updated _ _ _ calm
  | stale _ _ _ _ calm | gone _ _ _ calm | deleted _ calm => exact injected_purge.trans calm

theorem record?_of_ne (performed : bucket.Performed now operation reply after)
    (apart : key ≠ operation.key) : after.record? key = bucket.record? key := by
  cases performed with
  | struck => rfl
  | found | missing | taken | stale | gone => exact record?_purge_of_ne apart
  | created name value | updated name value =>
      have other : key ≠ name := apart
      rw [record?_write_of_ne value other]
      exact record?_purge_of_ne other
  | deleted name =>
      have other : key ≠ name := apart
      rw [record?_drop_of_ne other]
      exact record?_purge_of_ne other

/-- A live record stays as it is unless it is deleted or updated under its own revision. -/
theorem record?_of_live (performed : bucket.Performed now operation reply after)
    (live : bucket.live? now key = some record) (kept : operation ≠ .delete key) :
    after.record? key = some record ∨
      ∃ value, operation = .update key value record.revision ∧
        reply = .ok (.written bucket.revision.next) ∧
        after.record? key = some ⟨value, bucket.revision.next, now⟩ := by
  have held : bucket.record? key = some record := (live?_eq_some_iff.mp live).1
  by_cases same : key = operation.key
  · cases performed with
    | struck => exact Or.inl held
    | found | missing | taken | stale | gone =>
        cases same
        exact Or.inl (record?_purge.trans live)
    | created name value calm vacant =>
        obtain rfl : key = name := same
        rw [live] at vacant
        cases vacant
    | updated name value current calm found =>
        obtain rfl : key = name := same
        rw [live] at found
        cases found
        refine Or.inr ⟨value, rfl, rfl, ?_⟩
        rw [record?_write, revision_purge]
    | deleted =>
        cases same
        exact absurd rfl kept
  · exact Or.inl ((performed.record?_of_ne same).trans held)

theorem of_found {answered : Reply} (performed : bucket.Performed now (.get key) (.ok answered) after) :
    ∃ record, bucket.live? now key = some record := by
  cases performed with
  | found _ record calm live => exact ⟨record, live⟩

theorem of_created {value : Bytes} {answered : Reply}
    (performed : bucket.Performed now (.create key value) (.ok answered) after) :
    bucket.live? now key = none ∧ answered = .written bucket.revision.next ∧
      after.record? key = some ⟨value, bucket.revision.next, now⟩ := by
  cases performed with
  | created _ _ calm vacant =>
      refine ⟨vacant, rfl, ?_⟩
      rw [record?_write, revision_purge]

theorem of_updated {value : Bytes} {expected : Revision} {answered : Reply}
    (performed : bucket.Performed now (.update key value expected) (.ok answered) after) :
    (∃ record, bucket.live? now key = some record ∧ record.revision = expected) ∧
      answered = .written bucket.revision.next ∧
      after.record? key = some ⟨value, bucket.revision.next, now⟩ := by
  cases performed with
  | updated _ _ record calm live =>
      refine ⟨⟨record, live, rfl⟩, rfl, ?_⟩
      rw [record?_write, revision_purge]

end Performed

end Bucket

/-! ### What an operation leaves live -/

/-- What a key holds after an operation, if the operation changed that: the record that it wrote, or
nothing after a deletion. -/
def Operation.leaves? (operation : Operation) (reply : Except StoreError Reply) (now : Nat) :
    Option (Option Record) :=
  match operation, reply with
  | .create _ value, .ok (.written revision) | .update _ value _, .ok (.written revision) =>
      some (some ⟨value, revision, now⟩)
  | .delete _, .ok _ => some none
  | _, _ => none

namespace Bucket

variable {bucket after : Bucket} {now : Nat} {operation : Operation}
  {reply : Except StoreError Reply} {key : String}

theorem live?_write (value : Bytes) :
    (bucket.write now key value).2.live? now key = some ⟨value, bucket.revision.next, now⟩ :=
  live?_eq_some_iff.mpr ⟨record?_write value, expired_of_fresh rfl⟩

namespace Performed

theorem live?_of_ne (performed : bucket.Performed now operation reply after) (instant : Nat)
    (apart : key ≠ operation.key) : after.live? instant key = bucket.live? instant key :=
  live?_congr performed.terms_eq (performed.record?_of_ne apart)

theorem live?_eq (performed : bucket.Performed now operation reply after) :
    after.live? now operation.key =
      (operation.leaves? reply now).getD (bucket.live? now operation.key) := by
  cases performed with
  | struck => cases operation <;> rfl
  | found | missing | taken | stale | gone => exact live?_purge _
  | created key value | updated key value =>
      have written : ((bucket.purge now key).write now key value).2.live? now key = _ :=
        live?_write value
      rw [revision_purge] at written
      exact written
  | deleted key => exact live?_eq_none record?_drop

end Performed

end Bucket

end Leasehold
