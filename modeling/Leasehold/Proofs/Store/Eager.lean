import Leasehold.Store.Session
import Leasehold.Proofs.Store.Performed

set_option autoImplicit false

/-!
Dropping records late cannot be told from dropping them in time.

A bucket drops a record that has run out when its key is next touched. `EagerBucket` drops every
record at the very instant at which it runs out, and its operations take whatever they find. The two
hold different records most of the time, but the eager one always holds just what is live in the
other (`Session.Mirrors`), and so both answer alike.
-/

namespace Leasehold

structure EagerBucket where
  terms : BucketTerms
  records : String → Option Record := fun _ => none
  revision : Revision := {}
  injected : Option StoreError := none
  now : Nat := 0

namespace EagerBucket

def put (bucket : EagerBucket) (key : String) (record? : Option Record) : EagerBucket :=
  { bucket with records := fun other => if other = key then record? else bucket.records other }

def write (bucket : EagerBucket) (key : String) (value : Bytes) :
    Except StoreError Reply × EagerBucket :=
  let revision := bucket.revision.next
  (.ok (.written revision),
    { bucket.put key (some ⟨value, revision, bucket.now⟩) with revision })

def perform (bucket : EagerBucket) (operation : Operation) :
    Except StoreError Reply × EagerBucket :=
  match bucket.injected with
  | some failure => (.error failure, { bucket with injected := none })
  | none =>
      match operation, bucket.records operation.key with
      | .get key, some record => (.ok (.found ⟨key, record.value, record.revision⟩), bucket)
      | .get key, none => (.error (.keyNotFound key), bucket)
      | .create key value, none => bucket.write key value
      | .create key _, some _ => (.error (.keyExists key), bucket)
      | .update key _ _, none => (.error (.keyNotFound key), bucket)
      | .update key value expected, some record =>
          if record.revision = expected then bucket.write key value
          else (.error (.wrongRevision key expected (some record.revision)), bucket)
      | .delete key, _ => (.ok .removed, bucket.put key none)

/-- A nanosecond passes. At its end each record is dropped that was written one time-to-live ago. -/
def tick (bucket : EagerBucket) : EagerBucket :=
  let now := bucket.now + 1
  { bucket with
    now
    records := fun key => (bucket.records key).filter fun record =>
      !(bucket.terms.ttl ≠ 0 && record.writtenAt + bucket.terms.ttl = now) }

def elapse (bucket : EagerBucket) : Nat → EagerBucket
  | 0 => bucket
  | duration + 1 => (bucket.elapse duration).tick

def step (bucket : EagerBucket) : Event → Option (Except StoreError Reply) × EagerBucket
  | .perform operation => (bucket.perform operation).map some id
  | .inject failure => (none, { bucket with injected := some failure })
  | .pass duration => (none, bucket.elapse duration)

def run (bucket : EagerBucket) : List Event → List (Option (Except StoreError Reply) × Revision)
  | [] => []
  | event :: rest =>
      let (answer, next) := bucket.step event
      (answer, next.revision) :: next.run rest

end EagerBucket

/-! ### What a later instant leaves live -/

namespace Bucket

variable {bucket : Bucket} {now : Nat} {key : String}

theorem expired_succ {record : Record} (fresh : bucket.expired now record = false) :
    bucket.expired (now + 1) record =
      (bucket.terms.ttl ≠ 0 && record.writtenAt + bucket.terms.ttl = now + 1 : Bool) := by
  unfold expired BucketTerms.ttl? at *
  by_cases forever : bucket.terms.ttl = 0
  · simp [forever]
  · simp only [if_neg forever, decide_eq_false_iff_not, Nat.not_le] at fresh
    simp only [forever, ne_eq, not_false_eq_true, decide_true, Bool.true_and]
    exact decide_eq_decide.mpr (by omega)

/-- What is live a nanosecond later was live before and does not run out just then. -/
theorem live?_succ :
    bucket.live? (now + 1) key = (bucket.live? now key).filter fun record =>
      !(bucket.terms.ttl ≠ 0 && record.writtenAt + bucket.terms.ttl = now + 1) := by
  unfold live?
  cases found : bucket.record? key with
  | none => rfl
  | some record =>
      cases old : bucket.expired now record with
      | true =>
          have older := expired_later (Nat.le_succ now) old
          simp only [Option.filter_some, older, old, Bool.not_true, Bool.false_eq_true, if_false,
            Option.filter_none]
      | false =>
          simp only [Option.filter_some, old, expired_succ old, Bool.not_false, if_true]

end Bucket

/-! ### One bucket in the mirror of the other -/

namespace Session

structure Mirrors (session : Session) (eager : EagerBucket) : Prop where
  terms : eager.terms = session.bucket.terms
  records : ∀ key, eager.records key = session.bucket.live? session.now key
  revision : eager.revision = session.bucket.revision
  injected : eager.injected = session.bucket.injected
  now : eager.now = session.now

def mirror (session : Session) : EagerBucket where
  terms := session.bucket.terms
  records := session.bucket.live? session.now
  revision := session.bucket.revision
  injected := session.bucket.injected
  now := session.now

variable {session : Session} {eager : EagerBucket}

theorem mirrors_mirror (session : Session) : session.Mirrors session.mirror :=
  ⟨rfl, fun _ => rfl, rfl, rfl, rfl⟩

namespace Mirrors

theorem purge (mirrors : session.Mirrors eager) (key : String) :
    Mirrors { session with bucket := session.bucket.purge session.now key } eager where
  terms := mirrors.terms.trans Bucket.terms_purge.symm
  records := fun other => (mirrors.records other).trans (Bucket.live?_purge other).symm
  revision := mirrors.revision.trans Bucket.revision_purge.symm
  injected := mirrors.injected.trans Bucket.injected_purge.symm
  now := mirrors.now

theorem write (mirrors : session.Mirrors eager) (key : String) (value : Bytes) :
    (eager.write key value).1 = .ok (.written session.bucket.revision.next) ∧
      Mirrors { session with bucket := (session.bucket.write session.now key value).2 }
        (eager.write key value).2 := by
  constructor
  · simp only [EagerBucket.write, mirrors.revision]
  refine ⟨mirrors.terms, ?_, congrArg Revision.next mirrors.revision, mirrors.injected,
    mirrors.now⟩
  intro other
  simp only [EagerBucket.write, EagerBucket.put, mirrors.revision, mirrors.now]
  by_cases same : other = key
  · subst same
    rw [if_pos rfl, Bucket.live?_write]
  · rw [if_neg same, mirrors.records other]
    exact (Bucket.live?_congr (by rfl) (Bucket.record?_write_of_ne value same)).symm

theorem drop (mirrors : session.Mirrors eager) (key : String) :
    Mirrors { session with bucket := session.bucket.drop key } (eager.put key none) := by
  refine ⟨mirrors.terms, ?_, mirrors.revision, mirrors.injected, mirrors.now⟩
  intro other
  simp only [EagerBucket.put]
  by_cases same : other = key
  · subst same
    rw [if_pos rfl, Bucket.live?_eq_none Bucket.record?_drop]
  · rw [if_neg same, mirrors.records other]
    exact (Bucket.live?_congr (by rfl) (Bucket.record?_drop_of_ne same)).symm

theorem perform (mirrors : session.Mirrors eager) {operation : Operation}
    {reply : Except StoreError Reply} {after : Bucket}
    (performed : session.bucket.Performed session.now operation reply after) :
    (eager.perform operation).1 = reply ∧
      Mirrors { session with bucket := after } (eager.perform operation).2 := by
  unfold EagerBucket.perform
  rw [mirrors.injected, mirrors.records]
  cases performed with
  | struck _ failure waiting =>
      rw [waiting]
      exact ⟨rfl, mirrors.terms, mirrors.records, mirrors.revision, rfl, mirrors.now⟩
  | found key record calm live =>
      simp only [calm, Operation.key, live, true_and]
      exact mirrors.purge key
  | missing key calm vacant =>
      simp only [calm, Operation.key, vacant, true_and]
      exact mirrors.purge key
  | created key value calm vacant =>
      simp only [calm, Operation.key, vacant]
      have written := (mirrors.purge key).write key value
      rw [Bucket.revision_purge] at written
      exact written
  | taken key value record calm live =>
      simp only [calm, Operation.key, live, true_and]
      exact mirrors.purge key
  | updated key value record calm live =>
      simp only [calm, Operation.key, live, if_true]
      have written := (mirrors.purge key).write key value
      rw [Bucket.revision_purge] at written
      exact written
  | stale key value expected record calm live moved =>
      simp only [calm, Operation.key, live, if_neg moved, true_and]
      exact mirrors.purge key
  | gone key value expected calm vacant =>
      simp only [calm, Operation.key, vacant, true_and]
      exact mirrors.purge key
  | deleted key calm =>
      simp only [calm, true_and]
      exact (mirrors.purge key).drop key

theorem tick (mirrors : session.Mirrors eager) :
    Mirrors { session with now := session.now + 1 } eager.tick where
  terms := mirrors.terms
  records := by
    intro key
    simp only [EagerBucket.tick, mirrors.records, mirrors.terms, mirrors.now]
    exact Bucket.live?_succ.symm
  revision := mirrors.revision
  injected := mirrors.injected
  now := congrArg (· + 1) mirrors.now

theorem elapse (mirrors : session.Mirrors eager) (duration : Nat) :
    Mirrors { session with now := session.now + duration } (eager.elapse duration) := by
  induction duration with
  | zero => exact mirrors
  | succ duration ih => exact ih.tick

theorem step (mirrors : session.Mirrors eager) (event : Event) :
    (session.step event).1 = (eager.step event).1 ∧
      (session.step event).2.Mirrors (eager.step event).2 := by
  cases event with
  | perform operation =>
      obtain ⟨answer, next⟩ :=
        mirrors.perform (session.bucket.performed session.now operation)
      exact ⟨congrArg some answer.symm, next⟩
  | inject failure =>
      exact ⟨rfl, mirrors.terms, mirrors.records, mirrors.revision, rfl, mirrors.now⟩
  | pass duration => exact ⟨rfl, mirrors.elapse duration⟩

theorem run (mirrors : session.Mirrors eager) (events : List Event) :
    (session.run events).1 = eager.run events := by
  induction events generalizing session eager with
  | nil => rfl
  | cons event rest ih =>
      obtain ⟨answer, next⟩ := mirrors.step event
      simp only [Session.run, EagerBucket.run, answer, next.revision, ih next]

end Mirrors

/-! ### Purges in between -/

def runPurging (session : Session) :
    List (String ⊕ Event) → List (Option (Except StoreError Reply) × Revision)
  | [] => []
  | .inl key :: rest =>
      { session with bucket := session.bucket.purge session.now key }.runPurging rest
  | .inr event :: rest =>
      let (answer, next) := session.step event
      (answer, next.bucket.revision) :: next.runPurging rest

theorem Mirrors.runPurging (mirrors : session.Mirrors eager) (course : List (String ⊕ Event)) :
    session.runPurging course = eager.run (course.filterMap Sum.getRight?) := by
  induction course generalizing session eager with
  | nil => rfl
  | cons item rest ih =>
      cases item with
      | inl key => exact ih (mirrors.purge key)
      | inr event =>
          obtain ⟨answer, next⟩ := mirrors.step event
          simp only [Session.runPurging, List.filterMap_cons, Sum.getRight?, EagerBucket.run, answer,
            next.revision, ih next]

/-- Whatever is asked of a bucket and however the clock moves, it answers and counts like the eager
bucket, and purging any keys at any point of a run changes no later answer. -/
theorem answers_eq_eager (terms : BucketTerms) :
    (∀ events, (run { bucket := { terms } } events).1 = EagerBucket.run { terms } events) ∧
      ∀ (session : Session) (course : List (String ⊕ Event)),
        session.runPurging course = (session.run (course.filterMap Sum.getRight?)).1 := by
  constructor
  · intro events
    have opening : Mirrors { bucket := { terms } } { terms } := ⟨rfl, fun _ => rfl, rfl, rfl, rfl⟩
    exact opening.run events
  · intro session course
    have mirrors := session.mirrors_mirror
    rw [mirrors.runPurging, mirrors.run]

end Session

end Leasehold
