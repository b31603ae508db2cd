import Leasehold.Time
import Leasehold.Store.Error
import Leasehold.Text.Utf8

set_option autoImplicit false

/-!
A bucket of versioned records, each of which runs out one time-to-live after its last write.

A record that has run out is dropped when its key is next touched; until then it is kept but never
shown. One counter numbers the writes of all keys. A failure can be injected: the next operation
takes it as its result and does nothing else.
-/

namespace Leasehold

structure BucketTerms where
  name : String
  ttl : Nat
  deriving DecidableEq, Repr

/-- Without a time-to-live records stay for ever. -/
def BucketTerms.ttl? (terms : BucketTerms) : Option Nat :=
  if terms.ttl = 0 then none else some terms.ttl

structure Entry where
  key : String
  value : Bytes
  revision : Revision
  deriving DecidableEq

structure Record where
  value : Bytes
  revision : Revision
  writtenAt : Nat
  deriving DecidableEq

structure Bucket where
  terms : BucketTerms
  records : List (String × Record) := []
  revision : Revision := {}
  injected : Option StoreError := none

namespace Bucket

variable (bucket : Bucket) (now : Nat) (key : String)

def record? : Option Record := bucket.records.lookup key

def expired (record : Record) : Bool :=
  match bucket.terms.ttl? with
  | some ttl => ttl ≤ now - record.writtenAt
  | none => false

def live? : Option Record :=
  (bucket.record? key).filter fun record => !bucket.expired now record

def drop : Bucket :=
  { bucket with records := bucket.records.filter fun named => named.1 != key }

def purge : Bucket :=
  match bucket.record? key with
  | some record => if bucket.expired now record then bucket.drop key else bucket
  | none => bucket

def inject (failure : StoreError) : Bucket :=
  { bucket with injected := some failure }

/-- Run an operation on a key, unless an injected failure is waiting: that becomes the result. -/
def attempt {α : Type} (operation : Bucket → Except StoreError α × Bucket) :
    Except StoreError α × Bucket :=
  match bucket.injected with
  | some failure => (.error failure, { bucket with injected := none })
  | none => operation (bucket.purge now key)

def write (value : Bytes) : Revision × Bucket :=
  let revision := bucket.revision.next
  (revision, { bucket with
    records := (key, ⟨value, revision, now⟩) :: (bucket.drop key).records
    revision := revision })

def get : Except StoreError Entry × Bucket :=
  bucket.attempt now key fun bucket =>
    match bucket.record? key with
    | some record => (.ok ⟨key, record.value, record.revision⟩, bucket)
    | none => (.error (.keyNotFound key), bucket)

def create (value : Bytes) : Except StoreError Revision × Bucket :=
  bucket.attempt now key fun bucket =>
    match bucket.record? key with
    | some _ => (.error (.keyExists key), bucket)
    | none =>
        let (revision, bucket) := bucket.write now key value
        (.ok revision, bucket)

def update (value : Bytes) (expected : Revision) : Except StoreError Revision × Bucket :=
  bucket.attempt now key fun bucket =>
    match bucket.record? key with
    | none => (.error (.keyNotFound key), bucket)
    | some record =>
        if record.revision = expected then
          let (revision, bucket) := bucket.write now key value
          (.ok revision, bucket)
        else (.error (.wrongRevision key expected (some record.revision)), bucket)

/-- Removing what is not there is no error. -/
def delete : Except StoreError Unit × Bucket :=
  bucket.attempt now key fun bucket => (.ok (), bucket.drop key)

end Bucket

namespace Bucket

/-! ### What a key holds after an operation -/

variable {bucket : Bucket} {now : Nat} {key other : String}

theorem record?_drop : (bucket.drop key).record? key = none := by
  simp only [record?, drop]
  induction bucket.records with
  | nil => rfl
  | cons named rest ih =>
      obtain ⟨name, record⟩ := named
      by_cases same : name = key
      · simpa [same] using ih
      · have apart : (key == name) = false := beq_false_of_ne (Ne.symm same)
        simpa [same, List.lookup_cons, apart] using ih

theorem record?_drop_of_ne (apart : other ≠ key) :
    (bucket.drop key).record? other = bucket.record? other := by
  simp only [record?, drop]
  induction bucket.records with
  | nil => rfl
  | cons named rest ih =>
      obtain ⟨name, record⟩ := named
      by_cases same : name = key
      · subst same
        have elsewhere : (other == name) = false := beq_false_of_ne apart
        simpa [List.lookup_cons, elsewhere] using ih
      · by_cases found : other = name
        · simp [same, found]
        · have elsewhere : (other == name) = false := beq_false_of_ne found
          simpa [same, List.lookup_cons, elsewhere] using ih

/-- Purging a key leaves there what was live. -/
theorem record?_purge : (bucket.purge now key).record? key = bucket.live? now key := by
  unfold purge live?
  cases found : bucket.record? key with
  | none => simpa using found
  | some record =>
      by_cases old : bucket.expired now record = true
      · simp [old, record?_drop, Option.filter]
      · simp [old, found, Option.filter]

theorem record?_purge_of_ne (apart : other ≠ key) :
    (bucket.purge now key).record? other = bucket.record? other := by
  unfold purge
  split
  · split
    · exact record?_drop_of_ne apart
    · rfl
  · rfl

theorem record?_write (value : Bytes) :
    (bucket.write now key value).2.record? key = some ⟨value, bucket.revision.next, now⟩ := by
  simp [write, record?]

theorem record?_write_of_ne (value : Bytes) (apart : other ≠ key) :
    (bucket.write now key value).2.record? other = bucket.record? other := by
  have elsewhere : (other == key) = false := beq_false_of_ne apart
  simpa [write, record?, List.lookup_cons, elsewhere] using record?_drop_of_ne apart

theorem revision_purge : (bucket.purge now key).revision = bucket.revision := by
  unfold purge
  split
  · split <;> rfl
  · rfl

end Bucket

/-! ### Operations as data -/

inductive Operation where
  | get (key : String)
  | create (key : String) (value : Bytes)
  | update (key : String) (value : Bytes) (expected : Revision)
  | delete (key : String)
  deriving DecidableEq

inductive Reply where
  | found (entry : Entry)
  | written (revision : Revision)
  | removed
  deriving DecidableEq

def Operation.key : Operation → String
  | get key | create key _ | update key _ _ | delete key => key

def Bucket.perform (bucket : Bucket) (now : Nat) : Operation → Except StoreError Reply × Bucket
  | .get key => (bucket.get now key).map (·.map .found) id
  | .create key value => (bucket.create now key value).map (·.map .written) id
  | .update key value expected => (bucket.update now key value expected).map (·.map .written) id
  | .delete key => (bucket.delete now key).map (·.map fun _ => .removed) id

end Leasehold
