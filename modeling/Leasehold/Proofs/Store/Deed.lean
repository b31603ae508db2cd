import Leasehold.Proofs.Store.Performed

set_option autoImplicit false

/-!
The history of a bucket: who changed which key, how and when, and under which revision.

As long as the counter has not reached its last value, every write in the history has a revision of
its own, and whatever record a key holds was left there by the last change of that key.
-/

namespace Leasehold

inductive Deed.Kind where
  | created
  | updated
  | removed
  deriving DecidableEq, Repr

structure Deed where
  /-- The number of a member, unless it was a third party. -/
  author : Option Nat
  kind : Deed.Kind
  key : String
  /-- The counter of the bucket after the change. -/
  revision : Revision
  instant : Nat
  deriving DecidableEq, Repr

def Operation.kind? : Operation → Option Deed.Kind
  | .get _ => none
  | .create _ _ => some .created
  | .update _ _ _ => some .updated
  | .delete _ => some .removed

namespace Deed

/-- What an operation did, if it succeeded and was more than a look. -/
def of? (author : Option Nat) (operation : Operation) (reply : Except StoreError Reply)
    (after : Bucket) (now : Nat) : Option Deed :=
  match operation.kind?, reply with
  | some kind, .ok _ => some ⟨author, kind, operation.key, after.revision, now⟩
  | _, _ => none

def on (key : String) (history : List Deed) : List Deed := history.filter (·.key = key)

variable {key : String} {history : List Deed} {deed : Deed}

theorem mem_of_mem_on (present : deed ∈ on key history) : deed ∈ history :=
  (List.mem_filter.mp present).1

theorem on_concat (same : deed.key = key) : on key (history ++ [deed]) = on key history ++ [deed] := by
  have kept : [deed].filter (·.key = key) = [deed] :=
    List.filter_cons_of_pos (decide_eq_true same)
  rw [on, List.filter_append, kept]
  rfl

theorem on_concat_of_ne (apart : deed.key ≠ key) : on key (history ++ [deed]) = on key history := by
  have dropped : [deed].filter (·.key = key) = [] :=
    List.filter_cons_of_neg (by simpa using apart)
  rw [on, List.filter_append, dropped, List.append_nil]
  rfl

end Deed

namespace Bucket

def deed? (bucket : Bucket) (now : Nat) (author : Option Nat) (operation : Operation) : Option Deed :=
  Deed.of? author operation (bucket.perform now operation).1 (bucket.perform now operation).2 now

variable {bucket after : Bucket} {now : Nat} {operation : Operation}
  {reply : Except StoreError Reply} {author : Option Nat} {history : List Deed}

/-! ### The change that an operation makes -/

inductive Changed (bucket : Bucket) (now : Nat) (author : Option Nat) (operation : Operation)
    (after : Bucket) : Option Deed → Prop
  | idle (counter : after.revision = bucket.revision)
      (kept : ∀ key record, after.record? key = some record → bucket.record? key = some record) :
      Changed bucket now author operation after none
  | wrote (kind : Deed.Kind) (value : Bytes) (writes : kind ≠ .removed)
      (counter : after.revision = bucket.revision.next)
      (here : after.record? operation.key = some ⟨value, after.revision, now⟩)
      (elsewhere : ∀ key, key ≠ operation.key → after.record? key = bucket.record? key) :
      Changed bucket now author operation after
        (some ⟨author, kind, operation.key, after.revision, now⟩)
  | removed (counter : after.revision = bucket.revision)
      (here : after.record? operation.key = none)
      (elsewhere : ∀ key, key ≠ operation.key → after.record? key = bucket.record? key) :
      Changed bucket now author operation after
        (some ⟨author, .removed, operation.key, after.revision, now⟩)

theorem record?_of_purge {key other : String} {record : Record}
    (found : (bucket.purge now key).record? other = some record) :
    bucket.record? other = some record := by
  by_cases same : other = key
  · subst same
    rw [record?_purge] at found
    exact (live?_eq_some_iff.mp found).1
  · rwa [record?_purge_of_ne same] at found

theorem Performed.changed (performed : bucket.Performed now operation reply after)
    (author : Option Nat) :
    bucket.Changed now author operation after (Deed.of? author operation reply after now) := by
  have elsewhere (key : String) (apart : key ≠ operation.key) := performed.record?_of_ne apart
  cases performed with
  | struck => cases operation <;> exact .idle rfl (fun _ _ found => found)
  | found | missing | taken | stale | gone =>
      exact .idle revision_purge (fun _ _ found => record?_of_purge found)
  | created key value =>
      exact .wrote .created value (by decide) (congrArg Revision.next revision_purge)
        (record?_write value) elsewhere
  | updated key value record =>
      exact .wrote .updated value (by decide) (congrArg Revision.next revision_purge)
        (record?_write value) elsewhere
  | deleted key => exact .removed revision_purge record?_drop elsewhere

theorem of?_of_ok {kind : Deed.Kind} (does : operation.kind? = some kind) (answered : Reply) :
    Deed.of? author operation (.ok answered) after now =
      some ⟨author, kind, operation.key, after.revision, now⟩ := by
  simp only [Deed.of?, does]

theorem deed?_eq_some {deed : Deed} (done : bucket.deed? now author operation = some deed) :
    ∃ kind answered after, operation.kind? = some kind ∧
      bucket.Performed now operation (.ok answered) after ∧
      deed = ⟨author, kind, operation.key, after.revision, now⟩ := by
  have performed := bucket.performed now operation
  unfold deed? Deed.of? at done
  split at done
  · rename_i kind answered does reply
    cases done
    rw [reply] at performed
    exact ⟨kind, answered, _, does, performed, rfl⟩
  · cases done

/-- A write answers with the revision that the counter then shows. -/
theorem Performed.answered_written {answered : Reply} {kind : Deed.Kind}
    (performed : bucket.Performed now operation (.ok answered) after)
    (does : operation.kind? = some kind) (writes : kind ≠ .removed) :
    answered = .written after.revision := by
  cases performed with
  | found => cases does
  | created key value | updated key value =>
      have counter : ((bucket.purge now key).write now key value).2.revision =
          bucket.revision.next := congrArg Revision.next revision_purge
      exact congrArg Reply.written counter.symm
  | deleted =>
      cases does
      exact absurd rfl writes

theorem Changed.revision_le {done : Option Deed}
    (changed : bucket.Changed now author operation after done) :
    bucket.revision.toNat ≤ after.revision.toNat := by
  cases changed with
  | idle counter | removed counter => exact Nat.le_of_eq (congrArg Revision.toNat counter.symm)
  | wrote _ _ _ counter =>
      have bound := bucket.revision.toNat_le_last
      rw [counter, Revision.toNat_next]
      omega

/-! ### A bucket and its history -/

structure Recorded (bucket : Bucket) (now : Nat) (history : List Deed) : Prop where
  past : ∀ deed ∈ history, deed.instant ≤ now
  counted : ∀ deed ∈ history, deed.revision.toNat ≤ bucket.revision.toNat
  unique : ∀ deed ∈ history, ∀ other ∈ history, deed.kind ≠ .removed → other.kind ≠ .removed →
    deed.revision = other.revision → deed = other
  latest : ∀ key record, bucket.record? key = some record →
    ∃ earlier deed, Deed.on key history = earlier ++ [deed] ∧ deed.kind ≠ .removed ∧
      deed.revision = record.revision ∧ deed.instant = record.writtenAt

namespace Recorded

theorem opening (terms : BucketTerms) : Recorded { terms } now [] where
  past := by
    intro deed never
    cases never
  counted := by
    intro deed never
    cases never
  unique := by
    intro deed never
    cases never
  latest := by
    intro key record never
    cases never

theorem idle {later : Nat} (recorded : bucket.Recorded now history)
    (counter : after.revision = bucket.revision)
    (kept : ∀ key record, after.record? key = some record → bucket.record? key = some record)
    (passed : now ≤ later) : after.Recorded later history where
  past := fun deed done => Nat.le_trans (recorded.past deed done) passed
  counted := by
    rw [counter]
    exact recorded.counted
  unique := recorded.unique
  latest := fun key record found => recorded.latest key record (kept key record found)

/-! ### A new deed -/

section Concat

variable {deed : Deed}

theorem past_concat (recorded : bucket.Recorded now history) (instant : deed.instant = now) :
    ∀ other ∈ history ++ [deed], other.instant ≤ now := by
  intro other done
  rcases List.mem_append.mp done with old | new
  · exact recorded.past other old
  · rw [List.mem_singleton.mp new]
    exact Nat.le_of_eq instant

theorem counted_concat (recorded : bucket.Recorded now history)
    (grown : bucket.revision.toNat ≤ after.revision.toNat)
    (stamp : deed.revision = after.revision) :
    ∀ other ∈ history ++ [deed], other.revision.toNat ≤ after.revision.toNat := by
  intro other done
  rcases List.mem_append.mp done with old | new
  · exact Nat.le_trans (recorded.counted other old) grown
  · rw [List.mem_singleton.mp new]
    exact Nat.le_of_eq (congrArg Revision.toNat stamp)

theorem latest_concat (recorded : bucket.Recorded now history)
    (elsewhere : ∀ key, key ≠ deed.key → after.record? key = bucket.record? key)
    (here : ∀ record, after.record? deed.key = some record →
      deed.kind ≠ .removed ∧ deed.revision = record.revision ∧ deed.instant = record.writtenAt)
    (key : String) (record : Record) (found : after.record? key = some record) :
    ∃ earlier last, Deed.on key (history ++ [deed]) = earlier ++ [last] ∧ last.kind ≠ .removed ∧
      last.revision = record.revision ∧ last.instant = record.writtenAt := by
  by_cases same : key = deed.key
  · subst same
    exact ⟨_, deed, Deed.on_concat rfl, here record found⟩
  · rw [elsewhere key same] at found
    rw [Deed.on_concat_of_ne (Ne.symm same)]
    exact recorded.latest key record found

theorem wrote {value : Bytes} (recorded : bucket.Recorded now history)
    (room : bucket.revision.toNat < Revision.last) (writes : deed.kind ≠ .removed)
    (counter : after.revision = bucket.revision.next) (stamp : deed.revision = after.revision)
    (instant : deed.instant = now)
    (here : after.record? deed.key = some ⟨value, after.revision, now⟩)
    (elsewhere : ∀ key, key ≠ deed.key → after.record? key = bucket.record? key) :
    after.Recorded now (history ++ [deed]) := by
  have grown : after.revision.toNat = bucket.revision.toNat + 1 := by
    rw [counter, Revision.toNat_next]
    omega
  have fresh (other : Deed) (done : other ∈ history) : other.revision ≠ deed.revision := by
    intro same
    have old := recorded.counted other done
    rw [same, stamp, grown] at old
    omega
  have counted := recorded.counted_concat (by omega) stamp
  refine ⟨recorded.past_concat instant, counted, ?_, recorded.latest_concat elsewhere ?_⟩
  · intro one done other doneOther writesOne writesOther same
    rcases List.mem_append.mp done with old | new <;>
      rcases List.mem_append.mp doneOther with oldOther | newOther
    · exact recorded.unique one old other oldOther writesOne writesOther same
    · rw [List.mem_singleton.mp newOther] at same
      exact absurd same (fresh one old)
    · rw [List.mem_singleton.mp new] at same
      exact absurd same.symm (fresh other oldOther)
    · rw [List.mem_singleton.mp new, List.mem_singleton.mp newOther]
  · intro record found
    rw [here] at found
    cases found
    exact ⟨writes, stamp, instant⟩

theorem removed (recorded : bucket.Recorded now history) (removes : deed.kind = .removed)
    (counter : after.revision = bucket.revision) (stamp : deed.revision = after.revision)
    (instant : deed.instant = now) (here : after.record? deed.key = none)
    (elsewhere : ∀ key, key ≠ deed.key → after.record? key = bucket.record? key) :
    after.Recorded now (history ++ [deed]) := by
  have counted := recorded.counted_concat (Nat.le_of_eq (congrArg _ counter.symm)) stamp
  refine ⟨recorded.past_concat instant, counted, ?_, recorded.latest_concat elsewhere ?_⟩
  · intro one done other doneOther writesOne writesOther same
    rcases List.mem_append.mp done with old | new
    · rcases List.mem_append.mp doneOther with oldOther | newOther
      · exact recorded.unique one old other oldOther writesOne writesOther same
      · rw [List.mem_singleton.mp newOther] at writesOther
        exact absurd removes writesOther
    · rw [List.mem_singleton.mp new] at writesOne
      exact absurd removes writesOne
  · intro record found
    rw [here] at found
    cases found

end Concat

/-- While the counter has room, a history goes on with whatever an operation does. -/
theorem changed {done : Option Deed} (recorded : bucket.Recorded now history)
    (room : bucket.revision.toNat < Revision.last)
    (changed : bucket.Changed now author operation after done) :
    after.Recorded now (history ++ done.toList) := by
  cases changed with
  | idle counter kept =>
      rw [Option.toList_none, List.append_nil]
      exact recorded.idle counter kept (Nat.le_refl now)
  | wrote kind value writes counter here elsewhere =>
      exact recorded.wrote room writes counter rfl rfl here elsewhere
  | removed counter here elsewhere =>
      exact recorded.removed rfl counter rfl rfl here elsewhere

end Recorded

end Bucket

end Leasehold
