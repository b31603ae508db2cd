import Mathlib.Logic.Basic
import Leasehold.Proofs.Store.Deed

set_option autoImplicit false

/-!
One key of a bucket, with its revisions under other numbers.

What is done to that key does the same to its excerpt, and what is done to other keys does not show
there. Nothing is asked of the new numbers but that they count the writes of the key and tell apart
the revisions that are compared.
-/

namespace Leasehold

/-! ### Other numbers -/

section Renamed

variable (rename : Revision → Revision)

def Record.renamed (record : Record) : Record := { record with revision := rename record.revision }

def Entry.renamed (entry : Entry) : Entry := { entry with revision := rename entry.revision }

def StoreError.renamed : StoreError → StoreError
  | wrongRevision key expected actual => wrongRevision key (rename expected) (actual.map rename)
  | error => error

def Reply.renamed : Reply → Reply
  | found entry => found (entry.renamed rename)
  | written revision => written (rename revision)
  | removed => removed

def Operation.renamed : Operation → Operation
  | update key value expected => update key value (rename expected)
  | operation => operation

def renamedAnswer {α : Type} (value : α → α) : Except StoreError α → Except StoreError α
  | .ok result => .ok (value result)
  | .error cause => .error (cause.renamed rename)

end Renamed

namespace Bucket

def excerpt (bucket : Bucket) (rename : Revision → Revision) (key : String) : Bucket :=
  { bucket with
    records := (bucket.records.filter (·.1 = key)).map fun named =>
      (named.1, named.2.renamed rename)
    revision := rename bucket.revision }

variable {bucket after : Bucket} {rename : Revision → Revision} {key other : String} {now : Nat}
  {operation : Operation} {reply : Except StoreError Reply}

theorem record?_excerpt :
    (bucket.excerpt rename key).record? key = (bucket.record? key).map (Record.renamed rename) := by
  simp only [record?, excerpt]
  induction bucket.records with
  | nil => rfl
  | cons named rest ih =>
      obtain ⟨name, record⟩ := named
      by_cases same : name = key
      · simp [same]
      · have elsewhere : (key == name) = false := beq_false_of_ne (Ne.symm same)
        simpa [same, List.lookup_cons, elsewhere] using ih

theorem live?_excerpt :
    (bucket.excerpt rename key).live? now key =
      (bucket.live? now key).map (Record.renamed rename) := by
  simp only [live?, record?_excerpt]
  cases bucket.record? key with
  | none => rfl
  | some record =>
      have same : (bucket.excerpt rename key).expired now (record.renamed rename) =
          bucket.expired now record := rfl
      simp only [Option.map_some, Option.filter_some, same]
      split <;> rfl

/-! ### Changes of the key -/

theorem excerpt_drop : (bucket.drop key).excerpt rename key = (bucket.excerpt rename key).drop key := by
  have gone : (bucket.records.filter (·.1 != key)).filter (·.1 = key) = [] := by
    rw [List.filter_filter, List.filter_eq_nil_iff]
    rintro ⟨name, record⟩ _
    simp
  have goneToo : ((bucket.records.filter (·.1 = key)).map fun named =>
      (named.1, named.2.renamed rename)).filter (·.1 != key) = [] := by
    rw [List.filter_map, List.map_eq_nil_iff, List.filter_filter, List.filter_eq_nil_iff]
    rintro ⟨name, record⟩ _
    simp
  simp only [excerpt, drop, gone, goneToo, List.map_nil]

theorem excerpt_purge :
    (bucket.purge now key).excerpt rename key = (bucket.excerpt rename key).purge now key := by
  simp only [purge, record?_excerpt]
  cases bucket.record? key with
  | none => rfl
  | some record =>
      have same : (bucket.excerpt rename key).expired now (record.renamed rename) =
          bucket.expired now record := rfl
      simp only [Option.map_some, same]
      split
      · exact excerpt_drop
      · rfl

theorem excerpt_write {value : Bytes}
    (counted : rename bucket.revision.next = (rename bucket.revision).next) :
    (bucket.write now key value).2.excerpt rename key =
      ((bucket.excerpt rename key).write now key value).2 := by
  have rest := congrArg Bucket.records (@excerpt_drop bucket rename key)
  have own : (bucket.write now key value).2.records.filter (·.1 = key) =
      (key, ⟨value, bucket.revision.next, now⟩) :: (bucket.drop key).records.filter (·.1 = key) :=
    List.filter_cons_of_pos (decide_eq_true rfl)
  have renamed : Record.renamed rename ⟨value, bucket.revision.next, now⟩ =
      ⟨value, (rename bucket.revision).next, now⟩ := congrArg (Record.mk value · now) counted
  refine congrArg₂ (fun records revision => { bucket with records, revision }) ?_ counted
  rw [own, List.map_cons, renamed]
  exact congrArg ((key, (⟨value, (rename bucket.revision).next, now⟩ : Record)) :: ·) rest

/-- An operation on the key does to the excerpt what it does to the bucket. -/
theorem Performed.excerpt (performed : bucket.Performed now operation reply after)
    (author : Option Nat) (here : operation.key = key) (calm : bucket.injected = none)
    (counted : ∀ deed, Deed.of? author operation reply after now = some deed →
      deed.kind ≠ .removed → rename bucket.revision.next = (rename bucket.revision).next)
    (apart : ∀ value expected record, operation = .update key value expected →
      bucket.record? key = some record → rename record.revision = rename expected →
      record.revision = expected) :
    (bucket.excerpt rename key).Performed now (operation.renamed rename)
      (renamedAnswer rename (Reply.renamed rename) reply) (after.excerpt rename key) := by
  have quiet : (bucket.excerpt rename key).injected = none := calm
  have shown {record : Record} (live : bucket.live? now key = some record) :
      (bucket.excerpt rename key).live? now key = some (record.renamed rename) := by
    rw [live?_excerpt, live, Option.map_some]
  have vacated (vacant : bucket.live? now key = none) :
      (bucket.excerpt rename key).live? now key = none := by
    rw [live?_excerpt, vacant, Option.map_none]
  have written {value : Bytes} (counted : rename bucket.revision.next = (rename bucket.revision).next) :
      ((bucket.purge now key).write now key value).2.excerpt rename key =
        (((bucket.excerpt rename key).purge now key).write now key value).2 := by
    rw [excerpt_write (by rw [revision_purge]; exact counted), excerpt_purge]
  have answered (counted : rename bucket.revision.next = (rename bucket.revision).next) :
      renamedAnswer rename (Reply.renamed rename) (.ok (.written bucket.revision.next)) =
        .ok (.written (bucket.excerpt rename key).revision.next) :=
    congrArg (fun revision => Except.ok (Reply.written revision)) counted
  cases performed with
  | struck _ failure waiting =>
      rw [calm] at waiting
      cases waiting
  | found name record _ live =>
      obtain rfl : name = key := here
      rw [excerpt_purge]
      exact .found name (record.renamed rename) quiet (shown live)
  | missing name _ vacant =>
      obtain rfl : name = key := here
      rw [excerpt_purge]
      exact .missing name quiet (vacated vacant)
  | taken name value record _ live =>
      obtain rfl : name = key := here
      rw [excerpt_purge]
      exact .taken name value (record.renamed rename) quiet (shown live)
  | gone name value expected _ vacant =>
      obtain rfl : name = key := here
      rw [excerpt_purge]
      exact .gone name value (rename expected) quiet (vacated vacant)
  | created name value _ vacant =>
      obtain rfl : name = key := here
      have counted := counted _ rfl Deed.Kind.noConfusion
      have created := @Performed.created _ now name value quiet (vacated vacant)
      rw [written counted, answered counted]
      exact created
  | updated name value record _ live =>
      obtain rfl : name = key := here
      have counted := counted _ rfl Deed.Kind.noConfusion
      have updated := @Performed.updated _ now name value (record.renamed rename) quiet (shown live)
      rw [written counted, answered counted]
      exact updated
  | stale name value expected record _ live moved =>
      obtain rfl : name = key := here
      have held := (live?_eq_some_iff.mp live).1
      rw [excerpt_purge]
      refine .stale name value (rename expected) (record.renamed rename) quiet (shown live) ?_
      exact fun same => moved (apart value expected record rfl held same)
  | deleted name =>
      obtain rfl : name = key := here
      rw [excerpt_drop, excerpt_purge]
      exact .deleted name quiet

/-! ### Changes of other keys -/

theorem excerpt_drop_of_ne (apart : other ≠ key) :
    (bucket.drop other).excerpt rename key = bucket.excerpt rename key := by
  have same : (bucket.records.filter (·.1 != other)).filter (·.1 = key) =
      bucket.records.filter (·.1 = key) := by
    rw [List.filter_filter]
    refine List.filter_congr ?_
    rintro ⟨name, record⟩ _
    by_cases here : name = key
    · simp [here, Ne.symm apart]
    · simp [here]
  simp only [excerpt, drop, same]

theorem excerpt_purge_of_ne (apart : other ≠ key) :
    (bucket.purge now other).excerpt rename key = bucket.excerpt rename key := by
  unfold purge
  split
  · split
    · exact excerpt_drop_of_ne apart
    · rfl
  · rfl

theorem excerpt_write_of_ne {value : Bytes} (apart : other ≠ key)
    (kept : rename bucket.revision.next = rename bucket.revision) :
    (bucket.write now other value).2.excerpt rename key = bucket.excerpt rename key := by
  have rest := congrArg Bucket.records (@excerpt_drop_of_ne bucket rename key other apart)
  have passed : (bucket.write now other value).2.records.filter (·.1 = key) =
      (bucket.drop other).records.filter (·.1 = key) :=
    List.filter_cons_of_neg (by simpa using apart)
  refine congrArg₂ (fun records revision => { bucket with records, revision }) ?_ kept
  rw [passed]
  exact rest

theorem Performed.excerpt_of_ne (performed : bucket.Performed now operation reply after)
    (author : Option Nat) (elsewhere : operation.key ≠ key) (calm : bucket.injected = none)
    (kept : ∀ deed, Deed.of? author operation reply after now = some deed →
      deed.kind ≠ .removed → rename bucket.revision.next = rename bucket.revision) :
    after.excerpt rename key = bucket.excerpt rename key := by
  have written {name : String} {value : Bytes} (apart : name ≠ key)
      (kept : rename bucket.revision.next = rename bucket.revision) :
      ((bucket.purge now name).write now name value).2.excerpt rename key =
        bucket.excerpt rename key := by
    rw [excerpt_write_of_ne apart (by rw [revision_purge]; exact kept), excerpt_purge_of_ne apart]
  cases performed with
  | struck _ failure waiting =>
      rw [calm] at waiting
      cases waiting
  | found | missing | taken | gone | stale => exact excerpt_purge_of_ne elsewhere
  | created | updated =>
      exact written elsewhere (kept _ rfl Deed.Kind.noConfusion)
  | deleted => exact (excerpt_drop_of_ne elsewhere).trans (excerpt_purge_of_ne elsewhere)

end Bucket

end Leasehold
