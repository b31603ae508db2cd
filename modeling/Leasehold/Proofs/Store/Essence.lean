import Leasehold.Proofs.Store.Transcript

set_option autoImplicit false

/-!
What fails and what only looks leaves no trace, and an injected failure strikes just once.

A run keeps its essence when all else is dropped: the operations that succeeded and were more than a
look, at their own instants. The bucket of the shorter run may hold other records, for it has purged
less, but what is live in it and what it counts are the same throughout (`Session.Alike`).
-/

namespace Leasehold

/-- A success that is more than a look. -/
def Exchange.matters (exchange : Exchange) : Bool :=
  match exchange.operation, exchange.reply with
  | .get _, _ => false
  | _, .ok _ => true
  | _, .error _ => false

def Event.injected? : Event → Option StoreError
  | .inject failure => some failure
  | .perform _ | .pass _ => none

def Event.passes : Event → Bool
  | .pass _ => true
  | .perform _ | .inject _ => false

namespace Session

/-- Whether an event stays when looks, failures and the injection of failures are dropped. -/
def keeps (session : Session) (event : Event) : Bool :=
  event.passes || (session.exchange? event).any Exchange.matters

def essence (session : Session) : List Event → List Event
  | [] => []
  | event :: rest =>
      [event].filter session.keeps ++ (session.step event).2.essence rest

/-- What operations can show of two sessions is the same, unless a failure waits to strike. -/
structure Alike (session other : Session) : Prop where
  now : other.now = session.now
  terms : other.bucket.terms = session.bucket.terms
  revision : other.bucket.revision = session.bucket.revision
  live : ∀ key, other.bucket.live? other.now key = session.bucket.live? session.now key

def relieved (session : Session) : Session :=
  { session with bucket := { session.bucket with injected := none } }

variable {session other : Session}

theorem essence_append (session : Session) (left right : List Event) :
    session.essence (left ++ right) =
      session.essence left ++ (session.run left).2.essence right := by
  induction left generalizing session with
  | nil => rfl
  | cons event rest ih => simp only [List.cons_append, essence, run, ih, List.append_assoc]

theorem essence_concat_of_keeps {events : List Event} {event : Event}
    (keeps : (session.run events).2.keeps event = true) :
    session.essence (events ++ [event]) = session.essence events ++ [event] := by
  rw [essence_append, essence, essence, List.filter_cons_of_pos keeps, List.filter_nil,
    List.append_nil]

theorem essence_concat_of_drops {events : List Event} {event : Event}
    (drops : (session.run events).2.keeps event = false) :
    session.essence (events ++ [event]) = session.essence events := by
  rw [essence_append, essence, essence, List.filter_cons_of_neg (Bool.eq_false_iff.mp drops),
    List.filter_nil, List.append_nil, List.append_nil]

/-! ### Operations that are dropped and operations that stay -/

namespace Alike

theorem refl (session : Session) : session.Alike session :=
  ⟨rfl, rfl, rfl, fun _ => rfl⟩

/-- An operation that does not matter leaves all that is live and counted. -/
theorem dropped {operation : Operation} {reply : Except StoreError Reply} {after : Bucket}
    (alike : session.Alike other)
    (performed : session.bucket.Performed session.now operation reply after)
    (idle : Exchange.matters ⟨operation, reply, session.now⟩ = false) :
    Alike { session with bucket := after } other := by
  have revision : after.revision = session.bucket.revision := by
    cases performed with
    | struck => rfl
    | found | missing | taken | stale | gone => exact Bucket.revision_purge
    | created | updated | deleted => cases idle
  have unchanged : operation.leaves? reply session.now = none := by
    cases performed with
    | struck => cases operation <;> rfl
    | found | missing | taken | stale | gone => rfl
    | created | updated | deleted => cases idle
  refine ⟨alike.now, alike.terms.trans performed.terms_eq.symm,
    alike.revision.trans revision.symm, ?_⟩
  intro key
  rw [alike.live key]
  by_cases same : key = operation.key
  · subst same
    rw [performed.live?_eq, unchanged, Option.getD_none]
  · exact (performed.live?_of_ne session.now same).symm

/-- An operation that succeeds in one of two sessions that are alike does the same in the other. -/
theorem kept {operation : Operation} {reply : Except StoreError Reply} {after : Bucket}
    (alike : session.Alike other) (calm : other.bucket.injected = none)
    (performed : session.bucket.Performed session.now operation reply after)
    (matters : Exchange.matters ⟨operation, reply, session.now⟩ = true) :
    ∃ left, other.bucket.Performed other.now operation reply left ∧
      Alike { session with bucket := after } { other with bucket := left } := by
  have both {left : Bucket} (counted : left.revision = after.revision)
      (repeated : other.bucket.Performed other.now operation reply left) :
      ∃ left, other.bucket.Performed other.now operation reply left ∧
        Alike { session with bucket := after } { other with bucket := left } := by
    refine ⟨left, repeated, alike.now, ?_, counted, ?_⟩
    · exact repeated.terms_eq.trans (alike.terms.trans performed.terms_eq.symm)
    · intro key
      change left.live? other.now key = after.live? session.now key
      by_cases same : key = operation.key
      · subst same
        rw [repeated.live?_eq, performed.live?_eq, alike.live, alike.now]
      · rw [repeated.live?_of_ne other.now same, performed.live?_of_ne session.now same, alike.live]
  have counted (key : String) (value : Bytes) :
      ((other.bucket.purge other.now key).write other.now key value).2.revision =
        ((session.bucket.purge session.now key).write session.now key value).2.revision := by
    simp only [Bucket.write, Bucket.revision_purge, alike.revision]
  cases performed with
  | struck => cases operation <;> cases matters
  | found | missing | taken | stale | gone => cases matters
  | created key value _ vacant =>
      refine both (counted key value) ?_
      rw [← alike.revision]
      exact .created key value calm ((alike.live key).trans vacant)
  | updated key value record _ live =>
      refine both (counted key value) ?_
      rw [← alike.revision]
      exact .updated key value record calm ((alike.live key).trans live)
  | deleted key =>
      refine both ?_ (.deleted key calm)
      exact Bucket.revision_purge.trans (alike.revision.trans Bucket.revision_purge.symm)

theorem passed (alike : session.Alike other) (duration : Nat) :
    Alike { session with now := session.now + duration } { other with now := other.now + duration }
    where
  now := congrArg (· + duration) alike.now
  terms := alike.terms
  revision := alike.revision
  live := by
    intro key
    ext record
    have expired : other.bucket.expired (other.now + duration) record =
        session.bucket.expired (session.now + duration) record := by
      rw [alike.now, Bucket.expired_congr alike.terms]
    rw [Bucket.live?_later_iff (Nat.le_add_right _ duration),
      Bucket.live?_later_iff (Nat.le_add_right _ duration), alike.live key, expired]

end Alike

theorem bucket_of_performed {operation : Operation} {reply : Except StoreError Reply} {after : Bucket}
    (performed : session.bucket.Performed session.now operation reply after) :
    (session.step (.perform operation)).2 = { session with bucket := after } := by
  simp only [step, performed.perform_eq]

theorem exchange?_of_performed {operation : Operation} {reply : Except StoreError Reply}
    {after : Bucket} (performed : session.bucket.Performed session.now operation reply after) :
    session.exchange? (.perform operation) = some ⟨operation, reply, session.now⟩ := by
  simp only [exchange?, performed.perform_eq]

/-! ### What a run and its essence have in common -/

/-- The essence of a run ends alike, with no failure waiting, and its exchanges are those of the run
that matter. -/
theorem essence_of_run (first : Session) (calm : first.bucket.injected = none)
    (events : List Event) :
    (first.run events).2.Alike (first.run (first.essence events)).2 ∧
      (first.run (first.essence events)).2.bucket.injected = none ∧
      first.transcript (first.essence events) =
        (first.transcript events).filter Exchange.matters := by
  induction events using List.reverseRecOn with
  | nil => exact ⟨.refl first, calm, rfl⟩
  | append_singleton events event ih =>
      obtain ⟨alike, quiet, exchanged⟩ := ih
      have keeps := @essence_concat_of_keeps first events event
      have drops := @essence_concat_of_drops first events event
      rw [transcript_concat, run_concat, List.filter_append]
      generalize (first.run events).2 = session at alike keeps drops ⊢
      cases event with
      | perform operation =>
          have performed := session.bucket.performed session.now operation
          generalize (session.bucket.perform session.now operation).1 = reply at performed
          generalize (session.bucket.perform session.now operation).2 = after at performed
          have exchange := exchange?_of_performed performed
          rw [bucket_of_performed performed, exchange, Option.toList_some]
          cases matters : Exchange.matters ⟨operation, reply, session.now⟩ with
          | false =>
              rw [drops (by rw [Session.keeps, exchange]; exact matters),
                List.filter_cons_of_neg (Bool.eq_false_iff.mp matters), List.filter_nil,
                List.append_nil]
              exact ⟨alike.dropped performed matters, quiet, exchanged⟩
          | true =>
              obtain ⟨left, repeated, alikeAfter⟩ := alike.kept quiet performed matters
              rw [keeps (by rw [Session.keeps, exchange]; exact matters), run_concat,
                transcript_concat, bucket_of_performed repeated, exchange?_of_performed repeated,
                Option.toList_some, alike.now, List.filter_cons_of_pos matters, List.filter_nil,
                exchanged]
              exact ⟨alike.now ▸ alikeAfter, repeated.injected_eq, rfl⟩
      | inject failure =>
          rw [drops rfl, exchange?, Option.toList_none, List.filter_nil, List.append_nil]
          exact ⟨⟨alike.now, alike.terms, alike.revision, alike.live⟩, quiet, exchanged⟩
      | pass duration =>
          rw [keeps rfl, run_concat, transcript_concat, exchange?, exchange?, Option.toList_none,
            List.filter_nil, List.append_nil, List.append_nil]
          exact ⟨alike.passed duration, quiet, exchanged⟩

/-! ### A failure strikes once -/

theorem relieved_of_run {pause : List Event}
    (idle : ∀ event ∈ pause, ∀ operation, event ≠ .perform operation) :
    (session.run pause).2.relieved = (session.relieved.run (pause.filter Event.passes)).2 := by
  induction pause generalizing session with
  | nil => rfl
  | cons event rest ih =>
      have idleRest (other : Event) (present : other ∈ rest) :=
        idle other (List.mem_cons_of_mem _ present)
      cases event with
      | perform operation => exact absurd rfl (idle _ List.mem_cons_self operation)
      | inject failure => exact ih idleRest
      | pass duration => exact ih idleRest

/-- Of several failures injected in a row the last one waits. -/
theorem injected_of_run {pause : List Event} {failure : StoreError}
    (idle : ∀ event ∈ pause, ∀ operation, event ≠ .perform operation)
    (last : (pause.filterMap Event.injected?).getLast? = some failure) :
    (session.run pause).2.bucket.injected = some failure := by
  induction pause using List.reverseRecOn generalizing failure with
  | nil => cases last
  | append_singleton pause event ih =>
      rw [List.filterMap_append] at last
      rw [run_concat]
      cases event with
      | perform operation =>
          exact absurd rfl (idle _ (List.mem_append_right _ List.mem_cons_self) operation)
      | inject newest => exact congrArg some (Option.some.inj (List.getLast?_concat.symm.trans last))
      | pass duration =>
          refine ih (fun other present => idle other (List.mem_append_left _ present)) ?_
          exact (congrArg List.getLast? (List.append_nil _)).symm.trans last

/-- Drop from a run all looks, all operations that failed and all injected failures. Then each
operation that is left is answered as before, and at each point of the run the counter and all that is
live are the same. A failure that is injected strikes the next operation, whichever that is, and
leaves the bucket as if neither had happened. -/
theorem alike_essence (terms : BucketTerms) :
    (∀ done rest : List Event,
      (∃ later, (opening terms).essence (done ++ rest) = (opening terms).essence done ++ later) ∧
        ((opening terms).run done).2.Alike ((opening terms).run ((opening terms).essence done)).2) ∧
      (∀ events : List Event, (opening terms).transcript ((opening terms).essence events) =
        ((opening terms).transcript events).filter Exchange.matters) ∧
      ∀ (session : Session) (pause : List Event) (operation : Operation) (failure : StoreError),
        (∀ event ∈ pause, ∀ operation, event ≠ .perform operation) →
        (pause.filterMap Event.injected?).getLast? = some failure →
        (session.run pause).2.step (.perform operation) =
          (some (.error failure), (session.relieved.run (pause.filter Event.passes)).2) := by
  refine ⟨?_, ?_, ?_⟩
  · intro done rest
    exact ⟨⟨_, essence_append _ done rest⟩, (essence_of_run _ rfl done).1⟩
  · intro events
    exact (essence_of_run _ rfl events).2.2
  · intro session pause operation failure idle last
    have waiting : (session.run pause).2.bucket.injected = some failure := injected_of_run idle last
    rw [← relieved_of_run idle]
    generalize (session.run pause).2 = reached at waiting ⊢
    have struck := @Bucket.Performed.struck reached.bucket reached.now operation failure waiting
    simp only [step, struck.perform_eq, relieved]

/-- Two failures are injected in a row while time passes. -/
def twoFailures : List Event := [.inject (.unavailable "one"), .pass 5, .inject (.timeout 2)]

theorem alike_twoFailures :
    (∀ event ∈ twoFailures, ∀ operation, event ≠ .perform operation) ∧
      (twoFailures.filterMap Event.injected?).getLast? = some (.timeout 2) ∧
      ((opening ⟨"b", 1_000_000⟩).run twoFailures).2.step (.perform (.create "k" [1])) =
        (some (.error (.timeout 2)),
          ((opening ⟨"b", 1_000_000⟩).relieved.run (twoFailures.filter Event.passes)).2) :=
  have idle : ∀ event ∈ twoFailures, ∀ operation, event ≠ .perform operation := by
    simp [twoFailures]
  ⟨idle, rfl, (alike_essence ⟨"b", 1_000_000⟩).2.2 _ twoFailures (.create "k" [1]) (.timeout 2) idle
    rfl⟩

/-- Only the second failure strikes, and then no more. -/
example :
    ((opening ⟨"b", 1_000_000⟩).run
        [.perform (.create "k" [1]), .inject (.unavailable "one"), .inject (.timeout 2),
          .perform (.get "other"), .perform (.get "k")]).1.map Prod.fst =
      [some (.ok (.written ⟨1⟩)), none, none, some (.error (.timeout 2)),
        some (.ok (.found ⟨"k", [1], ⟨1⟩⟩))] := by
  decide

end Session

end Leasehold
