import Leasehold.Proofs.Store.Transcript

set_option autoImplicit false

/-!
The counter of a bucket is the number of its writes.

Each write takes the next number, whichever key it is for, and nothing else moves the counter. So the
numbers that have been given out are those from one on, and no two records have the same one. At its
last value the counter stays, and only from there on is a number given out again.
-/

namespace Leasehold

namespace Exchange

def writes (exchange : Exchange) : Bool :=
  match exchange.operation, exchange.reply with
  | .create _ _, .ok _ | .update _ _ _, .ok _ => true
  | _, _ => false

def revision? (exchange : Exchange) : Option Revision :=
  match exchange.reply with
  | .ok (.written revision) => some revision
  | _ => none

def written (history : List Exchange) : Nat := history.countP writes

theorem written_concat (history : List Exchange) (exchange : Exchange) :
    written (history ++ [exchange]) = written history + if exchange.writes then 1 else 0 := by
  rw [written, List.countP_append, List.countP_singleton]
  rfl

end Exchange

namespace Bucket

variable {bucket after : Bucket} {now : Nat} {operation : Operation}
  {reply : Except StoreError Reply} {history : List Exchange}

/-- An operation writes a record under the next revision, or it changes neither the counter nor, other
than by taking it away, any record. -/
inductive Numbered (bucket : Bucket) (now : Nat) (operation : Operation) (after : Bucket) :
    Except StoreError Reply → Prop
  | wrote (value : Bytes)
      (writes : Exchange.writes ⟨operation, .ok (.written bucket.revision.next), now⟩ = true)
      (counter : after.revision = bucket.revision.next)
      (here : after.record? operation.key = some ⟨value, bucket.revision.next, now⟩)
      (elsewhere : ∀ key, key ≠ operation.key → after.record? key = bucket.record? key) :
      Numbered bucket now operation after (.ok (.written bucket.revision.next))
  | kept (reply : Except StoreError Reply) (idle : Exchange.writes ⟨operation, reply, now⟩ = false)
      (unnumbered : Exchange.revision? ⟨operation, reply, now⟩ = none)
      (counter : after.revision = bucket.revision)
      (fewer : ∀ key record, after.record? key = some record → bucket.record? key = some record) :
      Numbered bucket now operation after reply

theorem Performed.numbered (performed : bucket.Performed now operation reply after) :
    bucket.Numbered now operation after reply := by
  have elsewhere (key : String) (apart : key ≠ operation.key) := performed.record?_of_ne apart
  cases performed with
  | struck => cases operation <;> exact .kept _ rfl rfl rfl fun _ _ found => found
  | found | missing | taken | stale | gone =>
      exact .kept _ rfl rfl revision_purge fun _ _ found => record?_of_purge found
  | created key value =>
      have here := @record?_write (bucket.purge now key) now key value
      rw [revision_purge] at here
      exact .wrote value rfl (congrArg Revision.next revision_purge) here elsewhere
  | updated key value =>
      have here := @record?_write (bucket.purge now key) now key value
      rw [revision_purge] at here
      exact .wrote value rfl (congrArg Revision.next revision_purge) here elsewhere
  | deleted key =>
      refine .kept _ rfl rfl revision_purge ?_
      intro other record found
      by_cases same : other = key
      · subst same
        rw [record?_drop] at found
        cases found
      · rw [record?_drop_of_ne same] at found
        exact record?_of_purge found

structure Tallied (bucket : Bucket) (history : List Exchange) : Prop where
  counted : bucket.revision.toNat = min (Exchange.written history) Revision.last
  numbered : (history.filterMap Exchange.revision?).map Revision.toNat =
    (List.range (Exchange.written history)).map fun place => min (place + 1) Revision.last
  stored : ∀ key record, bucket.record? key = some record →
    1 ≤ record.revision.toNat ∧ record.revision.toNat ≤ bucket.revision.toNat
  apart : ∀ key other record rival, bucket.record? key = some record →
    bucket.record? other = some rival → record.revision = rival.revision →
    key = other ∨ record.revision.toNat = Revision.last ∧ Revision.last < Exchange.written history

namespace Tallied

theorem opening (terms : BucketTerms) : Tallied { terms } [] where
  counted := rfl
  numbered := rfl
  stored := by
    intro key record never
    cases never
  apart := by
    intro key other record rival never
    cases never

theorem kept (tallied : bucket.Tallied history)
    (idle : Exchange.writes ⟨operation, reply, now⟩ = false)
    (unnumbered : Exchange.revision? ⟨operation, reply, now⟩ = none)
    (counter : after.revision = bucket.revision)
    (fewer : ∀ key record, after.record? key = some record → bucket.record? key = some record) :
    after.Tallied (history ++ [⟨operation, reply, now⟩]) := by
  have same : Exchange.written (history ++ [⟨operation, reply, now⟩]) = Exchange.written history := by
    rw [Exchange.written_concat, idle]
    rfl
  refine ⟨?_, ?_, ?_, ?_⟩
  · rw [counter, same]
    exact tallied.counted
  · rw [List.filterMap_append, List.filterMap_cons_none unnumbered, List.filterMap_nil,
      List.append_nil, same]
    exact tallied.numbered
  · intro key record found
    rw [counter]
    exact tallied.stored key record (fewer key record found)
  · intro key other record rival found foundRival
    rw [same]
    exact tallied.apart key other record rival (fewer key record found) (fewer other rival foundRival)

theorem wrote {value : Bytes} (tallied : bucket.Tallied history)
    (writes : Exchange.writes ⟨operation, .ok (.written bucket.revision.next), now⟩ = true)
    (counter : after.revision = bucket.revision.next)
    (here : after.record? operation.key = some ⟨value, bucket.revision.next, now⟩)
    (elsewhere : ∀ key, key ≠ operation.key → after.record? key = bucket.record? key) :
    after.Tallied (history ++ [⟨operation, .ok (.written bucket.revision.next), now⟩]) := by
  have grown : Exchange.written (history ++ [⟨operation, .ok (.written bucket.revision.next), now⟩]) =
      Exchange.written history + 1 := by
    rw [Exchange.written_concat, writes]
    rfl
  have number : bucket.revision.next.toNat =
      min (Exchange.written history + 1) Revision.last := by
    rw [Revision.toNat_next, tallied.counted]
    omega
  have old := tallied.counted
  -- While there are numbers left, the new one is above all that are stored.
  have young (key : String) (record : Record) (found : bucket.record? key = some record)
      (same : record.revision = bucket.revision.next) :
      record.revision.toNat = Revision.last ∧ Revision.last < Exchange.written history + 1 := by
    have bound := (tallied.stored key record found).2
    rw [same, number] at bound ⊢
    omega
  refine ⟨?_, ?_, ?_, ?_⟩
  · rw [counter, number, grown]
  · rw [List.filterMap_append, List.map_append, tallied.numbered, grown, List.range_succ,
      List.map_append]
    exact congrArg (_ ++ [·]) number
  · intro key record found
    rw [counter, number]
    by_cases same : key = operation.key
    · subst same
      rw [here] at found
      cases found
      have positive : 1 ≤ Revision.last := by decide
      show 1 ≤ bucket.revision.next.toNat ∧ bucket.revision.next.toNat ≤ _
      omega
    · rw [elsewhere key same] at found
      have bounds := tallied.stored key record found
      omega
  · intro key other record rival found foundRival same
    rw [grown]
    by_cases isKey : key = operation.key <;> by_cases isOther : other = operation.key
    · exact Or.inl (isKey.trans isOther.symm)
    · subst isKey
      rw [here] at found
      rw [elsewhere other isOther] at foundRival
      cases found
      have late := young other rival foundRival same.symm
      rw [← same] at late
      exact Or.inr late
    · subst isOther
      rw [here] at foundRival
      rw [elsewhere key isKey] at found
      cases foundRival
      exact Or.inr (young key record found same)
    · rw [elsewhere key isKey] at found
      rw [elsewhere other isOther] at foundRival
      rcases tallied.apart key other record rival found foundRival same with one | many
      · exact Or.inl one
      · exact Or.inr ⟨many.1, Nat.lt_succ_of_lt many.2⟩

theorem performed (tallied : bucket.Tallied history)
    (performed : bucket.Performed now operation reply after) :
    after.Tallied (history ++ [⟨operation, reply, now⟩]) := by
  cases performed.numbered with
  | wrote value writes counter here elsewhere =>
      exact tallied.wrote writes counter here elsewhere
  | kept _ idle unnumbered counter fewer => exact tallied.kept idle unnumbered counter fewer

end Tallied

end Bucket

namespace Session

variable {session : Session}

theorem tallied_of_run (terms : BucketTerms) (events : List Event) :
    ((opening terms).run events).2.bucket.Tallied ((opening terms).transcript events) := by
  induction events using List.reverseRecOn with
  | nil => exact .opening terms
  | append_singleton events event ih =>
      rw [run_concat, transcript_concat]
      generalize ((opening terms).run events).2 = session at ih ⊢
      cases event with
      | perform operation => exact ih.performed (session.bucket.performed session.now operation)
      | inject | pass =>
          rw [exchange?, Option.toList_none, List.append_nil]
          exact ⟨ih.counted, ih.numbered, ih.stored, ih.apart⟩

theorem revision_le_of_run (session : Session) (events : List Event) :
    session.bucket.revision.toNat ≤ (session.run events).2.bucket.revision.toNat := by
  induction events generalizing session with
  | nil => exact Nat.le_refl _
  | cons event rest ih => exact Nat.le_trans (session.revision_le_of_step event) (ih _)

structure Counts (session : Session) (event : Event) : Prop where
  written : ∀ exchange ∈ session.exchange? event, exchange.writes = true →
    exchange.reply = .ok (.written (session.step event).2.bucket.revision) ∧
      (session.step event).2.bucket.revision.toNat =
        min (session.bucket.revision.toNat + 1) Revision.last
  still : (∀ exchange ∈ session.exchange? event, exchange.writes = false) →
    (session.step event).2.bucket.revision = session.bucket.revision

theorem counts (session : Session) (event : Event) : session.Counts event := by
  cases event with
  | inject | pass => exact ⟨fun _ never => (by cases never), fun _ => rfl⟩
  | perform operation =>
      have numbered := (session.bucket.performed session.now operation).numbered
      constructor <;> simp only [exchange?, step, Option.mem_def]
      · rintro exchange ⟨⟩ writes
        generalize session.bucket.perform session.now operation = result at numbered writes ⊢
        obtain ⟨reply, after⟩ := result
        cases numbered with
        | wrote value _ counter =>
            rw [counter]
            exact ⟨rfl, Revision.toNat_next _⟩
        | kept _ idle =>
            cases writes.symm.trans idle
      · intro still
        have idle := still _ rfl
        generalize session.bucket.perform session.now operation = result at numbered idle ⊢
        obtain ⟨reply, after⟩ := result
        cases numbered with
        | wrote _ writes => cases writes.symm.trans idle
        | kept _ _ _ counter => exact counter

structure Accounts (session : Session) (history : List Exchange) : Prop where
  counter : session.bucket.revision.toNat = min (Exchange.written history) Revision.last
  numbers : (history.filterMap Exchange.revision?).map Revision.toNat =
    (List.range (Exchange.written history)).map fun place => min (place + 1) Revision.last
  increasing : Exchange.written history ≤ Revision.last →
    (history.filterMap Exchange.revision?).Pairwise fun earlier later => earlier.toNat < later.toNat
  next : ∀ event, session.Counts event
  lasting : ∀ events, session.bucket.revision.toNat ≤ (session.run events).2.bucket.revision.toNat
  stored : ∀ key record, session.bucket.record? key = some record →
    1 ≤ record.revision.toNat ∧ record.revision.toNat ≤ session.bucket.revision.toNat
  /-- Two keys have the same revision only once there have been more writes than there are numbers. -/
  apart : ∀ key other record rival, session.bucket.record? key = some record →
    session.bucket.record? other = some rival → record.revision = rival.revision →
    key = other ∨ record.revision.toNat = Revision.last ∧ Revision.last < Exchange.written history

/-- However a bucket is used, its counter is the number of creates and updates that have gone through,
up to the last value. Each of them is answered with the number that comes next, and nothing else moves
the counter. -/
theorem accounts_of_run (terms : BucketTerms) (events : List Event) :
    ((opening terms).run events).2.Accounts ((opening terms).transcript events) := by
  have tallied := tallied_of_run terms events
  refine ⟨tallied.counted, tallied.numbered, ?_, counts _, revision_le_of_run _, tallied.stored,
    tallied.apart⟩
  intro room
  have ascending : ((((opening terms).transcript events).filterMap Exchange.revision?).map
      Revision.toNat).Pairwise (· < ·) := by
    rw [tallied.numbered, List.pairwise_map]
    refine List.pairwise_lt_range.imp_of_mem ?_
    intro earlier later _ present before
    have bound := List.mem_range.mp present
    omega
  exact List.pairwise_map.mp ascending

end Session

end Leasehold
