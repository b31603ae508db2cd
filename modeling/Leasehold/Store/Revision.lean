set_option autoImplicit false

/-! Revisions number the writes of a bucket. The counter stops at its last value. -/

namespace Leasehold

structure Revision where
  number : UInt64 := 0
  deriving DecidableEq, Repr, Inhabited

namespace Revision

def toNat (revision : Revision) : Nat := revision.number.toNat

def last : Nat := UInt64.size - 1

def next (revision : Revision) : Revision :=
  if revision.toNat = last then revision else ⟨revision.number + 1⟩

instance : Ord Revision := ⟨fun left right => compare left.toNat right.toNat⟩

/-- The text of a revision where an error shows what a key holds. -/
def quoted (revision : Revision) : String := s!"Revision({revision.number})"

instance : ToString Revision := ⟨fun revision => toString revision.number⟩

theorem toNat_le_last (revision : Revision) : revision.toNat ≤ last :=
  Nat.le_sub_one_of_lt revision.number.toNat_lt_size

theorem toNat_inj {left right : Revision} : left.toNat = right.toNat ↔ left = right := by
  constructor
  · intro same
    cases left; cases right
    exact congrArg Revision.mk (UInt64.toNat_inj.mp same)
  · rintro rfl; rfl

theorem toNat_next (revision : Revision) : revision.next.toNat = min (revision.toNat + 1) last := by
  have bound := revision.toNat_le_last
  unfold next
  split
  · omega
  · have inside : revision.number.toNat + 1 < UInt64.size := by
      simp only [toNat, last] at *
      omega
    have sum : (revision.number + 1).toNat = revision.number.toNat + 1 := by
      rw [UInt64.toNat_add]
      exact Nat.mod_eq_of_lt inside
    simp only [toNat, sum]
    simp only [toNat] at *
    omega

end Revision

end Leasehold
