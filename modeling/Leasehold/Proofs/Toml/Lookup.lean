import Mathlib.Data.List.Nodup
import Mathlib.Data.List.Perm.Basic
import Leasehold.Toml.Value

set_option autoImplicit false

/-!
Look-ups in tables.

With its keys apart a table is a function of its keys, so neither the order of its entries nor keys
that nobody asks for make a difference. A list under names is such a table, and what stands at a place
of it is found under the name of the place.
-/

namespace Leasehold.Toml.Entries

variable {entries one other : Entries} {known : List String} {name key : String} {value : Value}

theorem lookup_eq_some_iff_mem (distinct : (entries.map Prod.fst).Nodup) :
    entries.lookup key = some value ↔ (key, value) ∈ entries := by
  induction entries with
  | nil => simp
  | cons entry entries ih =>
      obtain ⟨first, shown⟩ := entry
      obtain ⟨apart, distinct⟩ := List.nodup_cons.mp distinct
      by_cases same : key = first
      · subst same
        have missing : (key, value) ∉ entries := fun later => apart (List.mem_map.mpr ⟨_, later, rfl⟩)
        simp [missing, eq_comm]
      · have test : (key == first) = false := beq_eq_false_iff_ne.mpr same
        simp [List.lookup_cons, test, ih distinct, same]

theorem lookup_filter (entries : Entries) (among : name ∈ known) :
    (entries.filter fun entry => entry.1 ∈ known).lookup name = entries.lookup name := by
  induction entries with
  | nil => rfl
  | cons entry entries ih =>
      obtain ⟨first, shown⟩ := entry
      by_cases same : name = first
      · subst same
        simp [among]
      · have test : (name == first) = false := beq_eq_false_iff_ne.mpr same
        by_cases kept : first ∈ known <;> simp [kept, List.lookup_cons, test, ih]

/-- Apart from unknown keys, a table has the entries of another, in any order. -/
structure Shuffled (known : List String) (one other : Entries) : Prop where
  distinct : (one.map Prod.fst).Nodup
  same : (other.filter fun entry => entry.1 ∈ known).Perm (one.filter fun entry => entry.1 ∈ known)

theorem Shuffled.lookup (shuffled : Shuffled known one other) (among : name ∈ known) :
    other.lookup name = one.lookup name := by
  have left : ((one.filter fun entry => entry.1 ∈ known).map Prod.fst).Nodup :=
    shuffled.distinct.sublist (List.filter_sublist.map Prod.fst)
  have right : ((other.filter fun entry => entry.1 ∈ known).map Prod.fst).Nodup :=
    (shuffled.same.map Prod.fst).nodup_iff.mpr left
  rw [← lookup_filter other among, ← lookup_filter one among]
  apply Option.ext
  intro value
  rw [lookup_eq_some_iff_mem right, lookup_eq_some_iff_mem left, shuffled.same.mem_iff]

theorem lookup_zip {names : List String} (distinct : names.Nodup) (items : List Value) {place : Nat}
    (placed : names[place]? = some name) : (names.zip items).lookup name = items[place]? := by
  induction names generalizing items place with
  | nil => simp at placed
  | cons first names ih =>
      obtain ⟨apart, distinct⟩ := List.nodup_cons.mp distinct
      cases items with
      | nil => simp
      | cons item items =>
          cases place with
          | zero =>
              obtain rfl : first = name := by simpa using placed
              simp
          | succ place =>
              have later : names[place]? = some name := by simpa using placed
              have test : (name == first) = false := by
                rw [beq_eq_false_iff_ne]
                rintro rfl
                exact apart (List.mem_of_getElem? later)
              simpa [List.lookup_cons, test] using ih distinct items later

def present (fields : List (String × Option Value)) : Entries :=
  fields.filterMap fun (name, value?) => value?.map fun value => (name, value)

theorem lookup_present {fields : List (String × Option Value)}
    (distinct : (fields.map Prod.fst).Nodup) : (present fields).lookup name =
      (fields.lookup name).join := by
  induction fields with
  | nil => rfl
  | cons field fields ih =>
      obtain ⟨first, value?⟩ := field
      obtain ⟨apart, others⟩ := List.nodup_cons.mp distinct
      by_cases same : name = first
      · subst same
        have missing : fields.lookup name = none := by
          refine List.lookup_eq_none_iff.mpr fun field among => bne_iff_ne.mpr ?_
          rintro rfl
          exact apart (List.mem_map.mpr ⟨field, among, rfl⟩)
        cases value? with
        | none => simpa [present, missing] using ih others
        | some value => simp [present]
      · have test : (name == first) = false := beq_eq_false_iff_ne.mpr same
        cases value? with
        | none => simpa [present, List.lookup_cons, test] using ih others
        | some value => simpa [present, List.lookup_cons, test] using ih others

end Leasehold.Toml.Entries
