import Leasehold.Proofs.Settings.Stopping

set_option autoImplicit false

/-!
The functions that a variable leaves in the settings.

The variable is taken unless one before it ends the sequence. What it leaves is then the names that
its text lists, also where a later variable cannot be read, and these names spelled out again leave
the same.
-/

namespace Leasehold

namespace Settings

open Override (Plain Lists functionNames)

variable {lookup : Variables} {settings : Settings} {text : String}

/-- The variables taken before can all be read, so that this one is reached. -/
def Reached (name : String) (lookup : Variables) : Prop :=
  ∀ entry ∈ spelled, Legible (before name lookup) entry

/-- Of two items in a list, one comes before the other. -/
theorem mem_takeWhile_or {items : List String} {one other : String} (apart : one ≠ other)
    (among : one ∈ items) :
    one ∈ items.takeWhile (· ≠ other) ∨ other ∈ items.takeWhile (· ≠ one) := by
  induction items with
  | nil => exact absurd among List.not_mem_nil
  | cons item items ih =>
      by_cases here : item = one
      · subst here
        exact .inl (by simp [apart])
      by_cases there : item = other
      · subst there
        exact .inr (by simp [Ne.symm apart])
      have further := (List.mem_cons.mp among).resolve_left (Ne.symm here)
      rw [List.takeWhile_cons_of_pos (by simpa using there),
        List.takeWhile_cons_of_pos (by simpa using here)]
      exact (ih further).imp (List.mem_cons_of_mem item) (List.mem_cons_of_mem item)

/-- A fault after the functions leaves them as they were set. -/
theorem functions_override (reached : Reached "SKIFF_FUNCTIONS" lookup)
    (given : lookup "SKIFF_FUNCTIONS" = some text) :
    (settings.override lookup).1.scaler.functions = functionNames text := by
  cases found : firstIllegible? lookup with
  | none => simp [override_of_legible found, Layer.onto, Layer.ofVariables, given]
  | some fault =>
      obtain ⟨name, wrong⟩ := fault
      have first := firstIllegible?_eq_some_iff.mp found
      have later : "SKIFF_FUNCTIONS" ∈ sources.takeWhile (· ≠ name) := by
        obtain ⟨earlier, spelling, others, split, -, present, unread⟩ := first
        have among : (name, spelling) ∈ spelled := by simp [split]
        have apart : "SKIFF_FUNCTIONS" ≠ name := by
          rintro rfl
          exact absurd (List.mem_map_of_mem among) (by decide : "SKIFF_FUNCTIONS" ∉ spelled.map (·.1))
        refine (mem_takeWhile_or apart (by decide)).resolve_right fun sooner => ?_
        exact unread (reached _ among wrong (by rw [before, if_pos sooner, present]))
      rw [override_of_firstFault first]
      simp only [Layer.onto, Layer.ofVariables, before, if_pos later, given, Option.map_some,
        Option.getD_some]

structure Taken (text : String) (functions : List String) : Prop where
  /-- However plain names are spelled, they are found again. -/
  undone : ∀ names, (∀ name ∈ names, Plain name) → Lists text names → functions = names
  plain : ∀ name ∈ functions, Plain name
  listed : Lists text functions
  /-- Joined with commas, the functions are taken as they are. -/
  again : ∀ settings lookup, Reached "SKIFF_FUNCTIONS" lookup →
    lookup "SKIFF_FUNCTIONS" = some (",".intercalate functions) →
    (override settings lookup).1.scaler.functions = functions

theorem taken_override (settings : Settings) (reached : Reached "SKIFF_FUNCTIONS" lookup)
    (given : lookup "SKIFF_FUNCTIONS" = some text) :
    Taken text (settings.override lookup).1.scaler.functions := by
  rw [functions_override reached given]
  obtain ⟨plain, listed⟩ := Override.functionNames_eq_iff.mp (Eq.refl (functionNames text))
  refine ⟨?_, plain, listed, ?_⟩
  · intro names others spelled
    exact Override.functionNames_eq_iff.mpr ⟨others, spelled⟩
  · intro settings lookup reached given
    rw [functions_override reached given]
    exact Override.functionNames_eq_iff.mpr ⟨plain, Override.lists_intercalate _⟩

/-- Two names, one of them twice, among blanks of several kinds, with a fault behind them. -/
def crowdedVariables : Variables := fun name =>
  [("SKIFF_BUCKET_TTL_MS", " +6000"), ("SKIFF_FUNCTIONS", "\u3000b ,, c d,\u00a0,b\t"),
    ("SKIFF_RETRY_DELAY_MS", "soon")].lookup name

theorem taken_crowded :
    Reached "SKIFF_FUNCTIONS" crowdedVariables ∧
      Taken "\u3000b ,, c d,\u00a0,b\t" (override {} crowdedVariables).1.scaler.functions ∧
      (override {} crowdedVariables).1.scaler.functions = ["b", "c d", "b"] := by
  have reached : Reached "SKIFF_FUNCTIONS" crowdedVariables :=
    firstIllegible?_eq_none_iff.mp (by decide +kernel)
  have given : crowdedVariables "SKIFF_FUNCTIONS" = some "\u3000b ,, c d,\u00a0,b\t" := by decide
  refine ⟨reached, taken_override {} reached given, ?_⟩
  rw [functions_override reached given]
  decide +kernel

end Settings

end Leasehold
