import Leasehold.Settings.Override
import Leasehold.Proofs.Text.Spelling

set_option autoImplicit false

/-!
Function names in the text of a variable.

A text lists names if it can be cut at commas into segments, some of which are blank while the others
hold the names in order, with blanks around them. A comma is not blank and no name has one, so there
is no other way to cut the text, and the names that are taken from it are the only plain ones that it
lists. Every text lists some.
-/

namespace Leasehold

namespace Text

variable {α : Type} [DecidableEq α] {separator : α}

theorem pieces_eq_splitOn (separator : α) (items : List α) :
    pieces separator items = items.splitOn separator := by
  induction items with
  | nil => rfl
  | cons item rest ih =>
      rw [pieces, List.splitOn_cons_eq_if_modifyHead, ih]
      by_cases same : item = separator
      · simp [same]
      · simp only [same, beq_iff_eq, if_false]
        cases cut : rest.splitOn separator with
        | nil => exact absurd cut (List.splitOn_ne_nil separator rest)
        | cons first others => rfl

/-- A list without separators in its segments is cut where it was put together. -/
theorem pieces_intercalate {segments : List (List α)} (some : segments ≠ [])
    (whole : ∀ segment ∈ segments, separator ∉ segment) :
    pieces separator ([separator].intercalate segments) = segments := by
  rw [pieces_eq_splitOn, List.splitOn_intercalate separator whole some]

theorem not_mem_of_mem_pieces {piece items : List α} (present : piece ∈ pieces separator items) :
    separator ∉ piece := by
  induction items generalizing piece with
  | nil => simp_all [pieces]
  | cons item rest ih =>
      unfold pieces at present
      split at present
      · rcases List.mem_cons.mp present with rfl | later
        · exact List.not_mem_nil
        · exact ih later
      · next other =>
        cases cut : pieces separator rest with
        | nil => exact absurd cut (pieces_ne_nil separator rest)
        | cons first others =>
            rw [cut] at present ih
            rcases List.mem_cons.mp present with rfl | later
            · rw [List.mem_cons, not_or]
              exact ⟨Ne.symm other, ih List.mem_cons_self⟩
            · exact ih (List.mem_cons_of_mem first later)

end Text

open Text (Bare Blank Pads)

namespace Override

variable {text : String} {names : List String} {segment : List Char} {segments : List (List Char)}

/-- A name that can be told apart from what stands around it. -/
structure Plain (name : String) : Prop where
  nonempty : name ≠ ""
  whole : ',' ∉ name.toList
  bare : Bare name.toList

/-- Segments that hold names in order. Blank ones hold none. -/
inductive Holds : List (List Char) → List String → Prop where
  | nil : Holds [] []
  | blank {segment : List Char} {segments : List (List Char)} {names : List String}
      (blank : Blank segment) (rest : Holds segments names) : Holds (segment :: segments) names
  | name {segment : List Char} {segments : List (List Char)} {name : String} {names : List String}
      (pads : Pads segment name.toList) (rest : Holds segments names) :
      Holds (segment :: segments) (name :: names)

def Lists (text : String) (names : List String) : Prop :=
  ∃ segments, Holds segments names ∧ text.toList = [','].intercalate segments

def named (segments : List (List Char)) : List String :=
  ((segments.map Text.trim).filter (· ≠ [])).map String.ofList

theorem functionNames_eq (text : String) : functionNames text = named (Text.pieces ',' text.toList) :=
  rfl

theorem named_cons (segment : List Char) (segments : List (List Char)) :
    named (segment :: segments) =
      if Text.trim segment = [] then named segments
      else String.ofList (Text.trim segment) :: named segments := by
  by_cases empty : Text.trim segment = [] <;> simp [named, empty]

theorem blank_iff_trim_eq_nil : Blank segment ↔ Text.trim segment = [] := by
  rw [Text.trim_eq_iff]
  constructor
  · intro blank
    exact ⟨Text.bare_of_forall (by simp), segment, [], blank, by simp [Blank], by simp⟩
  · rintro ⟨-, before, after, blankBefore, blankAfter, rfl⟩
    intro character present
    simp only [List.append_nil, List.mem_append] at present
    exact present.elim (blankBefore character) (blankAfter character)

theorem not_mem_of_blank (blank : Blank segment) : ',' ∉ segment := fun present =>
  absurd (blank ',' present) (by decide)

namespace Holds

/-- No segment has a comma in it. -/
theorem whole (holds : Holds segments names) (plain : ∀ name ∈ names, Plain name) :
    ∀ segment ∈ segments, ',' ∉ segment := by
  induction holds with
  | nil => simp
  | blank blank rest ih => exact List.forall_mem_cons.mpr ⟨not_mem_of_blank blank, ih plain⟩
  | name pads rest ih =>
      obtain ⟨here, others⟩ := List.forall_mem_cons.mp plain
      obtain ⟨before, after, blankBefore, blankAfter, rfl⟩ := pads
      refine List.forall_mem_cons.mpr ⟨?_, ih others⟩
      simp only [List.mem_append, not_or]
      exact ⟨⟨not_mem_of_blank blankBefore, here.whole⟩, not_mem_of_blank blankAfter⟩

theorem named_eq (holds : Holds segments names) (plain : ∀ name ∈ names, Plain name) :
    named segments = names := by
  induction holds with
  | nil => rfl
  | blank blank rest ih => rw [named_cons, if_pos (blank_iff_trim_eq_nil.mp blank), ih plain]
  | @name segment segments name names pads rest ih =>
      obtain ⟨here, others⟩ := List.forall_mem_cons.mp plain
      have trimmed : Text.trim segment = name.toList := Text.trim_of_pads here.bare pads
      have nonempty : name.toList ≠ [] := mt String.toList_eq_nil_iff.mp here.nonempty
      rw [named_cons, trimmed, if_neg nonempty, String.ofList_toList, ih others]

end Holds

/-- Whatever the segments are, they hold the names that are taken from them. -/
theorem holds_named (segments : List (List Char)) : Holds segments (named segments) := by
  induction segments with
  | nil => exact .nil
  | cons segment segments ih =>
      rw [named_cons]
      split
      · next empty => exact .blank (blank_iff_trim_eq_nil.mpr empty) ih
      · exact .name (by simpa using Text.pads_trim segment) ih

theorem plain_of_mem_named (whole : ∀ segment ∈ segments, ',' ∉ segment) :
    ∀ name ∈ named segments, Plain name := by
  intro name present
  simp only [named, List.mem_map, List.mem_filter, decide_eq_true_eq] at present
  obtain ⟨_, ⟨⟨segment, among, rfl⟩, nonempty⟩, rfl⟩ := present
  refine ⟨mt String.ofList_eq_empty_iff.mp nonempty, ?_, ?_⟩
  · rw [String.toList_ofList]
    obtain ⟨before, after, -, -, split⟩ := Text.pads_trim segment
    intro comma
    apply whole segment among
    rw [split]
    simp [comma]
  · rw [String.toList_ofList]
    exact Text.bare_trim segment

/-- The names that are taken from a text are the plain ones that it lists. -/
theorem functionNames_eq_iff :
    functionNames text = names ↔ (∀ name ∈ names, Plain name) ∧ Lists text names := by
  rw [functionNames_eq]
  constructor
  · rintro rfl
    refine ⟨plain_of_mem_named fun _ => Text.not_mem_of_mem_pieces, ?_⟩
    exact ⟨_, holds_named _, (Text.intercalate_pieces ',' text.toList).symm⟩
  · rintro ⟨plain, segments, holds, spelled⟩
    cases segments with
    | nil =>
        cases holds
        rw [spelled]
        decide
    | cons segment segments =>
        rw [spelled, Text.pieces_intercalate (List.cons_ne_nil _ _) (holds.whole plain)]
        exact holds.named_eq plain

/-- Names with nothing but commas between them. -/
theorem lists_intercalate (names : List String) : Lists (",".intercalate names) names := by
  refine ⟨names.map String.toList, ?_, ?_⟩
  · induction names with
    | nil => exact .nil
    | cons name names ih => exact .name ⟨[], [], by simp [Blank], by simp [Blank], by simp⟩ ih
  · rw [String.toList_intercalate]
    rfl

end Override

end Leasehold
