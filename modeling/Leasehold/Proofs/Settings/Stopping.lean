import Leasehold.Proofs.Settings.Layers
import Leasehold.Proofs.Settings.Names

set_option autoImplicit false

/-!
What the variables leave behind where one of them cannot be read.

The overrides are a sequence of writes with an end at the first text that cannot be read. A sequence
that ends there has done what it would have done to its end, had the faulty variable and those after
it not been set. So a partly overridden configuration is one with fewer variables, and what is known
of the whole sequence says which fields it has changed.
-/

namespace Leasehold

open Text (Numeral Pads)

def word : Bool → String
  | true => "true"
  | false => "false"

inductive Spelling where
  | number
  | truth

namespace Spelling

/-- A number of milliseconds in decimal digits, or one of the two words, with blanks around it. -/
def Reads : Spelling → String → Prop
  | number, text => ∃ millis core, Numeral maxMillis millis core ∧ Pads text.toList core
  | truth, text => ∃ value, Pads text.toList (word value).toList

def reads : Spelling → String → Bool
  | number, text => (Layer.millis? text).isSome
  | truth, text => (Override.truth? text).isSome

end Spelling

theorem Layer.millis?_eq_some_iff {text : String} {millis : Nat} :
    millis? text = some millis ↔
      ∃ core, Numeral maxMillis millis core ∧ Pads text.toList core := by
  rw [millis?, Text.natural?_eq_some_iff]
  constructor
  · exact fun numeral => ⟨_, numeral, Text.pads_trim _⟩
  · rintro ⟨core, numeral, pads⟩
    rwa [Text.trim_of_pads numeral.bare pads]

theorem Override.truth?_eq_some_iff {text : String} {value : Bool} :
    truth? text = some value ↔ Pads text.toList (word value).toList := by
  have solid : (word value).toList.all (fun character => !Text.isBlank character) = true := by
    cases value <;> rfl
  have bare : Text.Bare (word value).toList :=
    Text.bare_of_forall fun character present => by
      simpa using List.all_eq_true.mp solid character present
  have padded : Pads text.toList (word value).toList ↔ Text.trim text.toList = (word value).toList :=
    ⟨fun pads => Text.trim_eq_iff.mpr ⟨bare, pads⟩, fun same => (Text.trim_eq_iff.mp same).2⟩
  rw [padded, ← String.ofList_inj, String.ofList_toList, truth?]
  generalize String.ofList (Text.trim text.toList) = trimmed
  split
  · cases value <;> simp [word]
  · cases value <;> simp [word]
  · cases value <;> simp_all [word]

namespace Spelling

theorem reads_iff (spelling : Spelling) (text : String) :
    spelling.reads text = true ↔ spelling.Reads text := by
  cases spelling with
  | number => simp only [reads, Reads, Option.isSome_iff_exists, Layer.millis?_eq_some_iff]
  | truth => simp only [reads, Reads, Option.isSome_iff_exists, Override.truth?_eq_some_iff]

end Spelling

namespace Settings

variable {lookup : Variables} {settings : Settings} {name text : String}

def spelled : List (String × Spelling) :=
  [("SKIFF_BUCKET_TTL_MS", .number), ("SKIFF_UPDATE_INTERVAL_MS", .number),
    ("SKIFF_POLL_INTERVAL_MS", .number), ("SKIFF_OP_TIMEOUT_MS", .number),
    ("SKIFF_SCALE_INTERVAL_MS", .number), ("SKIFF_RECREATE_ON_ERROR", .truth),
    ("SKIFF_RETRY_DELAY_MS", .number)]

def sources : List String :=
  ["SKIFF_BUCKET", "SKIFF_BUCKET_TTL_MS", "SKIFF_UPDATE_INTERVAL_MS", "SKIFF_POLL_INTERVAL_MS",
    "SKIFF_OP_TIMEOUT_MS", "SKIFF_FUNCTIONS", "SKIFF_SCALE_INTERVAL_MS", "SKIFF_RECREATE_ON_ERROR",
    "SKIFF_RETRY_DELAY_MS"]

def Legible (lookup : Variables) (entry : String × Spelling) : Prop :=
  ∀ text, lookup entry.1 = some text → entry.2.Reads text

def FirstFault (lookup : Variables) (name text : String) : Prop :=
  ∃ earlier spelling later, spelled = earlier ++ (name, spelling) :: later ∧
    (∀ entry ∈ earlier, Legible lookup entry) ∧
    lookup name = some text ∧ ¬ spelling.Reads text

/-- The variables that are taken before one of them, and no others. -/
def before (name : String) (lookup : Variables) : Variables := fun source =>
  if source ∈ sources.takeWhile (· ≠ name) then lookup source else none

/-! ### The first fault -/

theorem legible_eq_map : legible = spelled.map fun entry => (entry.1, entry.2.reads) := rfl

theorem illegible?_eq_none_iff (source : String × (String → Bool)) :
    illegible? lookup source = none ↔
      ∀ text, lookup source.1 = some text → source.2 text = true := by
  simp [illegible?, Option.bind_eq_none_iff]

theorem illegible?_eq_some_iff (source : String × (String → Bool)) :
    illegible? lookup source = some (name, text) ↔
      source.1 = name ∧ lookup name = some text ∧ ¬ source.2 text = true := by
  simp only [illegible?, Option.bind_eq_some_iff, Option.ite_none_left_eq_some, Option.some.injEq,
    Prod.mk.injEq]
  constructor
  · rintro ⟨_, present, wrong, rfl, rfl⟩
    exact ⟨rfl, present, wrong⟩
  · rintro ⟨rfl, present, wrong⟩
    exact ⟨text, present, wrong, rfl, rfl⟩

theorem firstIllegible?_eq_none_iff :
    firstIllegible? lookup = none ↔ ∀ entry ∈ spelled, Legible lookup entry := by
  simp only [firstIllegible?, legible_eq_map, List.findSome?_map, List.findSome?_eq_none_iff,
    Function.comp_apply, illegible?_eq_none_iff, Spelling.reads_iff, Legible]

theorem firstIllegible?_eq_some_iff :
    firstIllegible? lookup = some (name, text) ↔ FirstFault lookup name text := by
  simp only [firstIllegible?, legible_eq_map, List.findSome?_map, List.findSome?_eq_some_iff,
    Function.comp_apply, illegible?_eq_none_iff, illegible?_eq_some_iff, Spelling.reads_iff,
    FirstFault, Legible]
  constructor
  · rintro ⟨earlier, ⟨_, spelling⟩, later, split, ⟨rfl, present, wrong⟩, right⟩
    exact ⟨earlier, spelling, later, split, right, present, wrong⟩
  · rintro ⟨earlier, spelling, later, split, right, present, wrong⟩
    exact ⟨earlier, (name, spelling), later, split, ⟨rfl, present, wrong⟩, right⟩

/-! ### A sequence that ends early -/

theorem overrideWith_of_absent {overrides : List Override}
    (absent : ∀ override ∈ overrides, lookup override.source = none) :
    overrideWith lookup overrides settings = (settings, .ok ()) := by
  induction overrides with
  | nil => rfl
  | cons override rest ih =>
      obtain ⟨here, others⟩ := List.forall_mem_cons.mp absent
      simp only [overrideWith, here]
      exact ih others

/-- What a sequence does depends on its own variables only. -/
theorem overrideWith_congr {fewer : Variables} {overrides : List Override}
    (same : ∀ override ∈ overrides, fewer override.source = lookup override.source) :
    overrideWith fewer overrides settings = overrideWith lookup overrides settings := by
  induction overrides generalizing settings with
  | nil => rfl
  | cons override rest ih =>
      obtain ⟨here, others⟩ := List.forall_mem_cons.mp same
      simp only [overrideWith, here, ih others]

/-- A sequence without a fault is followed by what comes after it. -/
theorem overrideWith_append {earlier : List Override}
    (right : ∀ override ∈ earlier, illegible? lookup override.legible = none)
    (rest : List Override) (settings : Settings) :
    overrideWith lookup (earlier ++ rest) settings =
      overrideWith lookup rest (overrideWith lookup earlier settings).1 := by
  induction earlier generalizing settings with
  | nil => rfl
  | cons override earlier ih =>
      obtain ⟨here, others⟩ := List.forall_mem_cons.mp right
      simp only [List.cons_append, overrideWith]
      cases present : lookup override.source with
      | none => exact ih others settings
      | some text =>
          cases changes : override.change? text with
          | none => simp [illegible?, Override.legible, present, changes] at here
          | some change =>
              simp only [changes]
              exact ih others (change settings)

theorem overrideWith_of_fault {override : Override} {later : List Override}
    (fault : illegible? lookup override.legible = some (name, text)) :
    overrideWith lookup (override :: later) settings =
      (settings, .error (.invalid name text "cannot be parsed")) := by
  obtain ⟨rfl, present, wrong⟩ := (illegible?_eq_some_iff _).mp fault
  have unread : override.change? text = none := Option.not_isSome_iff_eq_none.mp wrong
  have found : lookup override.source = some text := present
  simp only [overrideWith, found, unread, Override.legible]

/-- No two overrides have the same variable. -/
theorem source_ne_of_split {earlier later : List Override}
    (split : Override.all = earlier ++ later) {first second : Override} (before : first ∈ earlier)
    (after : second ∈ later) : first.source ≠ second.source := by
  have distinct : (Override.all.map Override.source).Nodup := by decide
  rw [split, List.map_append] at distinct
  exact (List.nodup_append.mp distinct).2.2 _ (List.mem_map_of_mem before) _
    (List.mem_map_of_mem after)

theorem takeWhile_sources {earlier later : List Override} {override : Override}
    (split : Override.all = earlier ++ override :: later) :
    sources.takeWhile (· ≠ override.source) = earlier.map Override.source := by
  have listed : sources = Override.all.map Override.source := rfl
  have other : ∀ source ∈ earlier.map Override.source, decide (source ≠ override.source) = true := by
    intro source present
    obtain ⟨first, among, rfl⟩ := List.mem_map.mp present
    exact decide_eq_true (source_ne_of_split split among List.mem_cons_self)
  rw [listed, split, List.map_append, List.takeWhile_append_of_pos other, List.map_cons,
    List.takeWhile_cons_of_neg (by simp), List.append_nil]

/-- Up to the fault, the sequence does what it does without the variables from there on. -/
theorem override_of_firstIllegible? (fault : firstIllegible? lookup = some (name, text)) :
    (settings.override (before name lookup)).2 = .ok () ∧
      settings.override lookup = ((settings.override (before name lookup)).1,
        .error (.invalid name text "cannot be parsed")) := by
  rw [← findSome?_all] at fault
  obtain ⟨earlier, override, later, split, wrong, right⟩ := List.findSome?_eq_some_iff.mp fault
  obtain rfl : override.source = name := ((illegible?_eq_some_iff _).mp wrong).1
  have taken := takeWhile_sources split
  have agrees : ∀ entry ∈ earlier,
      before override.source lookup entry.source = lookup entry.source := by
    intro entry present
    rw [before, taken, if_pos (List.mem_map_of_mem present)]
  have absent : ∀ entry ∈ override :: later, before override.source lookup entry.source = none := by
    intro entry present
    rw [before, taken, if_neg]
    intro among
    obtain ⟨first, earliest, same⟩ := List.mem_map.mp among
    exact source_ne_of_split split earliest present same
  have right' : ∀ entry ∈ earlier, illegible? (before override.source lookup) entry.legible = none := by
    intro entry present
    rw [← right entry present]
    simp only [illegible?, Override.legible, agrees entry present]
  rw [Settings.override, Settings.override, split, overrideWith_append right',
    overrideWith_of_absent absent, overrideWith_append right, overrideWith_of_fault wrong,
    overrideWith_congr agrees]
  exact ⟨rfl, rfl⟩

theorem override_of_firstFault (fault : FirstFault lookup name text) :
    settings.override lookup = ((Layer.ofVariables (before name lookup)).onto settings,
      .error (.invalid name text "cannot be parsed")) := by
  obtain ⟨whole, partly⟩ := @override_of_firstIllegible? lookup settings name text
    (firstIllegible?_eq_some_iff.mpr fault)
  have legible : firstIllegible? (before name lookup) = none := by
    rw [snd_override] at whole
    cases found : firstIllegible? (before name lookup) with
    | none => rfl
    | some pair => simp [found] at whole
  rw [partly, override_of_legible legible]

/-! ### Every source of variables -/

structure Overridden (settings : Settings) (lookup : Variables) : Prop where
  /-- A number counts as what its digits say, whatever is around it. -/
  numbers : ∀ text millis, Layer.millis? text = some millis ↔
    ∃ core, Numeral maxMillis millis core ∧ Pads text.toList core
  truths : ∀ text value, Override.truth? text = some value ↔ Pads text.toList (word value).toList
  /-- Functions are the plain names that a text lists, in order. -/
  functions : ∀ text names, Override.functionNames text = names ↔
    (∀ name ∈ names, Override.Plain name) ∧ Override.Lists text names
  whole : (∀ entry ∈ spelled, Legible lookup entry) →
    settings.override lookup = ((Layer.ofVariables lookup).onto settings, .ok ())
  again : (∀ entry ∈ spelled, Legible lookup entry) →
    (settings.override lookup).1.override lookup = settings.override lookup
  /-- Where a text cannot be read there is a first one. -/
  decided : (∀ entry ∈ spelled, Legible lookup entry) ∨ ∃ name text, FirstFault lookup name text
  /-- The fields of the variables before the fault are set, and no others. -/
  partly : ∀ name text, FirstFault lookup name text →
    settings.override lookup = ((Layer.ofVariables (before name lookup)).onto settings,
      .error (.invalid name text "cannot be parsed"))

/-- A layer upon itself is that layer. -/
theorem onto_onto (layer : Layer) (settings : Settings) :
    layer.onto (layer.onto settings) = layer.onto settings := by
  rw [← Layer.onTopOf_onto]
  simp [Layer.onTopOf]

theorem overridden (settings : Settings) (lookup : Variables) : Overridden settings lookup where
  numbers _ _ := Layer.millis?_eq_some_iff
  truths _ _ := Override.truth?_eq_some_iff
  functions _ _ := Override.functionNames_eq_iff
  whole legible := override_of_legible (firstIllegible?_eq_none_iff.mpr legible)
  again legible := by
    have readable := firstIllegible?_eq_none_iff.mpr legible
    have once : settings.override lookup = ((Layer.ofVariables lookup).onto settings, .ok ()) :=
      override_of_legible readable
    rw [once, override_of_legible readable, onto_onto]
  decided := by
    cases found : firstIllegible? lookup with
    | none => exact .inl (firstIllegible?_eq_none_iff.mp found)
    | some fault => exact .inr ⟨fault.1, fault.2, firstIllegible?_eq_some_iff.mp found⟩
  partly _ _ := override_of_firstFault

/-- The limit of calls cannot be negative, so the bucket is renamed and nothing else happens. -/
example :
    ({} : Settings).override (fun name => [("SKIFF_BUCKET", "leases"),
      ("SKIFF_OP_TIMEOUT_MS", " -1 "), ("SKIFF_FUNCTIONS", "a,b")].lookup name) =
    ({ bucket := { name := "leases" } },
      .error (.invalid "SKIFF_OP_TIMEOUT_MS" " -1 " "cannot be parsed")) := by
  cbv

end Settings

end Leasehold
