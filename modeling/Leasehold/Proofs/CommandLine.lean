import Mathlib.Data.List.Basic
import Leasehold.Settings.Load
import Leasehold.Proofs.Text.Spelling

set_option autoImplicit false

/-!
Every way to write options on a command line.

A line is one occurrence of an option after the other, each in one of its two spellings. Between two
occurrences the value that was read last may still have to be checked, so what is kept from one to the
next is not how far the line is read but what it resolves to. The order of occurrences counts only
among those of one option.
-/

namespace Leasehold

open Text (Numeral)

/-! ### The two spellings of an option -/

namespace ValueOption

def flag (option : ValueOption) : Argument := Text.encode ("--" ++ option.name)

/-- A value may be an argument of its own if it cannot be taken for an option. -/
inductive Spells (option : ValueOption) (value : Bytes) : List Argument → Prop where
  | joined : Spells option value [option.flag ++ Shape.equals :: value]
  | apart (plain : value.head? ≠ some Shape.dash ∨ value = [Shape.dash]) :
      Spells option value [option.flag, value]

theorem flag_eq (option : ValueOption) :
    option.flag = Shape.dash :: Shape.dash :: Text.encode option.name := by
  cases option <;> decide +kernel

theorem encode_name_ne_nil (option : ValueOption) : Text.encode option.name ≠ [] := by
  cases option <;> decide +kernel

theorem equals_not_mem_encode_name (option : ValueOption) :
    Shape.equals ∉ Text.encode option.name := by
  cases option <;> decide +kernel

theorem ofBytes?_encode_name (option : ValueOption) :
    LongName.ofBytes? (Text.encode option.name) = some (.value option) := by
  cases option <;> decide +kernel

end ValueOption

namespace Shape

variable {name value : Bytes}

theorem cutValue_append (whole : equals ∉ name) (value : Bytes) :
    cutValue (name ++ equals :: value) = (name, some value) := by
  induction name with
  | nil => simp [cutValue]
  | cons byte name ih =>
      obtain ⟨here, others⟩ := not_or.mp (mt List.mem_cons.mpr whole)
      simp [cutValue, Ne.symm here, ih others]

theorem cutValue_of_not_mem (whole : equals ∉ name) : cutValue name = (name, none) := by
  induction name with
  | nil => rfl
  | cons byte name ih =>
      obtain ⟨here, others⟩ := not_or.mp (mt List.mem_cons.mpr whole)
      simp [cutValue, Ne.symm here, ih others]

theorem of_dashes (nonempty : name ≠ []) :
    of (dash :: dash :: name) = long (cutValue name).1 (cutValue name).2 := by
  simp [of, nonempty]

theorem of_flag (option : ValueOption) :
    of option.flag = long (Text.encode option.name) none := by
  rw [option.flag_eq, of_dashes option.encode_name_ne_nil,
    cutValue_of_not_mem option.equals_not_mem_encode_name]

theorem of_flag_append (option : ValueOption) (value : Bytes) :
    of (option.flag ++ equals :: value) = long (Text.encode option.name) (some value) := by
  rw [option.flag_eq, List.cons_append, List.cons_append, of_dashes (by simp),
    cutValue_append option.equals_not_mem_encode_name]

theorem of_eq_plain (plain : value.head? ≠ some dash ∨ value = [dash]) :
    of value = .plain value := by
  rcases value with _ | ⟨first, _ | ⟨second, rest⟩⟩
  · rfl
  · rfl
  · have other : first ≠ dash := by simpa using plain
    simp [of, other]

end Shape

/-! ### Reading one occurrence -/

namespace Reading

variable {reading : Reading} {arguments next : Arguments} {option : ValueOption} {value : Bytes}
  {words : List Argument}

theorem optionsOver_of_resolve (stands : reading.resolve = .ok { arguments }) :
    reading.optionsOver = false := by
  obtain ⟨before, pending, optionsOver⟩ := reading
  rcases pending with _ | ⟨option, _ | value⟩
  · cases stands
    rfl
  · cases stands
  · simp only [resolve, bind, Except.bind] at stands
    split at stands
    · cases stands
    · cases stands
      rfl

/-- What a line resolves to so far, and the option that comes next with a value that it accepts, is
all that decides what the line resolves to after it. -/
theorem resolve_of_spells (stands : reading.resolve = .ok { arguments })
    (accepts : arguments.accept option value = .ok next) (spells : option.Spells value words) :
    ∃ after, words.foldlM take reading = .ok after ∧ after.resolve = .ok { arguments := next } := by
  have going := optionsOver_of_resolve stands
  cases spells with
  | joined =>
      have taken : reading.take (option.flag ++ Shape.equals :: value) =
          .ok { arguments := next } := by
        simp [take, going, Shape.of_flag_append, option.ofBytes?_encode_name, stands, accepts, bind,
          Except.bind]
      exact ⟨_, by rw [List.foldlM_cons, taken]; rfl, rfl⟩
  | apart plain =>
      have named : reading.take option.flag = .ok { arguments, pending := some (option, none) } := by
        simp [take, going, Shape.of_flag, option.ofBytes?_encode_name, stands, bind, Except.bind]
      have valued : take { arguments, pending := some (option, none) } value =
          .ok { arguments, pending := some (option, some value) } := by
        simp [take, Shape.of_eq_plain plain]
      refine ⟨{ arguments, pending := some (option, some value) }, ?_, ?_⟩
      · rw [List.foldlM_cons, named]
        change (take _ value >>= _) = _
        rw [valued]
        rfl
      · simp [resolve, accepts, bind, Except.bind]

end Reading

/-! ### Lines -/

inductive Occurrence where
  | config (path : Path)
  | function (name : String)
  | bucketTtlMs (millis : Nat)

namespace Occurrence

variable {occurrence : Occurrence} {occurrences : List Occurrence} {arguments final : Arguments}
  {value : Bytes}

def option : Occurrence → ValueOption
  | config _ => .config
  | function _ => .function
  | bucketTtlMs _ => .bucketTtlMs

def config? : Occurrence → Option Path
  | config path => some path
  | _ => none

def function? : Occurrence → Option String
  | function name => some name
  | _ => none

def millis? : Occurrence → Option Nat
  | bucketTtlMs millis => some millis
  | _ => none

/-- The bytes of a value. A number is written in decimal digits, of which the first may be zeros. -/
inductive Shows : Occurrence → Bytes → Prop where
  | config (path : Path) : Shows (config path) path
  | function (name : String) : Shows (function name) (Text.encode name)
  | bucketTtlMs {millis : Nat} {digits : List Char} (numeral : Numeral maxMillis millis digits) :
      Shows (bucketTtlMs millis) (Text.encode (String.ofList digits))

def onto (arguments : Arguments) : Occurrence → Arguments
  | config path => { arguments with config := some path }
  | function name => { arguments with functions := arguments.functions ++ [name] }
  | bucketTtlMs millis => { arguments with bucketTtlMs := some millis }

/-- Occurrences that add up to certain arguments, from those that are there. Only the functions can
be added to. -/
structure Complete (arguments : Arguments) (occurrences : List Occurrence) (final : Arguments) :
    Prop where
  config : arguments.config.toList ++ occurrences.filterMap config? = final.config.toList
  functions : arguments.functions ++ occurrences.filterMap function? = final.functions
  bucketTtlMs :
    arguments.bucketTtlMs.toList ++ occurrences.filterMap millis? = final.bucketTtlMs.toList

theorem toList_inj {α : Type} {left right : Option α} (same : left.toList = right.toList) :
    left = right := by
  cases left <;> cases right <;> simp_all

theorem eq_of_append_toList {α : Type} {left right : Option α} {item : α} {rest : List α}
    (same : left.toList ++ item :: rest = right.toList) :
    left = none ∧ rest = [] ∧ right = some item := by
  cases left <;> cases right <;> simp_all

namespace Complete

theorem eq_of_nil (complete : Complete arguments [] final) : arguments = final := by
  obtain ⟨config, functions, ttl⟩ := complete
  rw [List.filterMap_nil, List.append_nil] at config functions ttl
  obtain ⟨path, names, millis⟩ := arguments
  obtain rfl := toList_inj config
  obtain rfl := toList_inj ttl
  obtain rfl := functions
  rfl

/-- The first occurrence is accepted, and the others complete what it leaves behind. -/
theorem step (complete : Complete arguments (occurrence :: occurrences) final)
    (named : final.config ≠ some []) (shows : occurrence.Shows value) :
    arguments.accept occurrence.option value = .ok (occurrence.onto arguments) ∧
      Complete (occurrence.onto arguments) occurrences final := by
  cases shows with
  | config =>
      obtain ⟨unset, last, chosen⟩ := eq_of_append_toList complete.config
      have nonempty : value ≠ [] := by
        rintro rfl
        exact named chosen
      refine ⟨?_, ?_, complete.functions, complete.bucketTtlMs⟩
      · simp [Arguments.accept, Arguments.setConfig, option, onto, unset, nonempty]
      · rw [chosen]
        exact congrArg (List.cons value) last
  | function name =>
      refine ⟨?_, complete.config, ?_, complete.bucketTtlMs⟩
      · simp only [Arguments.accept, option, Text.text?_encode, onto]
      · exact (List.append_assoc _ _ _).trans complete.functions
  | @bucketTtlMs millis digits numeral =>
      obtain ⟨unset, last, chosen⟩ := eq_of_append_toList complete.bucketTtlMs
      refine ⟨?_, complete.config, complete.functions, ?_⟩
      · have counted : Text.natural? maxMillis digits = some millis :=
          (Text.natural?_eq_some_iff digits).mpr numeral
        simp [Arguments.accept, option, onto, unset, Text.text?_encode, counted]
      · rw [chosen]
        exact congrArg (List.cons millis) last

end Complete

inductive Line : List Occurrence → List Argument → Prop where
  | nil : Line [] []
  | cons {occurrence : Occurrence} {value : Bytes} {words : List Argument}
      {occurrences : List Occurrence} {line : List Argument} (shows : occurrence.Shows value)
      (spells : occurrence.option.Spells value words) (rest : Line occurrences line) :
      Line (occurrence :: occurrences) (words ++ line)

/-- Along a line that completes what it resolves to so far, it comes to resolve to the whole. -/
theorem Line.resolve {line : List Argument} (written : Line occurrences line) {reading : Reading}
    (stands : reading.resolve = .ok { arguments })
    (complete : Complete arguments occurrences final) (named : final.config ≠ some []) :
    ∃ last, line.foldlM Reading.take reading = .ok last ∧
      last.resolve = .ok { arguments := final } := by
  induction written generalizing reading arguments with
  | nil => exact ⟨reading, rfl, complete.eq_of_nil ▸ stands⟩
  | @cons occurrence value words occurrences line shows spells rest ih =>
      obtain ⟨accepts, completes⟩ := complete.step named shows
      obtain ⟨after, taken, resolved⟩ := Reading.resolve_of_spells stands accepts spells
      obtain ⟨last, read, done⟩ := ih resolved completes
      refine ⟨last, ?_, done⟩
      rw [List.foldlM_append, taken]
      exact read

theorem exists_shows (occurrence : Occurrence)
    (fits : ∀ millis ∈ occurrence.millis?, millis ≤ maxMillis) : ∃ value, occurrence.Shows value := by
  cases occurrence with
  | config path => exact ⟨_, .config path⟩
  | function name => exact ⟨_, .function name⟩
  | bucketTtlMs millis => exact ⟨_, .bucketTtlMs (Text.numeral_toDigits (fits millis rfl))⟩

/-- Every occurrence can be put on a line, if its number is not too large. -/
theorem exists_line (occurrences : List Occurrence)
    (fits : ∀ millis ∈ occurrences.filterMap millis?, millis ≤ maxMillis) :
    ∃ line, Line occurrences line := by
  induction occurrences with
  | nil => exact ⟨[], .nil⟩
  | cons occurrence occurrences ih =>
      simp only [List.mem_filterMap, List.mem_cons] at fits ih
      obtain ⟨value, shows⟩ := occurrence.exists_shows fun millis here =>
        fits millis ⟨occurrence, .inl rfl, here⟩
      obtain ⟨line, written⟩ := ih fun millis ⟨other, later, there⟩ =>
        fits millis ⟨other, .inr later, there⟩
      exact ⟨_, .cons shows .joined written⟩

end Occurrence

namespace Arguments

open Occurrence (Complete Line)

/-- A line on which each option occurs that is set, as often as it has values, in any order in which
the functions keep theirs. -/
def Written (options : Arguments) (line : List Argument) : Prop :=
  ∃ occurrences, Complete {} occurrences options ∧ Line occurrences line

theorem read_of_resolve {line : List Argument} {last : Reading} {options : Arguments}
    {fallback : Option Path} (set : fallback ≠ some [])
    (taken : line.foldlM Reading.take {} = .ok last)
    (resolved : last.resolve = .ok { arguments := options }) :
    read line fallback = .ok { options with config := options.config.or fallback } := by
  obtain ⟨config, functions, ttl⟩ := options
  simp only [read, taken, resolved, bind, Except.bind]
  rcases config with _ | path
  · rcases fallback with _ | path
    · rfl
    · have nonempty : path ≠ [] := fun empty => set (congrArg some empty)
      simp [setConfig, nonempty]
  · rfl

theorem exists_written (options : Arguments)
    (fits : ∀ millis ∈ options.bucketTtlMs, millis ≤ maxMillis) : ∃ line, Written options line := by
  let occurrences := options.config.toList.map Occurrence.config ++
    (options.functions.map .function ++ options.bucketTtlMs.toList.map .bucketTtlMs)
  have complete : Complete {} occurrences options := by
    constructor <;>
      simp [occurrences, List.filterMap_map, Function.comp_def, Occurrence.config?,
        Occurrence.function?, Occurrence.millis?]
  obtain ⟨line, written⟩ := Occurrence.exists_line occurrences fun millis present => by
    have among : millis ∈ options.bucketTtlMs.toList := by
      rw [← complete.bucketTtlMs]
      exact present
    exact fits millis (Option.mem_toList.mp among)
  exact ⟨line, occurrences, complete, written⟩

/-- A line is read alike however it is written. -/
theorem read_of_written (options : Arguments) (environment : Environment)
    (named : options.config ≠ some [])
    (fits : ∀ millis ∈ options.bucketTtlMs, millis ≤ maxMillis)
    (set : environment.configFile? ≠ some []) :
    (∃ line, Written options line) ∧ ∀ line, Written options line →
      read line environment.configFile? =
        .ok { options with config := options.config.or environment.configFile? } := by
  refine ⟨exists_written options fits, ?_⟩
  rintro line ⟨occurrences, complete, written⟩
  have opened : Reading.resolve {} = .ok { arguments := {} } := rfl
  obtain ⟨last, taken, resolved⟩ := written.resolve opened complete named
  exact read_of_resolve set taken resolved

/-- Names that look like options, that are a dash alone and that are empty. -/
def crossedOptions : Arguments where
  functions := ["--x=1", "-", ""]
  bucketTtlMs := some 5

def crossedLine : List Argument :=
  ["--function=--x=1", "--bucket-ttl-ms", "+05", "--function", "-", "--function="].map Text.encode

def crossedEnvironment : Environment := [("SKIFF_CONFIG", Text.encode "a.toml")]

theorem written_crossed : Written crossedOptions crossedLine := by
  have complete :
      Complete {} [.function "--x=1", .bucketTtlMs 5, .function "-", .function ""] crossedOptions :=
    ⟨rfl, rfl, rfl⟩
  have numeral : Numeral maxMillis 5 ['+', '0', '5'] :=
    (Text.natural?_eq_some_iff _).mp (by decide)
  refine ⟨_, complete, ?_⟩
  convert Line.cons (.function "--x=1") .joined <|
    Line.cons (.bucketTtlMs numeral) (.apart (by decide +kernel)) <|
    Line.cons (.function "-") (.apart (by decide +kernel)) <|
    Line.cons (.function "") .joined .nil using 1
  decide +kernel

theorem read_crossed :
    crossedOptions.config ≠ some [] ∧ (∀ millis ∈ crossedOptions.bucketTtlMs, millis ≤ maxMillis) ∧
      crossedEnvironment.configFile? ≠ some [] ∧ Written crossedOptions crossedLine ∧
      read crossedLine crossedEnvironment.configFile? =
        .ok { crossedOptions with config := some (Text.encode "a.toml") } := by
  have named : crossedOptions.config ≠ some [] := by decide
  have fits : ∀ millis ∈ crossedOptions.bucketTtlMs, millis ≤ maxMillis := by decide
  have set : crossedEnvironment.configFile? ≠ some [] := by decide +kernel
  exact ⟨named, fits, set, written_crossed,
    (read_of_written crossedOptions crossedEnvironment named fits set).2 _ written_crossed⟩

end Arguments

end Leasehold
