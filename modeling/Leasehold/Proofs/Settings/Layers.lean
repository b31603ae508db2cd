import Leasehold.Settings.Load

set_option autoImplicit false

/-!
The layers of the settings: the defaults, a file, the environment and the command line.

A layer sets some of the fields and leaves the others alone. Each field of the settings is as the
highest layer has it that sets it. A layer that cannot be read ends the loading, whatever the layers
above it would have set.
-/

namespace Leasehold

structure Layer where
  name : Option String := none
  ttlMs : Option Nat := none
  updateIntervalMs : Option Nat := none
  pollIntervalMs : Option Nat := none
  opTimeoutMs : Option Nat := none
  functions : Option (List String) := none
  scaleIntervalMs : Option Nat := none
  recreateOnError : Option Bool := none
  retryDelayMs : Option Nat := none

namespace Layer

def onTopOf (upper lower : Layer) : Layer where
  name := upper.name.or lower.name
  ttlMs := upper.ttlMs.or lower.ttlMs
  updateIntervalMs := upper.updateIntervalMs.or lower.updateIntervalMs
  pollIntervalMs := upper.pollIntervalMs.or lower.pollIntervalMs
  opTimeoutMs := upper.opTimeoutMs.or lower.opTimeoutMs
  functions := upper.functions.or lower.functions
  scaleIntervalMs := upper.scaleIntervalMs.or lower.scaleIntervalMs
  recreateOnError := upper.recreateOnError.or lower.recreateOnError
  retryDelayMs := upper.retryDelayMs.or lower.retryDelayMs

def onto (layer : Layer) (settings : Settings) : Settings where
  bucket :=
    { name := layer.name.getD settings.bucket.name
      ttlMs := layer.ttlMs.getD settings.bucket.ttlMs }
  election :=
    { updateIntervalMs := layer.updateIntervalMs.or settings.election.updateIntervalMs
      pollIntervalMs := layer.pollIntervalMs.or settings.election.pollIntervalMs
      opTimeoutMs := layer.opTimeoutMs.or settings.election.opTimeoutMs }
  scaler :=
    { functions := layer.functions.getD settings.scaler.functions
      scaleIntervalMs := layer.scaleIntervalMs.getD settings.scaler.scaleIntervalMs
      recreateOnError := layer.recreateOnError.getD settings.scaler.recreateOnError
      retryDelayMs := layer.retryDelayMs.getD settings.scaler.retryDelayMs }

def ofDocument (document : Toml.Entries) : Layer where
  name := (field "bucket" "name" 0).bind Settings.asText?
  ttlMs := (field "bucket" "ttl_ms" 1).bind Settings.asMillis?
  updateIntervalMs := (field "election" "update_interval_ms" 0).bind Settings.asMillis?
  pollIntervalMs := (field "election" "poll_interval_ms" 1).bind Settings.asMillis?
  opTimeoutMs := (field "election" "op_timeout_ms" 2).bind Settings.asMillis?
  functions := (field "scaler" "functions" 0).bind Settings.asTexts?
  scaleIntervalMs := (field "scaler" "scale_interval_ms" 1).bind Settings.asMillis?
  recreateOnError := (field "scaler" "recreate_on_error" 2).bind Settings.asTruth?
  retryDelayMs := (field "scaler" "retry_delay_ms" 3).bind Settings.asMillis?
where
  field (part name : String) (place : Nat) : Option Toml.Value :=
    (document.lookup part).bind (Settings.field? · name place)

def millis? (text : String) : Option Nat := Text.natural? maxMillis (Text.trim text.toList)

def ofVariables (lookup : Variables) : Layer where
  name := lookup "SKIFF_BUCKET"
  ttlMs := (lookup "SKIFF_BUCKET_TTL_MS").bind millis?
  updateIntervalMs := (lookup "SKIFF_UPDATE_INTERVAL_MS").bind millis?
  pollIntervalMs := (lookup "SKIFF_POLL_INTERVAL_MS").bind millis?
  opTimeoutMs := (lookup "SKIFF_OP_TIMEOUT_MS").bind millis?
  functions := (lookup "SKIFF_FUNCTIONS").map Override.functionNames
  scaleIntervalMs := (lookup "SKIFF_SCALE_INTERVAL_MS").bind millis?
  recreateOnError := (lookup "SKIFF_RECREATE_ON_ERROR").bind Override.truth?
  retryDelayMs := (lookup "SKIFF_RETRY_DELAY_MS").bind millis?

/-- What the command line sets: no functions at all leave them as they are. -/
def ofArguments (arguments : Arguments) : Layer where
  ttlMs := arguments.bucketTtlMs
  functions := if arguments.functions = [] then none else some arguments.functions

variable {upper lower layer : Layer} {settings : Settings}

theorem onTopOf_onto (upper lower : Layer) (settings : Settings) :
    (upper.onTopOf lower).onto settings = upper.onto (lower.onto settings) := by
  simp only [onto, onTopOf, Option.getD_or, Option.or_assoc]

theorem onto_empty (settings : Settings) : onto {} settings = settings := rfl

end Layer

def Override.legible (override : Override) : String × (String → Bool) :=
  (override.source, fun text => (override.change? text).isSome)

namespace Settings

variable {lookup : Variables} {settings : Settings} {read : FileReader}

/-! ### Variables -/

/-- The variables whose text can be wrong, in the order in which they are taken, and which texts of
them can be read. -/
def legible : List (String × (String → Bool)) :=
  [("SKIFF_BUCKET_TTL_MS", fun text => (Layer.millis? text).isSome),
    ("SKIFF_UPDATE_INTERVAL_MS", fun text => (Layer.millis? text).isSome),
    ("SKIFF_POLL_INTERVAL_MS", fun text => (Layer.millis? text).isSome),
    ("SKIFF_OP_TIMEOUT_MS", fun text => (Layer.millis? text).isSome),
    ("SKIFF_SCALE_INTERVAL_MS", fun text => (Layer.millis? text).isSome),
    ("SKIFF_RECREATE_ON_ERROR", fun text => (Override.truth? text).isSome),
    ("SKIFF_RETRY_DELAY_MS", fun text => (Layer.millis? text).isSome)]

def illegible? (lookup : Variables) (source : String × (String → Bool)) : Option (String × String) :=
  (lookup source.1).bind fun text => if source.2 text then none else some (source.1, text)

def firstIllegible? (lookup : Variables) : Option (String × String) :=
  legible.findSome? (illegible? lookup)

/-- The overrides end at the first whose text cannot be read. -/
theorem snd_overrideWith (lookup : Variables) (overrides : List Override) (settings : Settings) :
    (overrideWith lookup overrides settings).2 =
      match overrides.findSome? fun override => illegible? lookup override.legible with
      | some (name, text) => .error (.invalid name text "cannot be parsed")
      | none => .ok () := by
  induction overrides generalizing settings with
  | nil => rfl
  | cons override rest ih =>
      simp only [overrideWith, List.findSome?_cons, illegible?, Override.legible]
      cases lookup override.source with
      | none => exact ih settings
      | some text =>
          cases changes : override.change? text with
          | none => simp [changes]
          | some change =>
              simp only [Option.bind_some, changes, Option.isSome_some, if_true]
              exact ih (change settings)

theorem illegible?_text (lookup : Variables) (source : String) (set : String → Settings → Settings) :
    illegible? lookup (Override.text source set).legible = none := by
  cases found : lookup source <;> simp [illegible?, Override.legible, Override.text, found]

theorem legible_millis (source : String) (set : Nat → Settings → Settings) :
    (Override.millis source set).legible = (source, fun text => (Layer.millis? text).isSome) := by
  simp [Override.legible, Override.millis, Layer.millis?]

theorem legible_truth (source : String) (set : Bool → Settings → Settings) :
    (Override.truth source set).legible = (source, fun text => (Override.truth? text).isSome) := by
  simp [Override.legible, Override.truth]

/-- Texts that are taken as they are can always be read, and whether one of the others can be read
does not depend on the field that it is for. -/
theorem findSome?_all (lookup : Variables) :
    (Override.all.findSome? fun override => illegible? lookup override.legible) =
      firstIllegible? lookup := by
  simp only [Override.all, List.findSome?_cons, List.findSome?_nil, illegible?_text,
    legible_millis, legible_truth, firstIllegible?, legible]

theorem snd_override (lookup : Variables) (settings : Settings) :
    (settings.override lookup).2 =
      match firstIllegible? lookup with
      | some (name, text) => .error (.invalid name text "cannot be parsed")
      | none => .ok () := by
  rw [override, snd_overrideWith, findSome?_all]

/-- A variable that can be read, or is not set, has the effect of the layer of its value alone. -/
theorem overrideWith_step {α : Type} {override : Override} {rest : List Override}
    (read : String → Option α) (make : Option α → Layer)
    (reads : ∀ text, override.change? text = (read text).map fun value => (make (some value)).onto)
    (nothing : make none = {})
    (readable : illegible? lookup (override.source, fun text => (read text).isSome) = none) :
    overrideWith lookup (override :: rest) settings =
      overrideWith lookup rest ((make ((lookup override.source).bind read)).onto settings) := by
  simp only [illegible?] at readable
  simp only [overrideWith]
  cases found : lookup override.source with
  | none => simp [nothing, Layer.onto_empty]
  | some text =>
      simp only [found, Option.bind_some] at readable ⊢
      rw [reads text]
      cases value : read text with
      | none => simp [value] at readable
      | some value => rfl

/-- Where every variable that is set can be read, the environment is one layer. -/
theorem override_of_legible (legible : firstIllegible? lookup = none) :
    settings.override lookup = ((Layer.ofVariables lookup).onto settings, .ok ()) := by
  have readable := List.findSome?_eq_none_iff.mp legible
  simp only [Settings.legible, List.forall_mem_cons] at readable
  obtain ⟨ttl, update, poll, limit, scale, recreate, delay, -⟩ := readable
  have texts (source : String) : illegible? lookup (source, fun text => (some text).isSome) = none := by
    cases found : lookup source <;> simp [illegible?, found]
  rw [override, Override.all,
    overrideWith_step some (fun name => { name }) (fun _ => rfl) rfl (texts _),
    overrideWith_step Layer.millis? (fun ttlMs => { ttlMs }) (fun _ => rfl) rfl ttl,
    overrideWith_step Layer.millis? (fun updateIntervalMs => { updateIntervalMs }) (fun _ => rfl) rfl
      update,
    overrideWith_step Layer.millis? (fun pollIntervalMs => { pollIntervalMs }) (fun _ => rfl) rfl poll,
    overrideWith_step Layer.millis? (fun opTimeoutMs => { opTimeoutMs }) (fun _ => rfl) rfl limit,
    overrideWith_step (fun text => some (Override.functionNames text)) (fun functions => { functions })
      (fun _ => rfl) rfl (texts _),
    overrideWith_step Layer.millis? (fun scaleIntervalMs => { scaleIntervalMs }) (fun _ => rfl) rfl
      scale,
    overrideWith_step Override.truth? (fun recreateOnError => { recreateOnError }) (fun _ => rfl) rfl
      recreate,
    overrideWith_step Layer.millis? (fun retryDelayMs => { retryDelayMs }) (fun _ => rfl) rfl delay]
  have listed : (lookup "SKIFF_FUNCTIONS").map Override.functionNames =
      (lookup "SKIFF_FUNCTIONS").bind fun text => some (Override.functionNames text) :=
    Option.map_eq_bind
  simp [overrideWith, ← Layer.onTopOf_onto, Layer.onTopOf, Layer.ofVariables, Override.text,
    Override.millis, Override.truth, listed]

/-! ### The file -/

theorem read_eq_some {α : Type} {as? : Toml.Value → Option α} {default value : α}
    {found : Option Toml.Value} (reads : Settings.read as? default found = some value) :
    value = (found.bind as?).getD default := by
  cases found with
  | none => exact (Option.some.inj reads).symm
  | some shown => simp [show as? shown = some value from reads]

theorem section?_eq_some {α : Type} {of? : Toml.Value → Option α} {default value : α}
    {document : Toml.Entries} {name : String} (reads : section? of? default document name = some value) :
    (document.lookup name = none ∧ value = default) ∨
      ∃ part, document.lookup name = some part ∧ of? part = some value := by
  unfold section? at reads
  cases found : document.lookup name with
  | none =>
      rw [found] at reads
      exact .inl ⟨rfl, (Option.some.inj reads).symm⟩
  | some part =>
      rw [found] at reads
      have here : (if isSection part then of? part else none) = some value := reads
      exact .inr ⟨part, rfl, (Option.ite_none_right_eq_some.mp here).2⟩

variable {document : Toml.Entries}

theorem bucket_of_section {bucket : BucketSection}
    (given : section? bucketOf? {} document "bucket" = some bucket) :
    bucket = ((Layer.ofDocument document).onto {}).bucket := by
  rcases section?_eq_some given with ⟨missing, rfl⟩ | ⟨part, found, given⟩
  · simp [Layer.onto, Layer.ofDocument, Layer.ofDocument.field, missing]
  · simp only [bucketOf?, Option.bind_eq_bind, Option.bind_eq_some_iff, Option.some.injEq] at given
    obtain ⟨name, nameIs, ttlMs, ttlIs, rfl⟩ := given
    simp [Layer.onto, Layer.ofDocument, Layer.ofDocument.field, found, read_eq_some nameIs,
      read_eq_some ttlIs]

theorem election_of_section {election : ElectionSection}
    (given : section? electionOf? {} document "election" = some election) :
    election = ((Layer.ofDocument document).onto {}).election := by
  have interval {found : Option Toml.Value} {value : Option Nat}
      (reads : Settings.read (fun value => some <$> asMillis? value) none found = some value) :
      value = found.bind asMillis? := by
    rw [read_eq_some reads]
    cases found with
    | none => rfl
    | some shown => cases millis : asMillis? shown <;> simp [millis]
  rcases section?_eq_some given with ⟨missing, rfl⟩ | ⟨part, found, given⟩
  · simp [Layer.onto, Layer.ofDocument, Layer.ofDocument.field, missing]
  · simp only [electionOf?, Option.bind_eq_bind, Option.bind_eq_some_iff, Option.some.injEq] at given
    obtain ⟨update, updateIs, poll, pollIs, limit, limitIs, rfl⟩ := given
    simp [Layer.onto, Layer.ofDocument, Layer.ofDocument.field, found, interval updateIs,
      interval pollIs, interval limitIs]

theorem scaler_of_section {scaler : ScalerSection}
    (given : section? scalerOf? {} document "scaler" = some scaler) :
    scaler = ((Layer.ofDocument document).onto {}).scaler := by
  rcases section?_eq_some given with ⟨missing, rfl⟩ | ⟨part, found, given⟩
  · simp [Layer.onto, Layer.ofDocument, Layer.ofDocument.field, missing]
  · simp only [scalerOf?, Option.bind_eq_bind, Option.bind_eq_some_iff, Option.some.injEq] at given
    obtain ⟨functions, functionsIs, scale, scaleIs, recreate, recreateIs, delay, delayIs, rfl⟩ := given
    simp [Layer.onto, Layer.ofDocument, Layer.ofDocument.field, found, read_eq_some functionsIs,
      read_eq_some scaleIs, read_eq_some recreateIs, read_eq_some delayIs]

/-- Settings that a document gives are the defaults with the document's layer upon them. -/
theorem ofDocument?_eq_some (given : ofDocument? document = some settings) :
    settings = (Layer.ofDocument document).onto {} := by
  simp only [ofDocument?, Option.bind_eq_bind, Option.bind_eq_some_iff, Option.some.injEq] at given
  obtain ⟨bucket, bucketIs, election, electionIs, scaler, scalerIs, rfl⟩ := given
  rw [bucket_of_section bucketIs, election_of_section electionIs, scaler_of_section scalerIs]

/-- The layer of the configuration file: of the one that is named, which has to be there, or else of
the default one, which sets nothing where it is not there. -/
inductive FileLayer (read : FileReader) : Option Path → Layer → Prop where
  | absent (missing : read defaultFile = .error .notFound) : FileLayer read none {}
  | decoded {path? : Option Path} {text : String} {document : Toml.Entries} {settings : Settings}
      (there : read (path?.getD defaultFile) = .ok text)
      (parses : Toml.document? text = some document)
      (given : ofDocument? document = some settings) : FileLayer read path? (Layer.ofDocument document)

theorem ofFile_eq_ok_iff {path : Path} :
    ofFile read path = .ok settings ↔ ∃ text document, read path = .ok text ∧
      Toml.document? text = some document ∧ ofDocument? document = some settings := by
  unfold ofFile ofText
  cases contents : read path with
  | error error => simp
  | ok text =>
      cases parses : Toml.document? text with
      | none => simp [parses]
      | some document => cases given : ofDocument? document <;> simp [parses, given]

theorem beforeOverrides_of_missing (missing : read defaultFile = .error .notFound) :
    beforeOverrides read none = .ok {} := by
  simp [beforeOverrides, missing]

theorem beforeOverrides_of_present (present : read defaultFile ≠ .error .notFound) :
    beforeOverrides read none = ofFile read defaultFile := by
  refine if_neg fun missing => ?_
  split at missing <;> simp_all

/-- Settings before the environment are the defaults with the file's layer upon them, or there are
none. -/
theorem beforeOverrides_eq_ok_iff {path? : Option Path} :
    beforeOverrides read path? = .ok settings ↔
      ∃ layer, FileLayer read path? layer ∧ settings = layer.onto {} := by
  constructor
  · intro before
    by_cases missing : path? = none ∧ read defaultFile = .error .notFound
    · obtain ⟨rfl, missing⟩ := missing
      rw [beforeOverrides_of_missing missing] at before
      cases before
      exact ⟨{}, .absent missing, rfl⟩
    · have present : ofFile read (path?.getD defaultFile) = .ok settings := by
        cases path? with
        | some path => exact before
        | none => rwa [beforeOverrides_of_present fun gone => missing ⟨rfl, gone⟩] at before
      obtain ⟨text, document, there, parses, given⟩ := ofFile_eq_ok_iff.mp present
      exact ⟨_, .decoded there parses given, ofDocument?_eq_some given⟩
  · rintro ⟨layer, missing | ⟨there, parses, given⟩, rfl⟩
    · exact beforeOverrides_of_missing missing
    · rw [← ofDocument?_eq_some given]
      have present := ofFile_eq_ok_iff.mpr ⟨_, _, there, parses, given⟩
      cases path? with
      | some path => exact present
      | none =>
          have present' : read defaultFile ≠ .error .notFound := by simp_all
          rwa [beforeOverrides_of_present present']

/-! ### All layers -/

def merged (arguments : Arguments) (lookup : Variables) (file : Layer) : Layer :=
  (Layer.ofArguments arguments).onTopOf ((Layer.ofVariables lookup).onTopOf file)

theorem apply_eq_onto (arguments : Arguments) (settings : Settings) :
    arguments.apply settings = (Layer.ofArguments arguments).onto settings := by
  unfold Arguments.apply Layer.onto Layer.ofArguments
  split <;> simp_all

theorem assemble_of_before {arguments : Arguments}
    (before : beforeOverrides read arguments.config = .ok settings) :
    assemble read arguments lookup =
      (settings.override lookup).2.map fun _ => arguments.apply (settings.override lookup).1 := by
  simp only [assemble, load, before, bind, Except.bind, Functor.map]
  cases (settings.override lookup).2 <;> rfl

/-- The variable names the file where the options on the line do not. -/
theorem options_of_read {line : List Argument} {pathVariable? : Option Path} {arguments : Arguments}
    (parsed : Arguments.read line pathVariable? = .ok arguments) :
    ∃ options, Arguments.read line none = .ok options ∧
      arguments = { options with config := options.config.or pathVariable? } := by
  unfold Arguments.read at parsed ⊢
  cases folded : line.foldlM Reading.take {} with
  | error error => simp [folded, bind, Except.bind] at parsed
  | ok reading =>
      cases resolves : reading.resolve with
      | error error => simp [folded, resolves, bind, Except.bind] at parsed
      | ok resolved =>
          simp only [folded, resolves, bind, Except.bind] at parsed ⊢
          obtain ⟨⟨config, functions, bucketTtlMs⟩, _, _⟩ := resolved
          cases config with
          | some path => exact ⟨_, rfl, (Except.ok.inj parsed).symm⟩
          | none =>
              cases pathVariable? with
              | none => exact ⟨_, rfl, (Except.ok.inj parsed).symm⟩
              | some path =>
                  refine ⟨_, rfl, ?_⟩
                  simp only [Arguments.setConfig] at parsed
                  split at parsed
                  · cases parsed
                  · exact (Except.ok.inj parsed).symm

/-- What settings come from, for a command line and a variable that names the file: a field is as the
highest layer has it that sets it, unless a layer cannot be read. -/
structure Layered (read : FileReader) (line : List Argument) (pathVariable? : Option Path)
    (arguments : Arguments) (lookup : Variables) : Prop where
  /-- The variable names the file where no option does. -/
  chosen : ∃ options, Arguments.read line none = .ok options ∧
    arguments = { options with config := options.config.or pathVariable? }
  settled : ∀ file, FileLayer read arguments.config file → firstIllegible? lookup = none →
    assemble read arguments lookup = .ok ((merged arguments lookup file).onto {})
  /-- Intervals that no layer sets follow from the time-to-live that all layers together give. -/
  timed : ∀ file key candidate,
    let layer := merged arguments lookup file
    let derived := Candidacy.derived key candidate (Duration.ofMillis (layer.ttlMs.getD 2_000))
    ((layer.onto {}).candidacy key candidate).renewEveryMs =
        layer.updateIntervalMs.getD derived.renewEveryMs ∧
      ((layer.onto {}).candidacy key candidate).pollEveryMs =
        layer.pollIntervalMs.getD derived.pollEveryMs
  /-- The first variable that cannot be read is objected to, whatever the options would set. -/
  refused : ∀ file name text, FileLayer read arguments.config file →
    firstIllegible? lookup = some (name, text) →
    assemble read arguments lookup = .error (.invalid name text "cannot be parsed")
  /-- A file that is named and cannot be read is not replaced by another. -/
  unread : ∀ path error, arguments.config = some path → read path = .error error →
    assemble read arguments lookup = .error (.unreadable (Text.shownBytes path) error.message)

theorem layered_of_read {line : List Argument} {pathVariable? : Option Path} {arguments : Arguments}
    (parsed : Arguments.read line pathVariable? = .ok arguments) (read : FileReader)
    (lookup : Variables) : Layered read line pathVariable? arguments lookup where
  chosen := options_of_read parsed
  settled file layer legible := by
    have before := beforeOverrides_eq_ok_iff.mpr ⟨file, layer, rfl⟩
    rw [assemble_of_before before, override_of_legible legible, merged, Layer.onTopOf_onto,
      Layer.onTopOf_onto, ← apply_eq_onto]
    rfl
  timed file key candidate := by
    simp [candidacy, bucketTerms, Layer.onto]
  refused file name text layer illegible := by
    have before := beforeOverrides_eq_ok_iff.mpr ⟨file, layer, rfl⟩
    rw [assemble_of_before before, snd_override, illegible]
    rfl
  unread path error named unreadable := by
    simp [assemble, load, named, beforeOverrides, ofFile, unreadable, bind, Except.bind,
      Functor.map, Except.map]

/-! ### One site -/

def siteText : String :=
  "[bucket]\nname = 'site'\nttl_ms = 5000\n[election]\npoll_interval_ms = 700\n" ++
    "[scaler]\nfunctions = ['a']\nrecreate_on_error = true\nretry_delay_ms = 40\n"

def sitePath : Path := Text.encode "site.toml"

def siteFiles : FileReader := fun path => if path = sitePath then .ok siteText else .error .notFound

def siteVariables : Variables := fun name =>
  [("SKIFF_BUCKET_TTL_MS", "6000"), ("SKIFF_FUNCTIONS", " b,, c "),
    ("SKIFF_RECREATE_ON_ERROR", " false "), ("SKIFF_RETRY_DELAY_MS", " +50 ")].lookup name

def ttlLine : List Argument := ["--bucket-ttl-ms=9000"].map Text.encode

def siteLine : List Argument := ttlLine ++ ["--function", "d"].map Text.encode

def siteOptions (functions : List String) : Arguments where
  config := some sitePath
  functions := functions
  bucketTtlMs := some 9_000

def siteSettings (functions : List String) : Settings where
  bucket := { name := "site", ttlMs := 9_000 }
  election := { pollIntervalMs := some 700 }
  scaler := { functions, recreateOnError := false, retryDelayMs := 50 }

theorem eq_ok_of_toOption {α β : Type} {result : Except α β} {value : β}
    (made : result.toOption = some value) : result = .ok value := by
  cases result with
  | error error => simp [Except.toOption] at made
  | ok found => exact congrArg Except.ok (Option.some.inj made)

/-- The time-to-live is the command line's, the delay and what follows a failure are the environment's,
and the rest is the file's or the default. The functions are the environment's unless the command line
has some. -/
theorem layered_site :
    (Arguments.read siteLine (some sitePath) = .ok (siteOptions ["d"]) ∧
      Layered siteFiles siteLine (some sitePath) (siteOptions ["d"]) siteVariables ∧
      assemble siteFiles (siteOptions ["d"]) siteVariables = .ok (siteSettings ["d"])) ∧
    Arguments.read ttlLine (some sitePath) = .ok (siteOptions []) ∧
      Layered siteFiles ttlLine (some sitePath) (siteOptions []) siteVariables ∧
      assemble siteFiles (siteOptions []) siteVariables = .ok (siteSettings ["b", "c"]) := by
  have named : Arguments.read siteLine (some sitePath) = .ok (siteOptions ["d"]) :=
    eq_ok_of_toOption (by decide +kernel)
  have short : Arguments.read ttlLine (some sitePath) = .ok (siteOptions []) :=
    eq_ok_of_toOption (by decide +kernel)
  have layeredNamed := layered_of_read named siteFiles siteVariables
  have layeredShort := layered_of_read short siteFiles siteVariables
  have legible : firstIllegible? siteVariables = none := by decide +kernel
  have merges : ((Toml.document? siteText).map fun document =>
      ((ofDocument? document).isSome,
        (merged (siteOptions ["d"]) siteVariables (Layer.ofDocument document)).onto {},
        (merged (siteOptions []) siteVariables (Layer.ofDocument document)).onto {})) =
      some (true, siteSettings ["d"], siteSettings ["b", "c"]) := by
    decide +kernel
  obtain ⟨document, parses, whole⟩ := Option.map_eq_some_iff.mp merges
  simp only [Prod.mk.injEq] at whole
  obtain ⟨given, mergedNamed, mergedShort⟩ := whole
  obtain ⟨settings, given⟩ := Option.isSome_iff_exists.mp given
  have file : FileLayer siteFiles (some sitePath) (Layer.ofDocument document) :=
    .decoded rfl parses given
  refine ⟨⟨named, layeredNamed, ?_⟩, short, layeredShort, ?_⟩
  · rw [layeredNamed.settled _ file legible, mergedNamed]
  · rw [layeredShort.settled _ file legible, mergedShort]

end Settings

end Leasehold
