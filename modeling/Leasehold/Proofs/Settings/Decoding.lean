import Leasehold.Proofs.Settings.Layers
import Leasehold.Proofs.Toml.Keys
import Leasehold.Proofs.Toml.Lookup

set_option autoImplicit false

/-!
Settings from the tables of a document.

What a section gives is a look-up by name: in its entries if it is a table, and if it is an array in
the entries that its items make with the names of the fields in their order. So all that is read of a
document are look-ups of known names, and a document is read as another one if they agree on these.
Each field is read alone: its value is of the right kind and taken, or it is missing and has its
default.
-/

namespace Leasehold

namespace Settings

open Toml (Entries Value)

variable {document : Entries} {layer : Layer} {settings : Settings} {value : Value}

/-! ### The fields -/

inductive FieldKind where
  | text
  | millis
  | truth
  | texts
  deriving DecidableEq

def FieldKind.Admits : FieldKind → Value → Prop
  | text, value => ∃ text, value = .string text
  | millis, value => ∃ number : Int, 0 ≤ number ∧ value = .integer number
  | truth, value => ∃ truth, value = .boolean truth
  | texts, value => ∃ texts : List String, value = .array (texts.map .string)

structure Part where
  key : String
  fields : List (String × FieldKind)
  deriving DecidableEq

namespace Part

def bucket : Part := ⟨"bucket", [("name", .text), ("ttl_ms", .millis)]⟩

def election : Part :=
  ⟨"election", [("update_interval_ms", .millis), ("poll_interval_ms", .millis),
    ("op_timeout_ms", .millis)]⟩

def scaler : Part :=
  ⟨"scaler", [("functions", .texts), ("scale_interval_ms", .millis), ("recreate_on_error", .truth),
    ("retry_delay_ms", .millis)]⟩

def all : List Part := [bucket, election, scaler]

theorem bucket_mem : bucket ∈ all := by simp [all]

theorem election_mem : election ∈ all := by simp [all]

theorem scaler_mem : scaler ∈ all := by simp [all]

/-- What holds of each section holds of all of them. -/
theorem forall_mem_all {property : Part → Prop} :
    (∀ part ∈ all, property part) ↔ property bucket ∧ property election ∧ property scaler := by
  simp [all]

def names (part : Part) : List String := part.fields.map Prod.fst

theorem distinct : ∀ part ∈ all, part.names.Nodup := by decide

/-- The entries of a table or an array. As many fields are given by an array as it has items, the
first ones; what it has more of is left out. -/
def entries? (part : Part) : Value → Option Entries
  | .table _ entries => some entries
  | .array items => some (part.names.zip items)
  | .tables elements => some (part.names.zip (elements.reverse.map (Value.table .header)))
  | _ => none

def given (part : Part) (document : Entries) (name : String) : Option Value :=
  (document.lookup part.key).bind fun value => (part.entries? value).bind (·.lookup name)

end Part

/-- Every section that is there is a table or an array, and every field that is there has its kind. -/
structure Typed (document : Entries) : Prop where
  sections : ∀ part ∈ Part.all, ∀ value, document.lookup part.key = some value →
    ∃ entries, part.entries? value = some entries
  fields : ∀ part ∈ Part.all, ∀ field ∈ part.fields, ∀ value,
    part.given document field.1 = some value → field.2.Admits value

def Timeless (document : Entries) : Prop :=
  ∀ part ∈ Part.all, ∀ literal, document.lookup part.key ≠ some (.moment literal)

def millisValue (millis : Nat) : Value := .integer millis

def textsValue (texts : List String) : Value := .array (texts.map .string)

structure Gives (document : Entries) (layer : Layer) : Prop where
  name : Part.bucket.given document "name" = layer.name.map .string
  ttlMs : Part.bucket.given document "ttl_ms" = layer.ttlMs.map millisValue
  updateIntervalMs :
    Part.election.given document "update_interval_ms" = layer.updateIntervalMs.map millisValue
  pollIntervalMs :
    Part.election.given document "poll_interval_ms" = layer.pollIntervalMs.map millisValue
  opTimeoutMs : Part.election.given document "op_timeout_ms" = layer.opTimeoutMs.map millisValue
  functions : Part.scaler.given document "functions" = layer.functions.map textsValue
  scaleIntervalMs :
    Part.scaler.given document "scale_interval_ms" = layer.scaleIntervalMs.map millisValue
  recreateOnError :
    Part.scaler.given document "recreate_on_error" = layer.recreateOnError.map .boolean
  retryDelayMs : Part.scaler.given document "retry_delay_ms" = layer.retryDelayMs.map millisValue

/-! ### Fields by place and by name -/

theorem field?_eq_bind {part : Part} (among : part ∈ Part.all) (value : Value) {name : String}
    {place : Nat} (placed : part.names[place]? = some name) :
    field? value name place = (part.entries? value).bind (·.lookup name) := by
  have distinct := Part.distinct part among
  cases value with
  | array items => exact (Entries.lookup_zip distinct items placed).symm
  | tables elements =>
      simp only [field?, Part.entries?, Option.bind_some, Entries.lookup_zip distinct _ placed,
        List.getElem?_map]
  | _ => rfl

/-- A date-time is the only section that is neither a table nor an array. -/
theorem isSection_iff (part : Part) (timeless : ∀ literal, value ≠ .moment literal) :
    isSection value = true ↔ ∃ entries, part.entries? value = some entries := by
  cases value with
  | moment literal => exact absurd rfl (timeless literal)
  | _ => simp [isSection, Part.entries?]

theorem asText?_eq_some_iff {text : String} : asText? value = some text ↔ value = .string text := by
  cases value <;> simp [asText?]

theorem asTruth?_eq_some_iff {truth : Bool} : asTruth? value = some truth ↔ value = .boolean truth := by
  cases value <;> simp [asTruth?]

theorem asMillis?_eq_some_iff {millis : Nat} :
    asMillis? value = some millis ↔ value = millisValue millis := by
  cases value with
  | integer number =>
      simp only [asMillis?, millisValue, Option.ite_none_right_eq_some, Option.some.injEq,
        Value.integer.injEq]
      omega
  | _ => simp [asMillis?, millisValue]

theorem mapM_asText?_eq_some_iff {items : List Value} {texts : List String} :
    items.mapM asText? = some texts ↔ items = texts.map .string := by
  induction items generalizing texts with
  | nil => simp [eq_comm]
  | cons item items ih =>
      rw [List.mapM_cons]
      simp only [Option.bind_eq_bind, Option.bind_eq_some_iff, asText?_eq_some_iff, ih,
        Option.pure_def, Option.some.injEq]
      constructor
      · rintro ⟨text, rfl, texts, rfl, rfl⟩
        rfl
      · cases texts with
        | nil => simp
        | cons text texts =>
            intro same
            obtain ⟨rfl, rfl⟩ := List.cons.inj same
            exact ⟨text, rfl, texts, rfl, rfl⟩

theorem asTexts?_eq_some_iff {texts : List String} :
    asTexts? value = some texts ↔ value = textsValue texts := by
  cases value with
  | array items => simp [asTexts?, textsValue, mapM_asText?_eq_some_iff]
  | _ => simp [asTexts?, textsValue]

/-! ### Which documents are read -/

theorem isSome_read {α : Type} {as? : Value → Option α} {default : α} {found : Option Value} :
    (Settings.read as? default found).isSome ↔ ∀ value, found = some value → (as? value).isSome := by
  cases found <;> simp [Settings.read]

theorem isSome_asText? : (asText? value).isSome ↔ FieldKind.text.Admits value := by
  simp only [Option.isSome_iff_exists, asText?_eq_some_iff, FieldKind.Admits]

theorem isSome_asMillis? : (asMillis? value).isSome ↔ FieldKind.millis.Admits value := by
  constructor
  · intro counted
    obtain ⟨millis, read⟩ := Option.isSome_iff_exists.mp counted
    exact ⟨millis, Int.natCast_nonneg millis, asMillis?_eq_some_iff.mp read⟩
  · rintro ⟨number, positive, rfl⟩
    simp [asMillis?, positive]

theorem isSome_asTruth? : (asTruth? value).isSome ↔ FieldKind.truth.Admits value := by
  simp only [Option.isSome_iff_exists, asTruth?_eq_some_iff, FieldKind.Admits]

theorem isSome_asTexts? : (asTexts? value).isSome ↔ FieldKind.texts.Admits value := by
  simp only [Option.isSome_iff_exists, asTexts?_eq_some_iff, FieldKind.Admits, textsValue]

/-- Parts that are read one after the other, but each alone, can be read if all of them can. -/
theorem isSome_bind_iff {α β : Type} {first : Option α} {rest : α → Option β} {others : Prop}
    (alone : ∀ value, (rest value).isSome ↔ others) :
    (first.bind rest).isSome ↔ first.isSome ∧ others := by
  cases first <;> simp [alone]

def Part.Fits (part : Part) (value : Value) : Prop :=
  ∀ field ∈ part.fields, ∀ shown,
    (part.entries? value).bind (·.lookup field.1) = some shown → field.2.Admits shown

theorem isSome_field {α : Type} {as? : Value → Option α} {default : α} {kind : FieldKind}
    (admits : ∀ shown, (as? shown).isSome ↔ kind.Admits shown) {part : Part}
    (among : part ∈ Part.all) {name : String} {place : Nat}
    (placed : part.names[place]? = some name) :
    (Settings.read as? default (field? value name place)).isSome ↔ ∀ shown,
      (part.entries? value).bind (·.lookup name) = some shown → kind.Admits shown := by
  rw [isSome_read, field?_eq_bind among value placed]
  simp only [admits]

theorem isSome_bucketOf? : (bucketOf? value).isSome ↔ Part.bucket.Fits value := by
  have parts : (bucketOf? value).isSome ↔ _ ∧ _ ∧ True :=
    isSome_bind_iff fun _ => isSome_bind_iff fun _ => by simp
  rw [parts, isSome_field (fun _ => isSome_asText?) Part.bucket_mem rfl,
    isSome_field (fun _ => isSome_asMillis?) Part.bucket_mem rfl]
  simp [Part.Fits, Part.bucket]

theorem isSome_electionOf? : (electionOf? value).isSome ↔ Part.election.Fits value := by
  have interval (shown : Value) :
      (some <$> asMillis? shown).isSome ↔ FieldKind.millis.Admits shown := by
    simp [← isSome_asMillis?]
  have parts : (electionOf? value).isSome ↔ _ ∧ _ ∧ _ ∧ True :=
    isSome_bind_iff fun _ => isSome_bind_iff fun _ => isSome_bind_iff fun _ => by simp
  rw [parts, isSome_field interval Part.election_mem rfl,
    isSome_field interval Part.election_mem rfl, isSome_field interval Part.election_mem rfl]
  simp [Part.Fits, Part.election]

theorem isSome_scalerOf? : (scalerOf? value).isSome ↔ Part.scaler.Fits value := by
  have parts : (scalerOf? value).isSome ↔ _ ∧ _ ∧ _ ∧ _ ∧ True :=
    isSome_bind_iff fun _ => isSome_bind_iff fun _ => isSome_bind_iff fun _ =>
      isSome_bind_iff fun _ => by simp
  rw [parts, isSome_field (fun _ => isSome_asTexts?) Part.scaler_mem rfl,
    isSome_field (fun _ => isSome_asMillis?) Part.scaler_mem rfl,
    isSome_field (fun _ => isSome_asTruth?) Part.scaler_mem rfl,
    isSome_field (fun _ => isSome_asMillis?) Part.scaler_mem rfl]
  simp [Part.Fits, Part.scaler]

theorem isSome_section? {α : Type} {of? : Value → Option α} {default : α} {part : Part}
    (timeless : ∀ literal, document.lookup part.key ≠ some (.moment literal))
    (fits : ∀ value, (of? value).isSome ↔ part.Fits value) :
    (section? of? default document part.key).isSome ↔ ∀ value,
      document.lookup part.key = some value →
        (∃ entries, part.entries? value = some entries) ∧ part.Fits value := by
  rw [section?, isSome_read]
  refine forall₂_congr fun value found => ?_
  have timed : ∀ literal, value ≠ .moment literal := by
    rintro literal rfl
    exact timeless literal found
  rw [← isSection_iff part timed, ← fits]
  cases isSection value <;> simp

theorem typed_iff : Typed document ↔ ∀ part ∈ Part.all, ∀ value,
    document.lookup part.key = some value →
      (∃ entries, part.entries? value = some entries) ∧ part.Fits value := by
  constructor
  · intro typed part among value found
    refine ⟨typed.sections part among value found, fun field listed shown given => ?_⟩
    exact typed.fields part among field listed shown (by rw [Part.given, found]; exact given)
  · intro each
    refine ⟨fun part among value found => (each part among value found).1, ?_⟩
    intro part among field listed shown given
    obtain ⟨value, found, given⟩ := Option.bind_eq_some_iff.mp given
    exact (each part among value found).2 field listed shown given

/-- Exactly the documents whose fields are of their kinds are read. -/
theorem isSome_ofDocument? (timeless : Timeless document) :
    (ofDocument? document).isSome ↔ Typed document := by
  have parts : (ofDocument? document).isSome ↔ _ ∧ _ ∧ _ ∧ True :=
    isSome_bind_iff fun _ => isSome_bind_iff fun _ => isSome_bind_iff fun _ => by simp
  have bucket : (section? bucketOf? {} document "bucket").isSome ↔ _ :=
    isSome_section? (timeless Part.bucket Part.bucket_mem) fun _ => isSome_bucketOf?
  have election : (section? electionOf? {} document "election").isSome ↔ _ :=
    isSome_section? (timeless Part.election Part.election_mem) fun _ => isSome_electionOf?
  have scaler : (section? scalerOf? {} document "scaler").isSome ↔ _ :=
    isSome_section? (timeless Part.scaler Part.scaler_mem) fun _ => isSome_scalerOf?
  rw [parts, bucket, election, scaler, typed_iff, Part.forall_mem_all, and_true]

/-! ### What is read of them -/

/-- A value that is read is the one that is written. -/
theorem map_bind_eq {α : Type} {as? : Value → Option α} {write : α → Value}
    (reads : ∀ {shown value}, as? shown = some value ↔ shown = write value) {found : Option Value}
    (right : ∀ shown, found = some shown → (as? shown).isSome) :
    (found.bind as?).map write = found := by
  cases found with
  | none => rfl
  | some shown =>
      obtain ⟨value, read⟩ := Option.isSome_iff_exists.mp (right shown rfl)
      rw [Option.bind_some, read, Option.map_some, ← reads.mp read]

theorem bind_map_eq {α : Type} {as? : Value → Option α} {write : α → Value}
    (reads : ∀ {shown value}, as? shown = some value ↔ shown = write value) (value? : Option α) :
    (value?.map write).bind as? = value? := by
  cases value? with
  | none => rfl
  | some value => exact reads.mpr rfl

theorem field_eq_given {part : Part} (among : part ∈ Part.all) (document : Entries) {name : String}
    {place : Nat} (placed : part.names[place]? = some name) :
    Layer.ofDocument.field document part.key name place = part.given document name := by
  unfold Layer.ofDocument.field Part.given
  congr 1
  funext value
  exact field?_eq_bind among value placed

theorem bind_field_eq {α : Type} {as? : Value → Option α} {write : α → Value}
    (reads : ∀ {shown value}, as? shown = some value ↔ shown = write value) {part : Part}
    (among : part ∈ Part.all) {name : String} {place : Nat}
    (placed : part.names[place]? = some name) {value? : Option α}
    (gives : part.given document name = value?.map write) :
    (Layer.ofDocument.field document part.key name place).bind as? = value? := by
  rw [field_eq_given among document placed, gives, bind_map_eq reads]

theorem given_eq_map {α : Type} {as? : Value → Option α} {write : α → Value} {kind : FieldKind}
    (reads : ∀ {shown value}, as? shown = some value ↔ shown = write value)
    (admits : ∀ {shown}, (as? shown).isSome ↔ kind.Admits shown) (typed : Typed document)
    {part : Part} (among : part ∈ Part.all) {name : String} {place : Nat}
    (placed : part.fields[place]? = some (name, kind)) :
    part.given document name =
      ((Layer.ofDocument.field document part.key name place).bind as?).map write := by
  have named : part.names[place]? = some name := by simp [Part.names, placed]
  have right := typed.fields part among (name, kind) (List.mem_of_getElem? placed)
  rw [field_eq_given among document named,
    map_bind_eq reads fun shown given => admits.mpr (right shown given)]

/-- What a document gives is the layer that is read of it. -/
theorem ofDocument_of_gives (gives : Gives document layer) : Layer.ofDocument document = layer := by
  obtain ⟨name, ttlMs, update, poll, limit, functions, scale, recreate, delay⟩ := layer
  rw [Layer.ofDocument, Layer.mk.injEq]
  exact ⟨bind_field_eq asText?_eq_some_iff Part.bucket_mem rfl gives.name,
    bind_field_eq asMillis?_eq_some_iff Part.bucket_mem rfl gives.ttlMs,
    bind_field_eq asMillis?_eq_some_iff Part.election_mem rfl gives.updateIntervalMs,
    bind_field_eq asMillis?_eq_some_iff Part.election_mem rfl gives.pollIntervalMs,
    bind_field_eq asMillis?_eq_some_iff Part.election_mem rfl gives.opTimeoutMs,
    bind_field_eq asTexts?_eq_some_iff Part.scaler_mem rfl gives.functions,
    bind_field_eq asMillis?_eq_some_iff Part.scaler_mem rfl gives.scaleIntervalMs,
    bind_field_eq asTruth?_eq_some_iff Part.scaler_mem rfl gives.recreateOnError,
    bind_field_eq asMillis?_eq_some_iff Part.scaler_mem rfl gives.retryDelayMs⟩

theorem gives_of_typed (typed : Typed document) : Gives document (Layer.ofDocument document) := by
  exact ⟨given_eq_map asText?_eq_some_iff isSome_asText? typed Part.bucket_mem rfl,
    given_eq_map asMillis?_eq_some_iff isSome_asMillis? typed Part.bucket_mem rfl,
    given_eq_map asMillis?_eq_some_iff isSome_asMillis? typed Part.election_mem rfl,
    given_eq_map asMillis?_eq_some_iff isSome_asMillis? typed Part.election_mem rfl,
    given_eq_map asMillis?_eq_some_iff isSome_asMillis? typed Part.election_mem rfl,
    given_eq_map asTexts?_eq_some_iff isSome_asTexts? typed Part.scaler_mem rfl,
    given_eq_map asMillis?_eq_some_iff isSome_asMillis? typed Part.scaler_mem rfl,
    given_eq_map asTruth?_eq_some_iff isSome_asTruth? typed Part.scaler_mem rfl,
    given_eq_map asMillis?_eq_some_iff isSome_asMillis? typed Part.scaler_mem rfl⟩

theorem typed_of_gives (gives : Gives document layer)
    (sections : ∀ part ∈ Part.all, ∀ value, document.lookup part.key = some value →
      ∃ entries, part.entries? value = some entries) : Typed document := by
  have written {α : Type} {write : α → Value} {part : Part} {name : String} {kind : FieldKind}
      {value? : Option α} (admits : ∀ value, kind.Admits (write value))
      (gives : part.given document name = value?.map write) :
      ∀ value, part.given document name = some value → kind.Admits value := by
    intro value given
    obtain ⟨value, -, rfl⟩ := Option.map_eq_some_iff.mp (gives.symm.trans given)
    exact admits value
  have millis (number : Nat) : FieldKind.millis.Admits (millisValue number) :=
    ⟨number, Int.natCast_nonneg number, rfl⟩
  have bucket : ∀ field ∈ Part.bucket.fields, ∀ value,
      Part.bucket.given document field.1 = some value → field.2.Admits value := by
    refine List.forall_mem_cons.mpr ⟨written (fun text => ⟨text, rfl⟩) gives.name, ?_⟩
    exact List.forall_mem_singleton.mpr (written millis gives.ttlMs)
  have election : ∀ field ∈ Part.election.fields, ∀ value,
      Part.election.given document field.1 = some value → field.2.Admits value := by
    refine List.forall_mem_cons.mpr ⟨written millis gives.updateIntervalMs, ?_⟩
    refine List.forall_mem_cons.mpr ⟨written millis gives.pollIntervalMs, ?_⟩
    exact List.forall_mem_singleton.mpr (written millis gives.opTimeoutMs)
  have scaler : ∀ field ∈ Part.scaler.fields, ∀ value,
      Part.scaler.given document field.1 = some value → field.2.Admits value := by
    refine List.forall_mem_cons.mpr ⟨written (fun texts => ⟨texts, rfl⟩) gives.functions, ?_⟩
    refine List.forall_mem_cons.mpr ⟨written millis gives.scaleIntervalMs, ?_⟩
    refine List.forall_mem_cons.mpr ⟨written (fun truth => ⟨truth, rfl⟩) gives.recreateOnError, ?_⟩
    exact List.forall_mem_singleton.mpr (written millis gives.retryDelayMs)
  exact ⟨sections, Part.forall_mem_all.mpr ⟨bucket, election, scaler⟩⟩

/-- A document that gives what a layer sets is read as the layer upon the defaults. -/
theorem ofDocument?_of_gives (timeless : Timeless document) (typed : Typed document)
    (gives : Gives document layer) : ofDocument? document = some (layer.onto {}) := by
  obtain ⟨settings, read⟩ :=
    Option.isSome_iff_exists.mp ((isSome_ofDocument? timeless).mpr typed)
  rw [read, ofDocument?_eq_some read, ofDocument_of_gives gives]

/-! ### Other ways to write a document -/

inductive Part.Alike (part : Part) : Option Value → Option Value → Prop where
  | same (found : Option Value) : Alike part found found
  | apart {first second : Value} {entries others : Entries}
      (one : part.entries? first = some entries) (other : part.entries? second = some others)
      (agree : ∀ name ∈ part.names, entries.lookup name = others.lookup name) :
      Alike part (some first) (some second)

inductive Rewrites : Entries → Entries → Prop where
  /-- The sections are in another order, and there are other unknown keys. -/
  | document {one other : Entries} (shuffled : Entries.Shuffled (Part.all.map Part.key) one other) :
      Rewrites one other
  /-- The fields of a section are in another order, and there are other unknown keys. -/
  | table {part : Part} (among : part ∈ Part.all) {before after entries others : Entries}
      {origin other : Toml.Origin} (shuffled : Entries.Shuffled part.names entries others) :
      Rewrites (before ++ (part.key, .table origin entries) :: after)
        (before ++ (part.key, .table other others) :: after)
  /-- The items of an array stand under the names of the first fields, as many as there are. -/
  | array {part : Part} (among : part ∈ Part.all) {before after : Entries} {items : List Value}
      {origin : Toml.Origin} : Rewrites (before ++ (part.key, .array items) :: after)
        (before ++ (part.key, .table origin (part.names.zip items)) :: after)
  /-- Tables with headers are the items of an array. -/
  | tables {part : Part} (among : part ∈ Part.all) {before after : Entries}
      {elements : List Entries} : Rewrites (before ++ (part.key, .tables elements) :: after)
        (before ++ (part.key, .array (elements.reverse.map (Value.table .header))) :: after)

theorem isSection_of_entries? {part : Part} {entries : Entries}
    (found : part.entries? value = some entries) : isSection value = true := by
  cases value <;> simp_all [Part.entries?, isSection]

/-- A reader of sections that asks for nothing but fields reads like sections alike. -/
theorem section?_congr {α : Type} {of? : Value → Option α} {default : α} {part : Part}
    (among : part ∈ Part.all) {one other : Entries}
    (reads : ∀ {first second}, (∀ name place, part.names[place]? = some name →
      field? first name place = field? second name place) → of? first = of? second)
    (alike : part.Alike (one.lookup part.key) (other.lookup part.key)) :
    (section? of? default one part.key) = section? of? default other part.key := by
  unfold section?
  generalize one.lookup part.key = found at alike
  generalize other.lookup part.key = shown at alike
  cases alike with
  | same => rfl
  | @apart first second entries others here there agree =>
      have same : of? first = of? second := reads fun name place placed => by
        rw [field?_eq_bind among first placed, field?_eq_bind among second placed, here, there]
        exact agree name (List.mem_of_getElem? placed)
      simp [Settings.read, isSection_of_entries? here, isSection_of_entries? there, same]

theorem ofDocument?_congr {one other : Entries}
    (alike : ∀ part ∈ Part.all, part.Alike (one.lookup part.key) (other.lookup part.key)) :
    ofDocument? one = ofDocument? other := by
  have buckets : section? bucketOf? {} one "bucket" = section? bucketOf? {} other "bucket" := by
    refine section?_congr Part.bucket_mem (fun same => ?_) (alike _ Part.bucket_mem)
    simp only [bucketOf?, same "name" 0 rfl, same "ttl_ms" 1 rfl]
  have elections : section? electionOf? {} one "election" =
      (section? electionOf? {} other "election") := by
    refine section?_congr Part.election_mem (fun same => ?_) (alike _ Part.election_mem)
    simp only [electionOf?, same "update_interval_ms" 0 rfl, same "poll_interval_ms" 1 rfl,
      same "op_timeout_ms" 2 rfl]
  have scalers : section? scalerOf? {} one "scaler" = section? scalerOf? {} other "scaler" := by
    refine section?_congr Part.scaler_mem (fun same => ?_) (alike _ Part.scaler_mem)
    simp only [scalerOf?, same "functions" 0 rfl, same "scale_interval_ms" 1 rfl,
      same "recreate_on_error" 2 rfl, same "retry_delay_ms" 3 rfl]
  rw [ofDocument?, ofDocument?, buckets, elections, scalers]

/-- No two sections have the same key. -/
theorem Part.key_inj : ∀ one ∈ all, ∀ other ∈ all, one.key = other.key → one = other := by
  decide

/-- A section in the place of another that gives the same. -/
theorem alike_of_replaced {part : Part} (among : part ∈ Part.all) {before after : Entries}
    {first second : Value} {entries others : Entries} (here : part.entries? first = some entries)
    (there : part.entries? second = some others)
    (agree : ∀ name ∈ part.names, entries.lookup name = others.lookup name) :
    ∀ each ∈ Part.all, each.Alike ((before ++ (part.key, first) :: after).lookup each.key)
      ((before ++ (part.key, second) :: after).lookup each.key) := by
  intro each also
  rw [List.lookup_append, List.lookup_append]
  cases before.lookup each.key with
  | some found => exact .same _
  | none =>
      by_cases same : each.key = part.key
      · obtain rfl := Part.key_inj each also part among same
        simpa using Part.Alike.apart here there agree
      · have test : (each.key == part.key) = false := beq_eq_false_iff_ne.mpr same
        simpa [List.lookup_cons, test] using Part.Alike.same _

theorem ofDocument?_of_rewrites {one other : Entries} (rewrites : Rewrites one other) :
    ofDocument? other = ofDocument? one := by
  refine ofDocument?_congr ?_
  cases rewrites with
  | document shuffled =>
      intro part among
      rw [shuffled.lookup (List.mem_map_of_mem among)]
      exact .same _
  | table among shuffled =>
      exact alike_of_replaced among rfl rfl fun name known => shuffled.lookup known
  | array among => exact alike_of_replaced among rfl rfl fun _ _ => rfl
  | tables among => exact alike_of_replaced among rfl rfl fun _ _ => rfl

end Settings

/-! ### Settings as a document -/

namespace Layer

open Settings (Part Gives millisValue textsValue)
open Toml (Entries Value)

def fields (layer : Layer) (part : Part) : List (String × Option Value) :=
  if part = .bucket then
    [("name", layer.name.map .string), ("ttl_ms", layer.ttlMs.map millisValue)]
  else if part = .election then
    [("update_interval_ms", layer.updateIntervalMs.map millisValue),
      ("poll_interval_ms", layer.pollIntervalMs.map millisValue),
      ("op_timeout_ms", layer.opTimeoutMs.map millisValue)]
  else
    [("functions", layer.functions.map textsValue),
      ("scale_interval_ms", layer.scaleIntervalMs.map millisValue),
      ("recreate_on_error", layer.recreateOnError.map .boolean),
      ("retry_delay_ms", layer.retryDelayMs.map millisValue)]

def document (layer : Layer) : Entries :=
  Part.all.map fun part => (part.key, .table .header (Entries.present (layer.fields part)))

/-- All fields of settings. An interval that is not set has no field. -/
def ofSettings (settings : Settings) : Layer where
  name := some settings.bucket.name
  ttlMs := some settings.bucket.ttlMs
  updateIntervalMs := settings.election.updateIntervalMs
  pollIntervalMs := settings.election.pollIntervalMs
  opTimeoutMs := settings.election.opTimeoutMs
  functions := some settings.scaler.functions
  scaleIntervalMs := some settings.scaler.scaleIntervalMs
  recreateOnError := some settings.scaler.recreateOnError
  retryDelayMs := some settings.scaler.retryDelayMs

theorem ofSettings_onto (settings : Settings) : (ofSettings settings).onto {} = settings := by
  simp [ofSettings, onto]

theorem lookup_document (layer : Layer) :
    ∀ part ∈ Part.all, layer.document.lookup part.key =
      some (.table .header (Entries.present (layer.fields part))) :=
  Part.forall_mem_all.mpr ⟨rfl, rfl, rfl⟩

theorem map_fst_fields (layer : Layer) :
    ∀ part ∈ Part.all, (layer.fields part).map Prod.fst = part.names :=
  Part.forall_mem_all.mpr ⟨rfl, rfl, rfl⟩

theorem given_document (layer : Layer) {part : Part} (among : part ∈ Part.all) (name : String) :
    part.given layer.document name = ((layer.fields part).lookup name).join := by
  have distinct : ((layer.fields part).map Prod.fst).Nodup := by
    rw [map_fst_fields layer part among]
    exact Part.distinct part among
  rw [Part.given, lookup_document layer part among, ← Entries.lookup_present distinct]
  rfl

theorem gives_document (layer : Layer) : Gives layer.document layer := by
  constructor
  · exact given_document layer Part.bucket_mem "name"
  · exact given_document layer Part.bucket_mem "ttl_ms"
  · exact given_document layer Part.election_mem "update_interval_ms"
  · exact given_document layer Part.election_mem "poll_interval_ms"
  · exact given_document layer Part.election_mem "op_timeout_ms"
  · exact given_document layer Part.scaler_mem "functions"
  · exact given_document layer Part.scaler_mem "scale_interval_ms"
  · exact given_document layer Part.scaler_mem "recreate_on_error"
  · exact given_document layer Part.scaler_mem "retry_delay_ms"

end Layer

namespace Settings

open Toml (Entries Value)

variable {document : Entries}

theorem ofDocument?_document (layer : Layer) :
    ofDocument? layer.document = some (layer.onto {}) := by
  have timeless : Timeless layer.document := by
    intro part among literal found
    rw [layer.lookup_document part among] at found
    cases found
  refine ofDocument?_of_gives timeless (typed_of_gives layer.gives_document ?_)
    layer.gives_document
  intro part among value found
  rw [layer.lookup_document part among] at found
  cases found
  exact ⟨_, rfl⟩

/-! ### Every document -/

structure Decoding (document : Entries) : Prop where
  /-- Settings are read of exactly the documents in which all known fields are of their kinds. -/
  decided : (ofDocument? document).isSome ↔ Typed document
  /-- A field is as the document has it, or has its own default where the document does not have it. -/
  valued : ∀ settings, ofDocument? document = some settings →
    ∃ layer, Gives document layer ∧ settings = layer.onto {}
  unmoved : ∀ other, Rewrites document other → ofDocument? other = ofDocument? document
  /-- The keys of a document that was parsed are apart, and so are those of its sections. -/
  keyed : ∀ text, Toml.document? text = some document → (document.map Prod.fst).Nodup ∧
    ∀ part ∈ Part.all, ∀ origin entries, document.lookup part.key = some (.table origin entries) →
      (entries.map Prod.fst).Nodup

/-- Documents are read field by field, and all settings can be read of one. -/
theorem decoding_of_timeless (timeless : Timeless document) :
    Decoding document ∧
      ∀ settings, ofDocument? (Layer.ofSettings settings).document = some settings := by
  refine ⟨⟨isSome_ofDocument? timeless, ?_, fun other => ofDocument?_of_rewrites, ?_⟩, ?_⟩
  · intro settings read
    have typed := (isSome_ofDocument? timeless).mp (by rw [read]; rfl)
    exact ⟨_, gives_of_typed typed, ofDocument?_eq_some read⟩
  · intro text parsed
    have keyed := Toml.keyed_of_document? parsed
    refine ⟨keyed.distinct, fun part among origin entries found => ?_⟩
    exact (Entries.keyed_table_iff.mp (keyed.lookup found)).distinct
  · intro settings
    rw [ofDocument?_document]
    exact congrArg some (Layer.ofSettings_onto settings)

/-- An array with too many items, one of them a date-time, and a table in another order with a key
that is not known, as the document has one, too. -/
def mixedDocument : Entries :=
  [("scaler", .table .header
      [("retry_delay_ms", .integer 40), ("color", .float "1.5"), ("functions", textsValue ["a", "b"])]),
    ("owner", .moment "1979-05-27"),
    ("bucket", .array [.string "site", .integer 5000, .moment "1979-05-27"])]

theorem decoding_mixed : Timeless mixedDocument ∧ Decoding mixedDocument ∧
    ofDocument? mixedDocument = some {
      bucket := { name := "site", ttlMs := 5000 }
      scaler := { functions := ["a", "b"], retryDelayMs := 40 } } := by
  have timeless : Timeless mixedDocument := by
    refine Part.forall_mem_all.mpr ⟨?_, ?_, ?_⟩ <;> intro literal found <;> cases found
  exact ⟨timeless, (decoding_of_timeless timeless).1, rfl⟩

end Settings

end Leasehold
