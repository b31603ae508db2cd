import Leasehold.Settings.Basic
import Leasehold.Toml.Document

set_option autoImplicit false

/-!
Settings from a document.

A section is a table of its fields, or an array of them in the order in which they are listed here.
Fields that are missing keep their defaults; whatever is not known is ignored.
-/

namespace Leasehold.Settings

open Toml

/-- What a section gives for the field with a name and a place. -/
def field? (part : Value) (name : String) (place : Nat) : Option Value :=
  match part with
  | .table _ entries => entries.lookup name
  | .tables elements => (elements.reverse[place]?).map (Value.table .header)
  | .array items => items[place]?
  | _ => none

/-- Tables and arrays are sections. A date-time counts as a table without known fields. -/
def isSection : Value → Bool
  | .table _ _ | .tables _ | .array _ | .moment _ => true
  | .string _ | .integer _ | .float _ | .boolean _ => false

def asText? : Value → Option String
  | .string text => some text
  | _ => none

def asMillis? : Value → Option Nat
  | .integer value => if 0 ≤ value then some value.toNat else none
  | _ => none

def asTruth? : Value → Option Bool
  | .boolean value => some value
  | _ => none

def asTexts? : Value → Option (List String)
  | .array items => items.mapM asText?
  | _ => none

/-- A field that is missing has its default; one that is there has to be of the right kind. -/
def read {α : Type} (as? : Value → Option α) (default : α) : Option Value → Option α
  | none => some default
  | some value => as? value

def bucketOf? (part : Value) : Option BucketSection := do
  some {
    name := ← read asText? ({} : BucketSection).name (field? part "name" 0)
    ttlMs := ← read asMillis? ({} : BucketSection).ttlMs (field? part "ttl_ms" 1) }

def electionOf? (part : Value) : Option ElectionSection := do
  let interval (name : String) (place : Nat) : Option (Option Nat) :=
    read (fun value => some <$> asMillis? value) none (field? part name place)
  some {
    updateIntervalMs := ← interval "update_interval_ms" 0
    pollIntervalMs := ← interval "poll_interval_ms" 1
    opTimeoutMs := ← interval "op_timeout_ms" 2 }

def scalerOf? (part : Value) : Option ScalerSection := do
  let plain : ScalerSection := {}
  some {
    functions := ← read asTexts? plain.functions (field? part "functions" 0)
    scaleIntervalMs := ← read asMillis? plain.scaleIntervalMs (field? part "scale_interval_ms" 1)
    recreateOnError := ← read asTruth? plain.recreateOnError (field? part "recreate_on_error" 2)
    retryDelayMs := ← read asMillis? plain.retryDelayMs (field? part "retry_delay_ms" 3) }

def section? {α : Type} (of? : Value → Option α) (default : α) (document : Entries) (name : String) :
    Option α :=
  read (fun value => if isSection value then of? value else none) default (document.lookup name)

/-- The settings that a document gives, if all of its known fields are of the right kinds. -/
def ofDocument? (document : Entries) : Option Settings := do
  some {
    bucket := ← section? bucketOf? {} document "bucket"
    election := ← section? electionOf? {} document "election"
    scaler := ← section? scalerOf? {} document "scaler" }

def ofText (text : String) : Except SettingsError Settings :=
  match document? text >>= ofDocument? with
  | some settings => .ok settings
  | none => .error .malformed

end Leasehold.Settings
