import Leasehold.Settings.Basic
import Leasehold.Text.Blank
import Leasehold.Text.Decimal
import Leasehold.Text.Pieces

set_option autoImplicit false

/-!
Environment variables that override settings.

The variables are taken in a fixed order. The first one whose text cannot be read ends the sequence:
what came before it stays applied and nothing after it is looked at.
-/

namespace Leasehold

structure Override where
  source : String
  change? : String → Option (Settings → Settings)

namespace Override

def text (source : String) (set : String → Settings → Settings) : Override :=
  ⟨source, fun text => some (set text)⟩

/-- A number of milliseconds; blanks around it do not matter. -/
def millis (source : String) (set : Nat → Settings → Settings) : Override :=
  ⟨source, fun text => set <$> Text.natural? maxMillis (Text.trim text.toList)⟩

def truth? (text : String) : Option Bool :=
  match String.ofList (Text.trim text.toList) with
  | "true" => some true
  | "false" => some false
  | _ => none

def truth (source : String) (set : Bool → Settings → Settings) : Override :=
  ⟨source, fun text => set <$> truth? text⟩

/-- Function names between commas. Blanks around a name and empty places are dropped. -/
def functionNames (text : String) : List String :=
  (((Text.pieces ',' text.toList).map Text.trim).filter (· ≠ [])).map String.ofList

def all : List Override :=
  [text "SKIFF_BUCKET" fun name settings =>
      { settings with bucket.name := name },
    millis "SKIFF_BUCKET_TTL_MS" fun ttl settings =>
      { settings with bucket.ttlMs := ttl },
    millis "SKIFF_UPDATE_INTERVAL_MS" fun interval settings =>
      { settings with election.updateIntervalMs := some interval },
    millis "SKIFF_POLL_INTERVAL_MS" fun interval settings =>
      { settings with election.pollIntervalMs := some interval },
    millis "SKIFF_OP_TIMEOUT_MS" fun limit settings =>
      { settings with election.opTimeoutMs := some limit },
    text "SKIFF_FUNCTIONS" fun names settings =>
      { settings with scaler.functions := functionNames names },
    millis "SKIFF_SCALE_INTERVAL_MS" fun interval settings =>
      { settings with scaler.scaleIntervalMs := interval },
    truth "SKIFF_RECREATE_ON_ERROR" fun recreate settings =>
      { settings with scaler.recreateOnError := recreate },
    millis "SKIFF_RETRY_DELAY_MS" fun delay settings =>
      { settings with scaler.retryDelayMs := delay }]

end Override

abbrev Variables := String → Option String

namespace Settings

/-- Apply overrides in order, up to the first whose text cannot be read. -/
def overrideWith (lookup : Variables) :
    List Override → Settings → Settings × Except SettingsError Unit
  | [], settings => (settings, .ok ())
  | override :: rest, settings =>
      match lookup override.source with
      | none => overrideWith lookup rest settings
      | some text =>
          match override.change? text with
          | none => (settings, .error (.invalid override.source text "cannot be parsed"))
          | some change => overrideWith lookup rest (change settings)

def override (settings : Settings) (lookup : Variables) : Settings × Except SettingsError Unit :=
  settings.overrideWith lookup Override.all

end Settings

end Leasehold
