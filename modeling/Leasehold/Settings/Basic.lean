import Leasehold.Election.Candidacy

set_option autoImplicit false

/-! What an operator sets: the bucket of the leases, the timing of elections, and the functions to
scale. Intervals that are not set follow from the time-to-live. -/

namespace Leasehold

structure BucketSection where
  name : String := "scalers"
  ttlMs : Nat := 2_000
  deriving DecidableEq, Repr

structure ElectionSection where
  updateIntervalMs : Option Nat := none
  pollIntervalMs : Option Nat := none
  opTimeoutMs : Option Nat := none
  deriving DecidableEq, Repr

structure ScalerSection where
  functions : List String := []
  scaleIntervalMs : Nat := 1_000
  recreateOnError : Bool := true
  retryDelayMs : Nat := 1_000
  deriving DecidableEq, Repr

structure Settings where
  bucket : BucketSection := {}
  election : ElectionSection := {}
  scaler : ScalerSection := {}
  deriving DecidableEq, Repr

inductive SettingsError where
  | unreadable (path reason : String)
  | malformed
  | invalid (key value reason : String)
  deriving DecidableEq, Repr

def SettingsError.message : SettingsError → String
  | unreadable path reason => s!"failed to read config file {path}: {reason}"
  | malformed => "failed to parse config file"
  | invalid key value reason => s!"invalid configuration for {key}: '{value}' ({reason})"

namespace ScalerSection

def scaleInterval (scaler : ScalerSection) : Nat := Duration.ofMillis scaler.scaleIntervalMs

def retryDelay (scaler : ScalerSection) : Nat := Duration.ofMillis scaler.retryDelayMs

end ScalerSection

def ElectionSection.shown (election : ElectionSection) : String :=
  "ElectionSettings \x7b update_interval_ms: " ++ interval election.updateIntervalMs ++
    ", poll_interval_ms: " ++ interval election.pollIntervalMs ++
    ", op_timeout_ms: " ++ interval election.opTimeoutMs ++ " \x7d"
where
  interval : Option Nat → String
    | none => "None"
    | some millis => s!"Some({millis})"

namespace Settings

def bucketTerms (settings : Settings) : BucketTerms :=
  ⟨settings.bucket.name, Duration.ofMillis settings.bucket.ttlMs⟩

/-- The terms of a candidate for a key: the set intervals, and for the others the derived ones. -/
def candidacy (settings : Settings) (key : String) (candidate : CandidateName) : Candidacy :=
  let derived := Candidacy.derived key candidate settings.bucketTerms.ttl
  { derived with
    renewEveryMs := settings.election.updateIntervalMs.getD derived.renewEveryMs
    pollEveryMs := settings.election.pollIntervalMs.getD derived.pollEveryMs
    callLimitMs := settings.election.opTimeoutMs }

end Settings

end Leasehold
