import Leasehold.Settings.Basic

set_option autoImplicit false

/-! Whether settings can work, before anything is started with them. -/

namespace Leasehold.Settings

/-- The first function name that cannot be used after those already accepted. -/
def nameObjection? (accepted : List String) : List String → Option SettingsError
  | [] => none
  | function :: rest =>
      if function = "" then
        some (.invalid "scaler.functions" "" "function names must not be empty")
      else if function ∈ accepted then
        some (.invalid "scaler.functions" function "duplicate function")
      else nameObjection? (function :: accepted) rest

/-- The key that stands for all leader keys when the timing is checked. -/
def sampleKey : String := leaderKey "validate"

def timingObjection? (settings : Settings) : Option SettingsError :=
  match (settings.candidacy sampleKey (.generated 0)).validate settings.bucketTerms.ttl with
  | .ok () => none
  | .error error => some (.invalid "election" settings.election.shown error.message)

def objection? (settings : Settings) : Option SettingsError :=
  if settings.bucket.name = "" then
    some (.invalid "bucket.name" "" "must not be empty")
  else if settings.bucket.ttlMs = 0 then
    some (.invalid "bucket.ttl_ms" "0" "a bucket without TTL never fails over")
  else if settings.scaler.scaleIntervalMs = 0 then
    some (.invalid "scaler.scale_interval_ms" "0" "must be positive")
  else if settings.scaler.functions = [] then
    some (.invalid "scaler.functions" "[]" "at least one function is required")
  else nameObjection? [] settings.scaler.functions <|> settings.timingObjection?

def validate (settings : Settings) : Except SettingsError Unit :=
  match settings.objection? with
  | some error => .error error
  | none => .ok ()

end Leasehold.Settings
