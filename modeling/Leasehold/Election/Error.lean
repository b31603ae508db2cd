import Leasehold.Election.Outcome

set_option autoImplicit false

namespace Leasehold

inductive ElectionError where
  | invalidConfig (reason : String)
  | missingTtl (bucket : String)
  | alreadyStarted (key : String)
  | cancelled
  | store (cause : StoreError)
  deriving DecidableEq, Repr

def ElectionError.message : ElectionError → String
  | invalidConfig reason => s!"invalid election config: {reason}"
  | missingTtl bucket => s!"bucket '{bucket}' has no TTL"
  | alreadyStarted key => s!"election for '{key}' already started"
  | cancelled => "election cancelled"
  | store cause => s!"store error: {cause.message}"

/-- The error behind an ending, where there is one: being asked to stop is none. -/
def Outcome.error? : Outcome → Option ElectionError
  | .error cause => some (.store cause)
  | .cancelled => some .cancelled
  | .won | .lost | .stopped => none

end Leasehold
