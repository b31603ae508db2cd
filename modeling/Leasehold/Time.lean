set_option autoImplicit false

/-! Instants and durations are natural numbers: whole nanoseconds, instants from the start of the
run. Settings give durations in milliseconds. -/

namespace Leasehold

def maxMillis : Nat := UInt64.size - 1

namespace Duration

def ofMillis (millis : Nat) : Nat := millis * 1_000_000

def ofSeconds (seconds : Nat) : Nat := seconds * 1_000_000_000

def wholeMillis (duration : Nat) : Nat := duration / 1_000_000

end Duration

end Leasehold
