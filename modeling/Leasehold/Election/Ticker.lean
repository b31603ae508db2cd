set_option autoImplicit false

/-!
A ticker gives one tick per period. A tick that is taken late, beyond a small tolerance, moves the
following ones: missed ticks are never made up in a burst.
-/

namespace Leasehold

structure Ticker where
  due : Nat
  period : Nat
  deriving DecidableEq, Repr

namespace Ticker

/-- How late a tick may be taken without moving the next one: five milliseconds. -/
def tolerance : Nat := 5_000_000

def after (now period : Nat) : Ticker := ⟨now + period, period⟩

def fromNow (now period : Nat) : Ticker := ⟨now, period⟩

def isDue (ticker : Ticker) (now : Nat) : Bool := ticker.due ≤ now

def take (ticker : Ticker) (now : Nat) : Ticker :=
  { ticker with
    due := if now ≤ ticker.due + tolerance then ticker.due + ticker.period else now + ticker.period }

def reset (ticker : Ticker) (now : Nat) : Ticker := { ticker with due := now }

theorem period_take (ticker : Ticker) (now : Nat) : (ticker.take now).period = ticker.period := rfl

theorem due_take_of_eq (ticker : Ticker) : (ticker.take ticker.due).due = ticker.due + ticker.period :=
  if_pos (Nat.le_add_right _ _)

end Ticker

end Leasehold
