set_option autoImplicit false

/-! Rules that a script sets for things to come. Each rule lets some matching cases pass, then takes
effect on some, and is then used up. -/

namespace Leasehold

structure Rule (Case Effect : Type) where
  applies : Case → Bool
  skip : Nat
  count : Nat
  effect : Effect

namespace Rule

variable {Case Effect : Type}

/-- The first rule that is not used up and applies decides the case, also when it lets it pass. -/
def consult : List (Rule Case Effect) → Case → Option Effect × List (Rule Case Effect)
  | [], _ => (none, [])
  | rule :: rest, case =>
      if rule.count = 0 || !rule.applies case then
        let (effect, rest) := consult rest case
        (effect, rule :: rest)
      else if rule.skip = 0 then
        (some rule.effect, { rule with count := rule.count - 1 } :: rest)
      else (none, { rule with skip := rule.skip - 1 } :: rest)

def remaining (rules : List (Rule Case Effect)) : Nat :=
  rules.foldl (fun total rule => total + rule.skip + rule.count) 0

end Rule

end Leasehold
