import Leasehold.Rehearsal.Schedule

set_option autoImplicit false

/-! Steps that every script has, and what a script shows of the calls that are over. -/

namespace Leasehold

def CallCase.agrees (actor? key? : Option String) (kind? : Option CallKind) (case : CallCase) : Bool :=
  actor?.all (· = case.actor) && key?.all (· = case.key) && kind?.all (· = case.kind)

inductive CommonStep where
  | advance (duration : Nat)
  | cancel (context : String)
  | rule (rule : Rule CallCase Plan)
  | inject (failure : StoreError)
  | perform (operation : Operation)

structure PlayedCall where
  actor : String
  candidacy : Candidacy
  record : CallRecord

namespace Rehearsal

variable (rehearsal : Rehearsal)

def common : CommonStep → Option (Except StoreError Reply) × Rehearsal
  | .advance duration => (none, rehearsal.advance duration)
  | .cancel context => (none, rehearsal.withContest (rehearsal.fleet.contest.cancel context))
  | .rule rule => (none, { rehearsal with callRules := rehearsal.callRules ++ [rule] })
  | .inject failure => (none, rehearsal.withContest (rehearsal.fleet.contest.inject failure))
  | .perform operation =>
      let (reply, contest) := rehearsal.fleet.contest.perform operation
      (some reply, rehearsal.withContest contest)

/-- The calls that ended after the first ones, in the order in which they ended. -/
def callsSince (count : Nat) : List PlayedCall :=
  let calls := rehearsal.fleet.contest.calls
  (calls.take (calls.length - count)).reverse.filterMap fun record =>
    (rehearsal.fleet.candidate? record.member).map fun candidate =>
      ⟨rehearsal.actor record.member, candidate.candidacy, record⟩

end Rehearsal

end Leasehold
