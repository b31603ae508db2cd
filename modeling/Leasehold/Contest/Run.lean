import Leasehold.Contest.Basic

set_option autoImplicit false

/-! Everything that can happen in a contest, as data, and the states that a contest can reach. -/

namespace Leasehold

inductive Action where
  | nominate (candidacy : Candidacy)
  | start (id : Nat) (context : String)
  | stop (id : Nat)
  | deafen (id : Nat)
  | cancel (context : String)
  | perform (operation : Operation)
  | inject (failure : StoreError)
  | proceed (id : Nat) (plan : Plan)
  | passTo (instant : Nat)
  deriving DecidableEq

namespace Contest

/-- A member that has nothing to do cannot proceed, and time passes only while all are quiet. -/
def act? (contest : Contest) : Action → Option Contest
  | .nominate candidacy => (contest.nominate candidacy).toOption
  | .start id context => (contest.start id context).toOption
  | .stop id => some (contest.stop id)
  | .deafen id => some (contest.deafen id)
  | .cancel context => some (contest.cancel context)
  | .perform operation => some (contest.perform operation).2
  | .inject failure => some (contest.inject failure)
  | .proceed id plan =>
      if (contest.members[id]?).any fun member => (contest.step? member).isSome then
        some (contest.proceed id plan)
      else none
  | .passTo instant => contest.passTo? instant

def run? (contest : Contest) (actions : List Action) : Option Contest :=
  actions.foldlM act? contest

def opening (terms : BucketTerms) : Contest := { bucket := { terms } }

def Reachable (terms : BucketTerms) (contest : Contest) : Prop :=
  ∃ actions, (opening terms).run? actions = some contest

end Contest

end Leasehold
