import Leasehold.Contest.Run
import Leasehold.Scaling.Crew

set_option autoImplicit false

/-! Everything that can happen to a fleet, as data, and the states that a fleet can reach. -/

namespace Leasehold

inductive FleetAction where
  | add (assignment : Assignment)
  | spawn (settings : Settings) (context : String)
  | proceed (id : Nat) (branch : Branch) (candidate : CandidateName) (duration : Nat)
  | abort (id : Nat)
  /-- Something happens among the elections or to their bucket. -/
  | among (action : Action)
  | passTo (instant : Nat)

namespace Fleet

/-- A replica goes on only along a branch that is open to it, whichever of them that is. Time passes
only while everybody is quiet. -/
def act? (fleet : Fleet) : FleetAction → Option Fleet
  | .add assignment => some (fleet.add assignment)
  | .spawn settings context => some (fleet.spawn settings context).2
  | .proceed id branch candidate duration =>
      if (fleet.replicas[id]?).any fun replica => branch ∈ fleet.branches replica then
        some (fleet.proceed id branch candidate duration)
      else none
  | .abort id => some (fleet.abort id)
  | .among (.passTo _) => none
  | .among action => (fleet.contest.act? action).map fun contest => { fleet with contest }
  | .passTo instant => fleet.passTo? instant

def run? (fleet : Fleet) (actions : List FleetAction) : Option Fleet :=
  actions.foldlM act? fleet

def opening (terms : BucketTerms) : Fleet := { contest := .opening terms }

def Reachable (terms : BucketTerms) (fleet : Fleet) : Prop :=
  ∃ actions, (opening terms).run? actions = some fleet

end Fleet

end Leasehold
