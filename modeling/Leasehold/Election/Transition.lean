import Leasehold.Store.Bucket
import Leasehold.Election.Outcome

set_option autoImplicit false

/-!
The phases of an election and how the answer to one store call moves between them.

A candidate tries to create the record of the key. The one that succeeds leads and keeps updating
the record; the others follow and look whether it is still there. A conflict is an answer about who
leads; any other failure ends the election.
-/

namespace Leasehold

inductive Phase where
  | electing
  | leading (held : Revision)
  | following
  deriving DecidableEq, Repr

/-- The same phase, whichever revision is held. -/
def Phase.sameKind : Phase → Phase → Bool
  | electing, electing | leading _, leading _ | following, following => true
  | _, _ => false

inductive Transition where
  /-- Go on in a phase, after reporting the outcome if there is one. -/
  | enter (phase : Phase) (report : Option Outcome)
  /-- End with an outcome. -/
  | finish (outcome : Outcome)
  deriving DecidableEq, Repr

namespace Transition

def afterCreate : Except StoreError Revision → Transition
  | .ok revision => enter (.leading revision) (some .won)
  | .error cause => if cause.isKeyExists then enter .following (some .lost) else finish (.error cause)

def afterRenewal : Except StoreError Revision → Transition
  | .ok revision => enter (.leading revision) none
  | .error cause => if cause.isConflict then enter .following (some .lost) else finish (.error cause)

def afterPoll : Except StoreError Entry → Transition
  | .ok _ => enter .following none
  | .error cause => if cause.isNotFound then enter .electing none else finish (.error cause)

end Transition

end Leasehold
