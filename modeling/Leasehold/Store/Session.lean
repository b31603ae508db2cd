import Leasehold.Store.Bucket

set_option autoImplicit false

/-! A bucket in use: operations, injected failures and the passing of time, one after another. -/

namespace Leasehold

inductive Event where
  | perform (operation : Operation)
  | inject (failure : StoreError)
  | pass (duration : Nat)
  deriving DecidableEq

structure Session where
  bucket : Bucket
  now : Nat := 0

namespace Session

def step (session : Session) : Event → Option (Except StoreError Reply) × Session
  | .perform operation =>
      let (answer, bucket) := session.bucket.perform session.now operation
      (some answer, { session with bucket })
  | .inject failure => (none, { session with bucket := session.bucket.inject failure })
  | .pass duration => (none, { session with now := session.now + duration })

def run (session : Session) : List Event → List (Option (Except StoreError Reply) × Revision) × Session
  | [] => ([], session)
  | event :: rest =>
      let (answer, next) := session.step event
      let (answers, last) := next.run rest
      ((answer, next.bucket.revision) :: answers, last)

theorem run_append (session : Session) (left right : List Event) :
    session.run (left ++ right) =
      ((session.run left).1 ++ ((session.run left).2.run right).1,
        ((session.run left).2.run right).2) := by
  induction left generalizing session with
  | nil => rfl
  | cons event rest ih => simp [run, ih]

end Session

end Leasehold
