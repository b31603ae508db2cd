import Leasehold.Proofs.Contest.Ghost
import Leasehold.Proofs.Scaling.Elections

set_option autoImplicit false

/-!
The limit on calls, for the elections of a fleet.

A replica that stands again after a call was cut off is a newcomer like any other. The lease that the
call may have left behind bears the name of the election that is over, and the replica is refused under
its new one until that lease lapses.
-/

namespace Leasehold

namespace Fleet

structure Limited (terms : BucketTerms) (first : Fleet) (id : Nat) (member : Member) (stage : Stage)
    (plan : Plan) (limitMs : Nat) (actions : List FleetAction) (last : Fleet) (later : Member) :
    Prop where
  passage : ∃ elections, first.contest.run? elections = some last.contest ∧
    first.contest.chronicle elections = first.chronicle actions ∧
    first.contest.Passage id member stage plan limitMs elections last.contest later
  /-- What a call writes that is then cut off nobody renews. -/
  ghost : ∀ done other rest fleet next deed,
    actions = done ++ .among (.proceed id other) :: rest → first.run? done = some fleet →
    fleet.act? (.among (.proceed id other)) = some next →
    fleet.contest.deed? (.proceed id other) = some deed →
    Duration.ofMillis limitMs < plan.before + plan.after →
    fleet.contest.bucket.revision.toNat < Revision.last →
    Deed.LeftAlone member.key (deed.instant + terms.ttl) (next.chronicle rest) →
    deed.instant = first.contest.now + plan.before ∧
      last.contest.Lingers member.key ⟨member.stamp, deed.revision, deed.instant⟩
        (deed.instant + terms.ttl) (next.chronicle rest)

variable {terms : BucketTerms} {first last : Fleet} {actions : List FleetAction} {id limitMs : Nat}
  {member : Member} {stage : Stage} {plan : Plan}

/-- Whatever the fleet does meanwhile, a call that takes no longer than the limit is answered with what
the bucket said, and any other call is cut off at the limit and is the last one of its election. A
lease that it has written all the same is there until it lapses, unless a third party deletes or
updates it, and nobody creates the key before. -/
theorem limited_of_run (began : Reachable terms first)
    (found : first.contest.members[id]? = some member)
    (calling : member.candidate.task = .calling stage first.contest.now)
    (flying : member.flight = some { plan })
    (limited : member.candidate.candidacy.callLimitMs = some limitMs)
    (run : first.run? actions = some last) :
    ∃ later, last.contest.members[id]? = some later ∧
      first.Limited terms id member stage plan limitMs actions last later := by
  obtain ⟨earlier, opened⟩ := began
  obtain ⟨nominations, nominated, _⟩ := elections_of_run opened
  have reached : Contest.Reachable terms first.contest := ⟨nominations, nominated⟩
  obtain ⟨elections, onward, history, _⟩ := elections_of_run run
  obtain ⟨later, there, _, passage⟩ :=
    Contest.passage_of_run found calling flying limited onward
  refine ⟨later, there, ⟨elections, onward, history, passage⟩, ?_⟩
  rintro done other rest fleet next deed rfl ran acted does late room alone
  obtain ⟨same, actedToo, since⟩ := acted_of_run run ran
  obtain rfl := Option.some.inj (acted.symm.trans actedToo)
  obtain ⟨contest, _, happened, rfl⟩ := among_of_act? acted
  obtain ⟨before, ranBefore, _⟩ := elections_of_run ran
  obtain ⟨after, ranAfter, deeds, _⟩ := elections_of_run since
  rw [← deeds] at alone ⊢
  exact Contest.lingers_of_late reached found calling flying limited late ranBefore happened does room
    ranAfter alone

/-- A replica that waits for a tenth of a second and then tries again soon. -/
def hasty : Assignment :=
  .of "f"
    { key := "", candidate := ⟨""⟩, renewEveryMs := 1500, pollEveryMs := 1000,
      callLimitMs := some 100 }
    { retryDelayMs := 50 } "c"

def slowAnswer : Plan := { before := 10_000_000, after := 200_000_000 }

def begun : List FleetAction :=
  [.add hasty, .proceed 0 .join ⟨"x"⟩ 0, .among (.proceed 0 slowAnswer)]

def caller : Member where
  candidate :=
    { candidacy := { hasty.candidacy with candidate := ⟨"x"⟩ }
      task := .calling .electing 0
      listening := true }
  context := "c"
  flight := some { plan := slowAnswer }

def afterBegun : Fleet where
  contest := { bucket := { terms := ⟨"b", 2_000_000_000⟩ }, members := [caller] }
  replicas := [⟨hasty, .watching ⟨0, 0, false, false, ⟨0, 1_000_000_000⟩⟩⟩]

def beforeWrite : Fleet :=
  { afterBegun with contest := { afterBegun.contest with now := 10_000_000 } }

def afterWrite : Fleet where
  contest :=
    { bucket :=
        { terms := ⟨"b", 2_000_000_000⟩
          records := [("f-leader", ⟨Text.encode "x", ⟨1⟩, 10_000_000⟩)]
          revision := ⟨1⟩ }
      now := 10_000_000
      members :=
        [{ caller with
            flight := some
              ⟨slowAnswer, some (10_000_000, .ok ⟨"f-leader", Text.encode "x", ⟨1⟩⟩)⟩ }] }
  replicas := afterBegun.replicas

/-- The create is cut off. The replica stands again and finds the key taken, by itself. -/
def again : List FleetAction :=
  [.passTo 100_000_000, .among (.proceed 0 {}), .proceed 0 .hear ⟨""⟩ 0, .passTo 150_000_000,
    .proceed 0 .rejoin ⟨""⟩ 0, .proceed 0 .join ⟨"y"⟩ 0, .among (.proceed 1 {}),
    .among (.proceed 1 {}), .among (.proceed 1 {}), .proceed 0 .hear ⟨""⟩ 0]

def afterAgain : Fleet where
  contest :=
    { bucket := afterWrite.contest.bucket
      now := 150_000_000
      members :=
        [{ candidate :=
            { candidacy := { hasty.candidacy with candidate := ⟨"x"⟩ }
              task := .ended
              stopRequested := true
              reports := [.error (.timeout 100)] }
           context := "c" },
          { candidate :=
            { candidacy := { hasty.candidacy with candidate := ⟨"y"⟩ }
              task := .between (.following ⟨1_150_000_000, 1_000_000_000⟩)
              listening := true
              reports := [.lost] }
            context := "c" }]
      calls :=
        [⟨1, .create, 150_000_000, 150_000_000,
            some (150_000_000, .error (.keyExists "f-leader")), false⟩,
          ⟨0, .create, 0, 100_000_000,
            some (10_000_000, .ok ⟨"f-leader", Text.encode "x", ⟨1⟩⟩), true⟩] }
  replicas := [⟨hasty, .watching ⟨1, 1, false, false, ⟨150_000_000, 1_000_000_000⟩⟩⟩]

theorem run_begun : (opening ⟨"b", 2_000_000_000⟩).run? begun = some afterBegun := rfl

def late : List FleetAction := .passTo 10_000_000 :: .among (.proceed 0 {}) :: again

theorem run_late : afterBegun.run? late = some afterAgain := rfl

/-- Until two seconds after the write the second name has no chance. -/
theorem limited_afterAgain :
    Reachable ⟨"b", 2_000_000_000⟩ afterBegun ∧ afterBegun.run? late = some afterAgain ∧
      ∃ later, afterAgain.contest.members[0]? = some later ∧
        afterBegun.Limited ⟨"b", 2_000_000_000⟩ 0 caller .electing slowAnswer 100 late afterAgain
          later ∧
        afterAgain.contest.Lingers "f-leader" ⟨Text.encode "x", ⟨1⟩, 10_000_000⟩ 2_010_000_000 [] := by
  have reached : Reachable ⟨"b", 2_000_000_000⟩ afterBegun := ⟨begun, run_begun⟩
  have found : afterBegun.contest.members[0]? = some caller := rfl
  have passed : afterBegun.run? [.passTo 10_000_000] = some beforeWrite := rfl
  have wrote : beforeWrite.act? (.among (.proceed 0 {})) = some afterWrite := rfl
  have alone : Deed.LeftAlone "f-leader" 2_010_000_000 (afterWrite.chronicle again) := by
    have silent : afterWrite.chronicle again = [] := rfl
    rw [silent]
    intro deed never
    cases never
  obtain ⟨later, there, limited⟩ := limited_of_run reached found rfl rfl rfl run_late
  obtain ⟨_, lingers⟩ := limited.ghost [.passTo 10_000_000] {} again beforeWrite afterWrite
    ⟨some 0, .created, "f-leader", ⟨1⟩, 10_000_000⟩ rfl passed wrote rfl (by decide) (by decide) alone
  exact ⟨reached, run_late, later, there, limited, lingers⟩

end Fleet

end Leasehold
