import Leasehold.Proofs.Contest.Stamp
import Leasehold.Proofs.Election.Coherence

set_option autoImplicit false

/-!
What happens in a contest within one instant.

Reports are only added to, names that are shown stay, and whoever has reported a victory shows its
name (`Contest.Since`). So news that is not yet heard is not yet out of date.
-/

namespace Leasehold

/-! ### Reports in a contest -/

def Member.Reported (member after : Member) : Prop :=
  after.candidate.candidacy = member.candidate.candidacy ∧
    ∃ extra, after.candidate.reports = member.candidate.reports ++ extra ∧
      (.won ∈ extra → after.Leads)

theorem Member.reported_of_same {member after : Member}
    (terms : after.candidate.candidacy = member.candidate.candidacy)
    (reports : after.candidate.reports = member.candidate.reports) : member.Reported after :=
  ⟨terms, [], reports.trans (List.append_nil _).symm, fun never => by cases never⟩

namespace Contest

variable {contest next : Contest} {action : Action} {id : Nat} {member : Member}

theorem reported_of_set {other : Nat} {rival after : Member}
    (found : contest.members[id]? = some member)
    (members : next.members = contest.members.set id after) (reported : member.Reported after)
    (was : contest.members[other]? = some rival) :
    ∃ later, next.members[other]? = some later ∧ rival.Reported later := by
  rw [members]
  rcases found_after_set found was after with ⟨_, rfl, changed⟩ | ⟨_, stays⟩
  · exact ⟨after, changed, reported⟩
  · exact ⟨rival, stays, Member.reported_of_same rfl rfl⟩

/-- Reports are only added to, and who has just reported a victory leads. -/
theorem Turn.reported (turn : Turn contest action next)
    (found : contest.members[id]? = some member) :
    ∃ after, next.members[id]? = some after ∧ member.Reported after := by
  cases turn with
  | joined candidacy =>
      refine ⟨member, ?_, Member.reported_of_same rfl rfl⟩
      rw [List.getElem?_append_left (List.getElem?_eq_some_iff.mp found).1]
      exact found
  | ignored | cancelled | performed | injected | passed =>
      exact ⟨member, found, Member.reported_of_same rfl rfl⟩
  | started _ _ _ was | stopped _ _ was | deafened _ _ was | called _ _ _ _ _ was
  | abandoned _ _ _ _ was | landed _ _ _ _ _ _ _ _ was =>
      exact reported_of_set was rfl (Member.reported_of_same rfl rfl) found
  | quit _ _ rival stage outcome was between moved =>
      have terminal : outcome.isTerminal = true := by
        rcases Stage.look_finish moved with ⟨rfl, _⟩ | ⟨rfl, _, _⟩ <;> rfl
      refine reported_of_set was rfl ⟨Candidate.candidacy_finish _ _, _,
        Candidate.reports_finish _ _, ?_⟩ found
      intro won
      exact absurd won (Candidate.won_not_sent_of_terminal terminal)
  | answered _ _ rival stage _ _ _ answer was =>
      exact reported_of_set was rfl ⟨Candidate.candidacy_settle _ _ _ _,
        rival.candidate.reports_settle contest.now stage answer⟩ found
  | cutOff _ _ rival stage _ _ _ was =>
      exact reported_of_set was rfl ⟨Candidate.candidacy_settle _ _ _ _,
        rival.candidate.reports_settle contest.now stage _⟩ found

theorem Turn.coherent (turn : Turn contest action next)
    (coherent : ∀ member ∈ contest.members, member.candidate.Coherent) :
    ∀ member ∈ next.members, member.candidate.Coherent := by
  have changed {id : Nat} {member after : Member} (found : contest.members[id]? = some member)
      (fits : member.candidate.Coherent → after.candidate.Coherent) :
      ∀ rival ∈ contest.members.set id after, rival.candidate.Coherent := by
    intro rival present
    rcases List.mem_or_eq_of_mem_set present with old | rfl
    · exact coherent rival old
    · exact fits (coherent member (List.mem_of_getElem? found))
  cases turn with
  | joined candidacy =>
      intro rival present
      rcases List.mem_append.mp present with old | new
      · exact coherent rival old
      · rw [List.mem_singleton.mp new]
        exact .opening candidacy
  | ignored | cancelled | performed | injected | passed => exact coherent
  | started id context member found fresh => exact changed found (fun fits => fits.start fresh)
  | stopped id member found => exact changed found (fun fits => fits.stop)
  | deafened id member found => exact changed found (fun fits => fits.deafen)
  | landed id plan member stage began flight reply bucket found =>
      exact changed found (fun fits => fits)
  | called id plan member stage following found between moved =>
      refine changed found (fun fits => ?_)
      have next := fits.move between contest.now (contest.isCancelled member.context)
      rw [show stage.look _ _ = .call following from moved] at next
      exact next
  | quit id plan member stage outcome found between moved =>
      refine changed found (fun fits => fits.finish (Candidate.stage?_of_between between) ?_)
      rcases Stage.look_finish moved with ⟨rfl, _⟩ | ⟨rfl, _, _⟩ <;> rfl
  | abandoned id plan member stage found between moved =>
      exact changed found (fun fits =>
        fits.abandon (Candidate.stage?_of_between between) (Stage.look_abandon moved))
  | answered id plan member stage began flight landedAt answer found calling =>
      exact changed found (fun fits => fits.settle (Candidate.stage?_of_calling calling) answer)
  | cutOff id plan member stage began flight limit found calling =>
      exact changed found (fun fits => fits.settle (Candidate.stage?_of_calling calling) _)

theorem coherent_of_run {terms : BucketTerms} {actions : List Action}
    (run : (opening terms).run? actions = some contest) :
    ∀ member ∈ contest.members, member.candidate.Coherent := by
  refine run_induction (motive := fun _ contest =>
    ∀ member ∈ contest.members, member.candidate.Coherent) ?_ ?_ actions contest run
  · intro member present
    cases present
  · intro _ _ _ _ _ coherent turn
    exact turn.coherent coherent

/-! ### What happens within an instant -/

/-- What holds of a later state of a contest at the same instant. Names that are shown stay, and
whoever has reported a victory in between shows its name. -/
structure Since (contest : Contest) (key : String) (after : Contest) : Prop where
  clock : after.now = contest.now
  shows : ∀ id, contest.Shows key id → after.Shows key id
  reported : ∀ (id : Nat) (member : Member), contest.members[id]? = some member →
    ∃ later extra, after.members[id]? = some later ∧
      later.candidate.candidacy = member.candidate.candidacy ∧
      later.candidate.reports = member.candidate.reports ++ extra ∧
      (.won ∈ extra → member.key = key → after.Shows key id)

theorem Since.refl (contest : Contest) (key : String) : contest.Since key contest where
  clock := rfl
  shows := fun _ shown => shown
  reported := fun _ member found =>
    ⟨member, [], found, rfl, (List.append_nil _).symm, fun never => by cases never⟩

variable {key : String} {bound : Nat}

theorem Since.trans {middle after : Contest} (first : contest.Since key middle)
    (second : middle.Since key after) : contest.Since key after where
  clock := second.clock.trans first.clock
  shows := fun id shown => second.shows id (first.shows id shown)
  reported := by
    intro id member found
    obtain ⟨between, one, foundBetween, terms, reports, won⟩ := first.reported id member found
    obtain ⟨later, two, foundLater, termsLater, reportsLater, wonLater⟩ :=
      second.reported id between foundBetween
    refine ⟨later, one ++ two, foundLater, termsLater.trans terms, ?_, ?_⟩
    · rw [reportsLater, reports, List.append_assoc]
    · intro victory named
      rcases List.mem_append.mp victory with early | late
      · exact second.shows id (won early named)
      · exact wonLater late ((congrArg Candidacy.key terms).trans named)

theorem Turn.stands (turn : Turn contest action next) (going : ∀ instant, action ≠ .passTo instant) :
    next.now = contest.now := by
  cases turn with
  | passed instant => exact absurd rfl (going instant)
  | _ => rfl

theorem Paced.before_run {actions : List Action} {after : Contest}
    (run : contest.run? actions = some after) (paced : after.Paced key bound) :
    contest.Paced key bound := by
  refine Runs.induct (motive := fun _ after => after.Paced key bound → contest.Paced key bound)
    id ?_ actions run paced
  intro _ _ _ _ _ ih acted paced
  exact ih (paced.before (turn_of_act? acted))

/-- A contest that has been left to itself, as far as a key is concerned. -/
def Spared (terms : BucketTerms) (key : String) (contest : Contest) : Prop :=
  ∃ actions, (opening terms).run? actions = some contest ∧ ∀ action ∈ actions, action.Spares key

namespace Spared

variable {terms : BucketTerms}

theorem tenure (spared : Spared terms key contest) (paced : contest.Paced key bound) :
    contest.Tenure key bound := by
  obtain ⟨actions, run, gentle⟩ := spared
  exact tenure_of_run actions contest run (fun deleted => (gentle _ deleted).1 rfl) paced

theorem stamped (spared : Spared terms key contest) (paced : contest.Paced key bound) :
    contest.Stamped key := by
  obtain ⟨actions, run, gentle⟩ := spared
  exact stamped_of_run run gentle paced

theorem coherent (spared : Spared terms key contest) :
    ∀ member ∈ contest.members, member.candidate.Coherent := by
  obtain ⟨actions, run, _⟩ := spared
  exact coherent_of_run run

theorem run (spared : Spared terms key contest) {actions : List Action} {after : Contest}
    (run : contest.run? actions = some after) (gentle : ∀ action ∈ actions, action.Spares key) :
    Spared terms key after := by
  obtain ⟨earlier, ran, before⟩ := spared
  refine ⟨earlier ++ actions, run?_append ran run, ?_⟩
  intro action present
  rcases List.mem_append.mp present with old | new
  · exact before action old
  · exact gentle action new

theorem act (spared : Spared terms key contest) (gentle : action.Spares key)
    (acted : contest.act? action = some next) : Spared terms key next := by
  have single : contest.run? [action] = some next := by
    rw [run?, List.foldlM_cons, acted]
    rfl
  apply spared.run single
  intro other present
  rw [List.mem_singleton.mp present]
  exact gentle

theorem shows (spared : Spared terms key contest) (paced : contest.Paced key bound)
    (found : contest.members[id]? = some member) (named : member.key = key)
    (leads : member.Leads) : contest.Shows key id :=
  shows_of_holds (spared.tenure paced) paced (spared.stamped paced) found named leads.holds

theorem since_act (spared : Spared terms key contest) (gentle : action.Spares key)
    (going : ∀ instant, action ≠ .passTo instant) (acted : contest.act? action = some next)
    (paced : next.Paced key bound) : contest.Since key next := by
  have turn := turn_of_act? acted
  have pacedBefore := paced.before turn
  refine ⟨turn.stands going, ?_, ?_⟩
  · intro id shown
    exact turn.shows (spared.stamped pacedBefore) gentle (turn.stands going) shown
  · intro id member found
    obtain ⟨after, foundAfter, same, extra, reports, won⟩ := turn.reported found
    refine ⟨after, extra, foundAfter, same, reports, ?_⟩
    intro victory named
    exact (spared.act gentle acted).shows paced foundAfter
      ((congrArg Candidacy.key same).trans named) (won victory)

theorem since_run (spared : Spared terms key contest) {actions : List Action} {after : Contest}
    (run : contest.run? actions = some after)
    (gentle : ∀ action ∈ actions, action.Spares key ∧ ∀ instant, action ≠ .passTo instant)
    (paced : after.Paced key bound) : contest.Since key after := by
  refine Runs.induct (motive := fun actions after =>
    (∀ action ∈ actions, action.Spares key ∧ ∀ instant, action ≠ .passTo instant) →
      after.Paced key bound → contest.Since key after) ?_ ?_ actions run gentle paced
  · intro _ _
    exact .refl contest key
  · intro actions middle action after ran ih acted gentle paced
    have earlier (other : Action) (present : other ∈ actions) :=
      gentle other (List.mem_append_left _ present)
    obtain ⟨gentleLast, going⟩ := gentle action (List.mem_append_right _ List.mem_cons_self)
    have sparedThen := spared.run ran (fun other present => (earlier other present).1)
    exact (ih earlier (paced.before (turn_of_act? acted))).trans
      (sparedThen.since_act gentleLast going acted paced)

end Spared

end Contest

end Leasehold
