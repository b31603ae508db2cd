import Leasehold.Proofs.Scaling.Excerpt

set_option autoImplicit false

/-!
Keys of one bucket do not influence each other.

All keys share the counter of the bucket, so no state of a run is ever the same without the other keys.
But it is the same up to new numbers for the revisions of the key (`Deed.renumber`): without the other
keys, each state of the run is the excerpt of what it was.
-/

namespace Leasehold

namespace Fleet

def excerpted (first : Fleet) (rename : Revision → Revision) (key : String)
    (actions : List FleetAction) : List FleetAction :=
  Runs.collect act? (fun fleet action => fleet.excerptOf rename key action) first actions

/-- What results on a key have told so far, those of third parties and those of elections. -/
inductive Shown (terms : BucketTerms) (key : String) (done : List FleetAction) : Revision → Prop
  | answered (before rest : List FleetAction) (operation : Operation) (fleet : Fleet)
      (revision : Revision) (split : done = before ++ .among (.perform operation) :: rest)
      (ran : (opening terms).run? before = some fleet) (here : operation.key = key)
      (tells : Tells (fleet.contest.perform operation).1 revision) : Shown terms key done revision
  | called (fleet : Fleet) (record : CallRecord) (member : Member) (revision : Revision)
      (ran : (opening terms).run? done = some fleet) (past : record ∈ fleet.contest.calls)
      (found : fleet.contest.members[record.member]? = some member) (named : member.key = key)
      (lands : Lands record.landed revision) : Shown terms key done revision

/-- Third parties update a key only under revisions that earlier results on the key have told. -/
def Told (terms : BucketTerms) (key : String) (actions : List FleetAction) : Prop :=
  ∀ done rest value expected,
    actions = done ++ .among (.perform (.update key value expected)) :: rest →
      Shown terms key done expected

variable {fleet next last : Fleet} {action : FleetAction} {actions done rest : List FleetAction}
  {terms : BucketTerms} {key function : String} {rename : Revision → Revision}

theorem excerpted_concat (ran : (opening terms).run? done = some fleet) (action : FleetAction) :
    (opening terms).excerpted rename key (done ++ [action]) =
      (opening terms).excerpted rename key done ++ fleet.excerptOf rename key action :=
  Runs.collect_concat ran action

theorem run?_append {first middle : Fleet} (ran : first.run? done = some middle)
    (goesOn : middle.run? rest = some last) : first.run? (done ++ rest) = some last := by
  rw [run?, List.foldlM_append, ← run?, ran]
  exact goesOn

theorem fleetSeated_of_run (run : (opening terms).run? actions = some fleet) : fleet.Seated := by
  refine Runs.induct (motive := fun _ fleet => fleet.Seated) ?_ ?_ actions run
  · constructor
    · intro record never
      cases never
    · intro id never
      cases never
  · intro _ _ _ _ _ seated acted
    exact (shift_of_act? acted).seated seated

theorem excerpt_opening (run : (opening terms).run? actions = some fleet)
    (room : fleet.contest.bucket.revision.toNat < Revision.last) :
    (opening terms).excerpt (Deed.renumber ((opening terms).chronicle actions) key) key =
      opening terms := by
  have countable := @countable_of_run _ _ _ key run room
  have none := @Deed.toNat_renumber_between [] ((opening terms).chronicle actions) key {} countable
    (fun _ never => by cases never) (newer_of_run run room)
  have zero : Deed.renumber ((opening terms).chronicle actions) key {} = {} :=
    Revision.toNat_inj.mp none
  exact congrArg (fun revision => ({ contest := { bucket := { terms, revision } } } : Fleet)) zero

/-- Results on a key only tell what the key has been written under. -/
theorem given_of_shown {revision : Revision} (run : (opening terms).run? done = some fleet)
    (room : fleet.contest.bucket.revision.toNat < Revision.last) (faultless : Faultless done)
    (shown : Shown terms key done revision) :
    Deed.Given ((opening terms).chronicle done) key revision := by
  cases shown with
  | answered before rest operation earlier _ split ran here tells =>
      subst split
      obtain ⟨next, acted, _⟩ := acted_of_run run ran
      have calm := calm_of_run ran faultless.before
      have annals := annals_of_run ran (room_of_run (onward_of_run run ran) room)
      have performed := earlier.contest.bucket.performed earlier.contest.now operation
      rw [chronicle_append ran, chronicle_cons acted, ← List.append_assoc, ← here]
      exact (annals.given_of_tells calm.injected performed tells).before
  | called reached record member _ ran past found named lands =>
      obtain rfl := Option.some.inj (run.symm.trans ran)
      obtain ⟨same, there, given⟩ := (learned_of_run run room faultless).recorded record past
      obtain rfl := Option.some.inj (found.symm.trans there)
      exact named ▸ given revision lands

theorem fits_of_split {other : Action} (run : (opening terms).run? actions = some last)
    (room : last.contest.bucket.revision.toNat < Revision.last) (faultless : Faultless actions)
    (told : Told terms key actions) (split : actions = done ++ action :: rest)
    (ran : (opening terms).run? done = some fleet) (among : action.among? = some other) :
    fleet.contest.Fits (Deed.renumber ((opening terms).chronicle actions) key) key other := by
  have heeded : ∀ value expected, other = .perform (.update key value expected) →
      Deed.Given ((opening terms).chronicle done) key expected := by
    intro value expected same
    have roomNow := room_of_run (onward_of_run (split ▸ run) ran) room
    refine given_of_shown ran roomNow (split ▸ faultless).before (told done rest value expected ?_)
    rw [split]
    cases action with
    | among action =>
        cases among
        rw [same]
    | _ => cases among
  rw [split]
  exact fits_of_run (split ▸ run) room ran among heeded

/-- Without what concerns other keys, each state of a run is the excerpt of what it was. -/
theorem excerpt_of_run (run : (opening terms).run? actions = some last)
    (room : last.contest.bucket.revision.toNat < Revision.last) (faultless : Faultless actions)
    (told : Told terms key actions) (split : actions = done ++ rest)
    (ran : (opening terms).run? done = some fleet) :
    (opening terms).run? ((opening terms).excerpted
        (Deed.renumber ((opening terms).chronicle actions) key) key done) =
      some (fleet.excerpt (Deed.renumber ((opening terms).chronicle actions) key) key) := by
  refine Runs.induct (motive := fun done fleet => ∀ rest, actions = done ++ rest →
    (opening terms).run? ((opening terms).excerpted
        (Deed.renumber ((opening terms).chronicle actions) key) key done) =
      some (fleet.excerpt (Deed.renumber ((opening terms).chronicle actions) key) key)) ?_ ?_ done
    ran rest split
  · intro rest _
    rw [excerpt_opening run room]
    rfl
  · intro done fleet action next ran ih acted rest split
    rw [List.append_assoc, List.singleton_append] at split
    rw [excerpted_concat ran]
    refine run?_append (ih (action :: rest) split) ?_
    apply run?_excerptOf acted
    · exact calm_of_run ran (split ▸ faultless).before
    · exact fun other among => fits_of_split run room faultless told split ran among
    · exact seated_of_run ran
    · exact fleetSeated_of_run ran
    · exact aware_of_run ran

/-- A key is isolated in a run when the run without everything that concerns other keys goes just as
before, up to new numbers for the revisions of the key. -/
structure Isolated (terms : BucketTerms) (actions : List FleetAction) (key : String)
    (rename : Revision → Revision) : Prop where
  /-- The new numbers go up as the old ones did. -/
  rising : ∀ earlier later, Deed.Given ((opening terms).chronicle actions) key later →
    earlier.toNat < later.toNat → (rename earlier).toNat < (rename later).toNat
  /-- They are for all revisions that results on the key tell. -/
  shown : ∀ done rest fleet revision, actions = done ++ rest →
    (opening terms).run? done = some fleet → Shown terms key done revision →
    Deed.Given ((opening terms).chronicle done) key revision
  /-- At each point, elections for the key have reported the same and made the same calls with the
  same results, each at the same instant, and their replicas have done the same. -/
  mirrored : ∀ done rest fleet, actions = done ++ rest → (opening terms).run? done = some fleet →
    (opening terms).run? ((opening terms).excerpted rename key done) = some (fleet.excerpt rename key)
  answered : ∀ done rest operation fleet, actions = done ++ .among (.perform operation) :: rest →
    (opening terms).run? done = some fleet → operation.key = key →
    ((fleet.excerpt rename key).contest.perform (operation.renamed rename)).1 =
      renamedAnswer rename (Reply.renamed rename) (fleet.contest.perform operation).1
  /-- Functions do not share keys, so the replicas for the leader key of a function are its own. -/
  replicas : ∀ function, key = leaderKey function →
    (∀ assignment, .add assignment ∈ actions → assignment.Proper) →
    ∀ done rest fleet, actions = done ++ rest → (opening terms).run? done = some fleet →
    ∀ replica ∈ fleet.replicas, replica.key = key ↔ replica.assignment.function = function

/-- The leader keys of two functions are different. -/
theorem leaderKey_injective {other : String} (same : leaderKey function = leaderKey other) :
    function = other :=
  (String.append_left_inj "-leader").mp same

theorem key_eq_iff_of_proper {replica : Replica} (proper : replica.assignment.Proper) :
    replica.key = leaderKey function ↔ replica.assignment.function = function := by
  constructor
  · intro same
    exact leaderKey_injective (proper.symm.trans same)
  · intro same
    exact proper.trans (congrArg leaderKey same)

theorem isolated_of_run (run : (opening terms).run? actions = some fleet)
    (room : fleet.contest.bucket.revision.toNat < Revision.last) (faultless : Faultless actions)
    (told : Told terms key actions) : ∃ rename, Isolated terms actions key rename := by
  refine ⟨Deed.renumber ((opening terms).chronicle actions) key, ?_, ?_, ?_, ?_, ?_⟩
  · intro earlier later given less
    exact Deed.renumber_lt (countable_of_run run room) given less
  · intro done rest reached revision split ran
    have roomNow := room_of_run (onward_of_run (split ▸ run) ran) room
    exact given_of_shown ran roomNow (split ▸ faultless).before
  · intro done rest reached split ran
    exact excerpt_of_run run room faultless told split ran
  · intro done rest operation reached split ran here
    have fits := fits_of_split run room faultless told split ran rfl
    have calm := calm_of_run ran (split ▸ faultless).before
    exact congrArg Prod.fst (Contest.perform_excerpt here calm fits)
  · rintro function rfl proper done rest reached split ran replica present
    apply key_eq_iff_of_proper
    refine proper_of_added ran (fun assignment added => ?_) replica present
    exact proper assignment (split ▸ List.mem_append_left _ added)

def pair : Settings := { scaler := { functions := ["f", "g"] } }

def joinedPair : List FleetAction :=
  [.spawn pair "c", .proceed 1 .join ⟨"y"⟩ 0, .proceed 0 .join ⟨"x"⟩ 0,
    .among (.proceed 0 {}), .among (.proceed 0 {}), .among (.proceed 0 {}),
    .among (.proceed 1 {}), .among (.proceed 1 {}), .among (.proceed 1 {}),
    .proceed 0 .hear ⟨""⟩ 0, .proceed 0 .reconcile ⟨""⟩ 0, .proceed 1 .hear ⟨""⟩ 0]

def rivals : List FleetAction :=
  [.among (.perform (.create "other" [])), .among (.perform (.create "f-leader" []))] ++
    .among (.perform (.update "f-leader" [1] ⟨2⟩)) ::
      .among (.perform (.delete "f-leader")) :: joinedPair

def afterRivals : Fleet where
  contest :=
    { bucket :=
        { terms := ⟨"b", 2_000_000_000⟩
          records := [("f-leader", ⟨Text.encode "x", ⟨5⟩, 0⟩), ("g-leader", ⟨Text.encode "y", ⟨4⟩, 0⟩),
            ("other", ⟨[], ⟨1⟩, 0⟩)]
          revision := ⟨5⟩ }
      members :=
        [{ candidate :=
            { candidacy := { (assignmentFor pair "c" "g").candidacy with candidate := ⟨"y"⟩ }
              task := .between (.leading ⟨4⟩ ⟨1_500_000_000, 1_500_000_000⟩)
              listening := true
              reports := [.won] }
           context := "c" },
          { candidate :=
            { candidacy := { (assignmentFor pair "c" "f").candidacy with candidate := ⟨"x"⟩ }
              task := .between (.leading ⟨5⟩ ⟨1_500_000_000, 1_500_000_000⟩)
              listening := true
              reports := [.won] }
            context := "c" }]
      calls :=
        [⟨1, .create, 0, 0, some (0, .ok ⟨"f-leader", Text.encode "x", ⟨5⟩⟩), false⟩,
          ⟨0, .create, 0, 0, some (0, .ok ⟨"g-leader", Text.encode "y", ⟨4⟩⟩), false⟩] }
  replicas :=
    [⟨assignmentFor pair "c" "f", .reconciling ⟨1, 1, true, false, ⟨1_000_000_000, 1_000_000_000⟩⟩ 0⟩,
      ⟨assignmentFor pair "c" "g", .watching ⟨0, 1, true, false, ⟨0, 1_000_000_000⟩⟩⟩]
  reconciles := [⟨0, 0⟩]

theorem run_rivals : (opening ⟨"b", 2_000_000_000⟩).run? rivals = some afterRivals := by
  rfl

theorem faultless_rivals : Faultless rivals := Contest.faultless_of_plain rfl

theorem told_rivals : Told ⟨"b", 2_000_000_000⟩ "f-leader" rivals := by
  intro done rest value expected split
  match done with
  | [] => cases split
  | [_] => cases split
  | [first, second] =>
      cases split
      have created : Tells (.ok (.written ⟨2⟩)) ⟨2⟩ := .written ⟨2⟩
      exact .answered [.among (.perform (.create "other" []))] [] (.create "f-leader" []) _ _ rfl rfl
        rfl created
  | _ :: _ :: _ :: later =>
      simp only [rivals, List.cons_append, List.nil_append, List.cons.injEq] at split
      have present : .among (.perform (.update "f-leader" value expected)) ∈
          .among (.perform (.delete "f-leader")) :: joinedPair := by
        rw [split.2.2.2]
        exact List.mem_append_right _ List.mem_cons_self
      simp [joinedPair] at present

theorem isolated_afterRivals :
    (opening ⟨"b", 2_000_000_000⟩).run? rivals = some afterRivals ∧
      afterRivals.contest.bucket.revision.toNat < Revision.last ∧ Faultless rivals ∧
      Told ⟨"b", 2_000_000_000⟩ "f-leader" rivals ∧
      ∃ rename, Isolated ⟨"b", 2_000_000_000⟩ rivals "f-leader" rename :=
  have room : afterRivals.contest.bucket.revision.toNat < Revision.last := by decide
  ⟨run_rivals, room, faultless_rivals, told_rivals,
    isolated_of_run run_rivals room faultless_rivals told_rivals⟩

end Fleet

end Leasehold
