import Leasehold.Proofs.Contest.Turn
import Leasehold.Proofs.Election.Coherence

set_option autoImplicit false

/-!
What a turn of a contest is to one of its members.

A turn changes one member at most. `Contest.MemberStep` lists what that can be for a given member, so that
invariants of one member need no look at the others. The second part is about a member whose calls
are neither delayed nor struck by a failure: it is never in the middle of a call while time passes.
-/

namespace Leasehold

namespace Contest

/-! ### What a turn does to a member -/

inductive MemberStep (contest : Contest) (id : Nat) (member : Member) :
    Action → Contest → Member → Prop
  /-- The member goes on with what it was about. -/
  | kept (action : Action) (next : Contest) (after : Member)
      (elsewhere : ∀ plan, action ≠ .proceed id plan)
      (task : after.candidate.task = member.candidate.task)
      (terms : after.candidate.candidacy = member.candidate.candidacy)
      (reports : after.candidate.reports = member.candidate.reports)
      (flight : after.flight = member.flight) (clock : next.now = contest.now)
      (calls : next.calls.filter (·.member = id) = contest.calls.filter (·.member = id)) :
      MemberStep contest id member action next after
  | started (context : String) (fresh : member.candidate.task = .unstarted) :
      MemberStep contest id member (.start id context)
        (contest.put id { member with candidate := member.candidate.start, context })
        { member with candidate := member.candidate.start, context }
  | called (plan : Plan) (stage following : Stage)
      (between : member.candidate.task = .between stage)
      (moved : contest.moveOf member stage = .call following) :
      MemberStep contest id member (.proceed id plan)
        (contest.put id { member with
          candidate := { member.candidate with task := .calling following contest.now }
          flight := some { plan } })
        { member with
          candidate := { member.candidate with task := .calling following contest.now }
          flight := some { plan } }
  /-- The member stops, is cancelled or is not heard any more. -/
  | left (plan : Plan) (after : Member) (extra : List Outcome) (stage : Stage)
      (between : member.candidate.task = .between stage) (ended : after.candidate.task = .ended)
      (grounded : after.flight = none)
      (terms : after.candidate.candidacy = member.candidate.candidacy)
      (reports : after.candidate.reports = member.candidate.reports ++ extra)
      (terminal : ∀ outcome ∈ extra, outcome.isTerminal = true) :
      MemberStep contest id member (.proceed id plan) (contest.put id after) after
  | landed (plan : Plan) (stage : Stage) (began : Nat) (flight : Flight)
      (reply : Except StoreError Reply) (bucket : Bucket)
      (found : contest.members[id]? = some member)
      (calling : member.candidate.task = .calling stage began)
      (flying : member.flight = some flight) (aloft : flight.landed = none)
      (arrived : Member.progressAt began flight ≤ contest.now)
      (performed : (contest.bucket.struckBy flight.plan.fault).Performed contest.now
        (stage.call.operation member.candidate.candidacy) reply bucket) :
      MemberStep contest id member (.proceed id plan)
        { contest.put id { member with
            flight := some { flight with
              landed := some (contest.now, reply.map member.candidate.candidacy.seen) } }
          with bucket }
        { member with
          flight := some { flight with
            landed := some (contest.now, reply.map member.candidate.candidacy.seen) } }
  | answered (plan : Plan) (stage : Stage) (began : Nat) (flight : Flight) (landedAt : Nat)
      (answer : Except StoreError Entry) (calling : member.candidate.task = .calling stage began)
      (flying : member.flight = some flight) (landed : flight.landed = some (landedAt, answer)) :
      MemberStep contest id member (.proceed id plan)
        { contest.put id { member with
            candidate := member.candidate.settle contest.now stage answer
            flight := none }
          with calls := ⟨id, stage.call, began, contest.now, some (landedAt, answer), false⟩ ::
            contest.calls }
        { member with
          candidate := member.candidate.settle contest.now stage answer
          flight := none }
  | cutOff (plan : Plan) (stage : Stage) (began : Nat) (flight : Flight) (cause : StoreError)
      (calling : member.candidate.task = .calling stage began)
      (flying : member.flight = some flight)
      (underWay : contest.now < Member.progressAt began flight) :
      MemberStep contest id member (.proceed id plan)
        { contest.put id { member with
            candidate := member.candidate.finish (.error cause)
            flight := none }
          with calls := ⟨id, stage.call, began, contest.now, flight.landed, true⟩ ::
            contest.calls }
        { member with candidate := member.candidate.finish (.error cause), flight := none }
  | passed (instant : Nat) (quiet : contest.quiet = true) (later : contest.now ≤ instant)
      (awake : contest.wakeAt?.all (instant ≤ ·) = true)
      (found : contest.members[id]? = some member) :
      MemberStep contest id member (.passTo instant) { contest with now := instant } member

variable {contest next : Contest} {action : Action} {id : Nat} {member after : Member}

/-- Members stay where they are, and each turn has something to say about each of them. -/
theorem Turn.memberStep (turn : Turn contest action next) (found : contest.members[id]? = some member) :
    ∃ after, next.members[id]? = some after ∧ MemberStep contest id member action next after := by
  have aside (elsewhere : ∀ plan, action ≠ .proceed id plan) (stays : next.members[id]? = some member)
      (clock : next.now = contest.now)
      (calls : next.calls.filter (·.member = id) = contest.calls.filter (·.member = id)) :
      ∃ after, next.members[id]? = some after ∧ MemberStep contest id member action next after :=
    ⟨member, stays, .kept action next member elsewhere rfl rfl rfl rfl clock calls⟩
  -- A turn of a member changes that member in its own way and nothing of all others.
  have apart {other : Nat} {rival changed : Member} (was : contest.members[other]? = some rival)
      (members : next.members = contest.members.set other changed)
      (clock : next.now = contest.now)
      (calls : id ≠ other →
        next.calls.filter (·.member = id) = contest.calls.filter (·.member = id))
      (elsewhere : id ≠ other → ∀ plan, action ≠ .proceed id plan)
      (own : id = other → member = rival → MemberStep contest id member action next changed) :
      ∃ after, next.members[id]? = some after ∧ MemberStep contest id member action next after := by
    rcases found_after_set was found changed with ⟨same, itself, there⟩ | ⟨distinct, stays⟩
    · exact ⟨changed, members ▸ there, own same itself⟩
    · exact aside (elsewhere distinct) (members ▸ stays) clock (calls distinct)
  have proceeding {other : Nat} {plan : Plan} (distinct : id ≠ other) (own : Plan) :
      Action.proceed other plan ≠ .proceed id own := by
    intro same
    exact distinct (Action.proceed.inj same).1.symm
  cases turn with
  | joined candidacy =>
      refine aside (fun _ => Action.noConfusion) ?_ rfl rfl
      rw [List.getElem?_append_left (List.getElem?_eq_some_iff.mp found).1]
      exact found
  | cancelled | performed | injected =>
      exact aside (fun _ => Action.noConfusion) found rfl rfl
  | ignored other action asks =>
      refine aside ?_ found rfl rfl
      cases asks <;> exact fun _ => Action.noConfusion
  | started other context rival was fresh =>
      refine apart was rfl rfl (fun _ => rfl) (fun _ _ => Action.noConfusion) ?_
      rintro rfl rfl
      exact .started context fresh
  | stopped other rival was | deafened other rival was =>
      refine apart was rfl rfl (fun _ => rfl) (fun _ _ => Action.noConfusion) ?_
      rintro rfl rfl
      exact .kept _ _ _ (fun _ => Action.noConfusion) rfl rfl rfl rfl rfl rfl
  | called other plan rival stage following was between moved =>
      refine apart was rfl rfl (fun _ => rfl) proceeding ?_
      rintro rfl rfl
      exact .called plan stage following between moved
  | quit other plan rival stage outcome was between moved =>
      refine apart was rfl rfl (fun _ => rfl) proceeding ?_
      rintro rfl rfl
      refine .left plan _ _ stage between rfl rfl (Candidate.candidacy_finish _ _)
        (Candidate.reports_finish _ _) ?_
      intro ending sent
      split at sent
      · rw [List.mem_singleton.mp sent]
        rcases Stage.look_finish moved with ⟨rfl, _⟩ | ⟨rfl, _, _⟩ <;> rfl
      · cases sent
  | abandoned other plan rival stage was between moved =>
      refine apart was rfl rfl (fun _ => rfl) proceeding ?_
      rintro rfl rfl
      exact .left plan _ [] stage between rfl rfl rfl (List.append_nil _).symm
        (fun _ never => by cases never)
  | landed other plan rival stage began flight reply bucket was calling flying aloft arrived
      performed =>
      refine apart was rfl rfl (fun _ => rfl) proceeding ?_
      rintro rfl rfl
      exact .landed plan stage began flight reply bucket was calling flying aloft arrived performed
  | answered other plan rival stage began flight landedAt answer was calling flying landed =>
      refine apart was rfl rfl (fun distinct => filter_calls_of_ne rfl distinct) proceeding ?_
      rintro rfl rfl
      exact .answered plan stage began flight landedAt answer calling flying landed
  | cutOff other plan rival stage began flight limit was calling flying underWay =>
      refine apart was rfl rfl (fun distinct => filter_calls_of_ne rfl distinct) proceeding ?_
      rintro rfl rfl
      simp only [Candidate.settle_timeout]
      exact .cutOff plan stage began flight _ calling flying underWay
  | passed instant quiet later awake =>
      exact ⟨member, found, .passed instant quiet later awake found⟩

/-- Whoever is there after a turn has just joined or was there before it. -/
theorem Turn.member_cases (turn : Turn contest action next)
    (found : next.members[id]? = some after) :
    (∃ candidacy, (contest.members[id]? = none ∧ candidacy.accept contest.bucket.terms = .ok ()) ∧
        after = { candidate := { candidacy } }) ∨
      ∃ member, contest.members[id]? = some member ∧
        MemberStep contest id member action next after := by
  cases was : contest.members[id]? with
  | some member =>
      obtain ⟨there, foundThere, step⟩ := turn.memberStep was
      obtain rfl := Option.some.inj (foundThere.symm.trans found)
      exact Or.inr ⟨member, rfl, step⟩
  | none =>
      rcases turn.members_cases with same | ⟨candidacy, accepted, grown⟩ | ⟨_, _, _, there, set, _⟩
      · rw [same, was] at found
        cases found
      · rw [grown] at found
        rcases found_in_concat found with old | rfl
        · rw [was] at old
          cases old
        · exact Or.inl ⟨candidacy, ⟨rfl, accepted⟩, rfl⟩
      · rw [set] at found
        rcases found_in_set found with ⟨rfl, _⟩ | ⟨_, old⟩
        · rw [was] at there
          cases there
        · rw [was] at old
          cases old

theorem MemberStep.candidacy_eq (step : MemberStep contest id member action next after) :
    after.candidate.candidacy = member.candidate.candidacy := by
  cases step with
  | kept _ _ _ _ _ terms => exact terms
  | left _ _ _ _ _ _ _ terms => exact terms
  | started | called | landed | passed => rfl
  | answered plan stage began flight landedAt answer =>
      exact Candidate.candidacy_settle _ _ _ _
  | cutOff => exact Candidate.candidacy_finish _ _

theorem MemberStep.ended (step : MemberStep contest id member action next after)
    (ended : member.candidate.task = .ended) : after.candidate.task = .ended := by
  cases step with
  | kept _ _ _ _ task => exact task.trans ended
  | started _ task | called _ _ _ task | landed _ _ _ _ _ _ _ task | answered _ _ _ _ _ _ task
  | cutOff _ _ _ _ _ task =>
      rw [ended] at task
      cases task
  | left _ _ _ _ _ task => exact task
  | passed => exact ended

/-! ### Calls that nothing delays -/

/-- The calls that a member begins in these actions reach the bucket at once, and their answers are
back at once. -/
def Undelayed (id : Nat) (actions : List Action) : Prop :=
  ∀ plan, .proceed id plan ∈ actions → plan.before = 0 ∧ plan.after = 0

end Contest

def Member.Prompt (member : Member) (now : Nat) : Prop :=
  ∀ stage began, member.candidate.task = .calling stage began →
    began = now ∧ ∃ flight, member.flight = some flight ∧ flight.plan.before = 0 ∧
      flight.plan.after = 0 ∧ ∀ instant answer, flight.landed = some (instant, answer) → instant = now

namespace Contest

variable {contest next : Contest} {action : Action} {id : Nat} {member after : Member}

theorem Undelayed.before {done rest : List Action} (undelayed : Undelayed id (done ++ rest)) :
    Undelayed id done :=
  fun plan present => undelayed plan (List.mem_append_left _ present)

theorem progressAt_of_prompt {stage : Stage} {began : Nat} {flight : Flight}
    (prompt : member.Prompt contest.now) (calling : member.candidate.task = .calling stage began)
    (flying : member.flight = some flight) : Member.progressAt began flight ≤ contest.now := by
  obtain ⟨rfl, flown, same, before, behind, landed⟩ := prompt stage began calling
  obtain rfl := Option.some.inj (same.symm.trans flying)
  unfold Member.progressAt
  cases arrival : flown.landed with
  | none => exact Nat.le_of_eq (congrArg (contest.now + ·) before)
  | some landing =>
      obtain ⟨instant, answer⟩ := landing
      obtain rfl := landed instant answer arrival
      exact Nat.le_of_eq (congrArg (contest.now + ·) behind)

theorem idle_of_quiet (quiet : contest.quiet = true) (found : contest.members[id]? = some member) :
    contest.step? member = none :=
  Option.isNone_iff_eq_none.mp (List.all_eq_true.mp quiet member (List.mem_of_getElem? found))

/-- While all wait for the clock, a member whose calls are prompt waits for its ticker. -/
theorem waits_of_quiet {stage : Stage} (quiet : contest.quiet = true)
    (found : contest.members[id]? = some member) (prompt : member.Prompt contest.now)
    (current : member.candidate.stage? = some stage) :
    member.candidate.task = .between stage ∧
      ∃ ticker, stage.ticker? = some ticker ∧ contest.now < ticker.due := by
  have idle := idle_of_quiet quiet found
  cases task : member.candidate.task with
  | unstarted | ended =>
      simp only [Candidate.stage?, task] at current
      cases current
  | between waiting =>
      obtain rfl := Option.some.inj ((Candidate.stage?_of_between task).symm.trans current)
      refine ⟨rfl, ?_⟩
      simp only [step?, Member.step?, task] at idle
      split at idle
      · rename_i rests
        exact Stage.look_rest rests
      · cases idle
  | calling called began =>
      obtain ⟨_, flight, flying, _⟩ := prompt called began task
      have arrived := progressAt_of_prompt prompt task flying
      simp only [step?, Member.step?, task, flying, if_pos arrived] at idle
      cases idle

theorem MemberStep.prompt (step : MemberStep contest id member action next after)
    (prompt : member.Prompt contest.now)
    (undelayed : ∀ plan, action = .proceed id plan → plan.before = 0 ∧ plan.after = 0) :
    after.Prompt next.now := by
  intro stage began calling
  cases step with
  | kept action next after elsewhere task terms reports flight clock =>
      rw [clock, flight]
      exact prompt stage began (task ▸ calling)
  | started => cases calling
  | called plan stage following between moved =>
      obtain ⟨before, behind⟩ := undelayed plan rfl
      cases calling
      exact ⟨rfl, _, rfl, before, behind, fun _ _ never => by cases never⟩
  | left plan after extra stage between ended =>
      rw [ended] at calling
      cases calling
  | landed plan called since flight reply bucket found calls flying =>
      obtain ⟨same, flown, flyingThen, before, behind, _⟩ := prompt stage began calling
      obtain rfl := Option.some.inj (flyingThen.symm.trans flying)
      refine ⟨same, _, rfl, before, behind, ?_⟩
      intro instant answer landing
      cases landing
      rfl
  | answered plan called since flight landedAt answer =>
      rcases member.candidate.task_settle contest.now called answer with ended | ⟨waiting, waits⟩
      · rw [ended] at calling
        cases calling
      · rw [waits] at calling
        cases calling
  | cutOff => cases calling
  | passed instant quiet later awake found =>
      obtain ⟨waits, _⟩ := waits_of_quiet quiet found prompt (Candidate.stage?_of_calling calling)
      rw [calling] at waits
      cases waits

theorem prompt_of_run {terms : BucketTerms} {actions : List Action}
    (run : (opening terms).run? actions = some contest) (undelayed : Undelayed id actions)
    (found : contest.members[id]? = some member) : member.Prompt contest.now := by
  refine run_induction (motive := fun actions contest => Undelayed id actions →
    ∀ member, contest.members[id]? = some member → member.Prompt contest.now) ?_ ?_ actions contest
      run undelayed member found
  · intro _ member never
    cases never
  · intro actions contest action next ran ih turn undelayed after found
    rcases turn.member_cases found with ⟨candidacy, _, rfl⟩ | ⟨member, was, step⟩
    · intro stage began never
      cases never
    · refine step.prompt (ih undelayed.before member was) ?_
      rintro plan rfl
      exact undelayed plan (List.mem_append_right _ List.mem_cons_self)

/-! ### Calls that nothing strikes -/

/-- When a call of a member is about to reach the bucket, no failure waits for it. -/
def Unstruck (contest : Contest) (id : Nat) : Prop :=
  ∀ member flight, contest.members[id]? = some member → contest.step? member = some .land →
    member.flight = some flight → (contest.bucket.struckBy flight.plan.fault).injected = none

def Unharmed (first : Contest) (id : Nat) (actions : List Action) : Prop :=
  ∀ done rest plan contest, actions = done ++ .proceed id plan :: rest →
    first.run? done = some contest → contest.Unstruck id

theorem Unharmed.before {first : Contest} {done rest : List Action}
    (unharmed : first.Unharmed id (done ++ rest)) : first.Unharmed id done := by
  intro earlier later plan contest split ran
  refine unharmed earlier (later ++ rest) plan contest ?_ ran
  rw [split, List.append_assoc, List.cons_append]

theorem Unharmed.onward {first : Contest} {done rest : List Action}
    (unharmed : first.Unharmed id (done ++ rest)) (run : first.run? done = some contest) :
    contest.Unharmed id rest := by
  intro earlier later plan reached split ran
  refine unharmed (done ++ earlier) later plan reached ?_ (run?_append run ran)
  rw [split, List.append_assoc]

theorem Unharmed.unstruck {first : Contest} {done : List Action} {plan : Plan}
    (unharmed : first.Unharmed id (done ++ [.proceed id plan]))
    (run : first.run? done = some contest) : contest.Unstruck id :=
  unharmed done [] plan contest rfl run

theorem Unstruck.calm {stage : Stage} {began : Nat} {flight : Flight}
    (unstruck : contest.Unstruck id) (found : contest.members[id]? = some member)
    (calling : member.candidate.task = .calling stage began)
    (flying : member.flight = some flight) (aloft : flight.landed = none)
    (arrived : Member.progressAt began flight ≤ contest.now) :
    (contest.bucket.struckBy flight.plan.fault).injected = none := by
  refine unstruck member flight found ?_ flying
  simp only [step?, Member.step?, calling, flying, if_pos arrived, aloft]
  rfl

structure Faultless (actions : List Action) : Prop where
  uninjected : ∀ failure, .inject failure ∉ actions
  unplanned : ∀ id plan, .proceed id plan ∈ actions → plan.fault = none

theorem Faultless.before {done rest : List Action} (faultless : Faultless (done ++ rest)) :
    Faultless done :=
  ⟨fun failure present => faultless.uninjected failure (List.mem_append_left _ present),
    fun id plan present => faultless.unplanned id plan (List.mem_append_left _ present)⟩

theorem calm_of_faultless {first : Contest} {actions : List Action}
    (calm : first.bucket.injected = none)
    (grounded : ∀ member ∈ first.members, member.flight = none)
    (run : first.run? actions = some contest) (faultless : Faultless actions) :
    contest.bucket.injected = none ∧ ∀ (id : Nat) (member : Member),
      contest.members[id]? = some member → ∀ flight, member.flight = some flight →
        flight.plan.fault = none := by
  refine run_induction (motive := fun actions contest => Faultless actions →
    contest.bucket.injected = none ∧ ∀ (id : Nat) (member : Member),
      contest.members[id]? = some member → ∀ flight, member.flight = some flight →
        flight.plan.fault = none) ?_ ?_ actions contest run faultless
  · intro _
    refine ⟨calm, ?_⟩
    intro id member found flight flying
    rw [grounded member (List.mem_of_getElem? found)] at flying
    cases flying
  · intro actions contest action next ran ih turn faultless
    obtain ⟨calm, plain⟩ := ih faultless.before
    constructor
    · cases turn with
      | performed _ _ _ performed | landed _ _ _ _ _ _ _ _ _ _ _ _ _ performed =>
          exact performed.injected_eq
      | injected failure =>
          exact absurd (List.mem_append_right _ List.mem_cons_self) (faultless.uninjected failure)
      | _ => exact calm
    · intro id after found flight flying
      rcases turn.member_cases found with ⟨candidacy, _, rfl⟩ | ⟨member, was, step⟩
      · cases flying
      · cases step with
        | kept _ _ _ _ _ _ _ same => exact plain id member was flight (same ▸ flying)
        | started | passed => exact plain id _ was flight flying
        | called plan =>
            cases flying
            exact faultless.unplanned id plan (List.mem_append_right _ List.mem_cons_self)
        | left _ _ _ _ _ _ grounded =>
            rw [grounded] at flying
            cases flying
        | landed _ _ _ flown _ _ _ _ flies =>
            cases flying
            exact plain id member was flown flies
        | answered | cutOff => cases flying

theorem unharmed_of_faultless {terms : BucketTerms} {actions : List Action}
    (faultless : Faultless actions) (id : Nat) : (opening terms).Unharmed id actions := by
  intro done rest plan contest split ran member flight found _ flying
  obtain ⟨calm, plain⟩ := calm_of_faultless rfl (fun _ never => by cases never) ran
    (split ▸ faultless).before
  rw [plain id member found flight flying]
  exact calm

end Contest

/-! ### Actions that neither delay nor strike -/

def Action.isCalm : Action → Bool
  | .inject _ => false
  | .proceed _ plan => plan.fault.isNone
  | _ => true

def Action.isPlain : Action → Bool
  | .inject _ => false
  | .proceed _ plan => plan = {}
  | _ => true

theorem Action.isCalm_of_isPlain {action : Action} (plain : action.isPlain = true) :
    action.isCalm = true := by
  cases action with
  | proceed id plan =>
      obtain rfl : plan = {} := of_decide_eq_true plain
      rfl
  | _ => exact plain

namespace Contest

variable {actions : List Action}

theorem undelayed_of_plain (plain : actions.all Action.isPlain = true) (id : Nat) :
    Undelayed id actions := by
  intro plan present
  obtain rfl := of_decide_eq_true (List.all_eq_true.mp plain _ present)
  exact ⟨rfl, rfl⟩

theorem faultless_of_calm (calm : actions.all Action.isCalm = true) : Faultless actions where
  uninjected := by
    intro failure present
    cases List.all_eq_true.mp calm _ present
  unplanned := by
    intro id plan present
    exact Option.isNone_iff_eq_none.mp (List.all_eq_true.mp calm _ present)

theorem faultless_of_plain (plain : actions.all Action.isPlain = true) : Faultless actions := by
  refine faultless_of_calm (List.all_eq_true.mpr fun action present => ?_)
  exact Action.isCalm_of_isPlain (List.all_eq_true.mp plain action present)

end Contest

end Leasehold
