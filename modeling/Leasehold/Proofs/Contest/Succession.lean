import Leasehold.Proofs.Contest.MemberStep

set_option autoImplicit false

/-!
Succession: a follower leaves no key vacant for longer than the interval at which it looks.

Wherever a follower is between its ticks and however the key became vacant, its next tick is at most
one interval away. What it does from there on is listed in `Member.Heads`, and no way through that
list passes the deadline without the key being held: the look finds a record, or the create that
follows at the same instant writes one or is beaten to it.
-/

namespace Leasehold

/-! ### The next tick -/

def Stage.interval (stage : Stage) (candidacy : Candidacy) : Nat :=
  match stage with
  | .electing => 0
  | .leading _ _ => candidacy.renewEvery
  | .following _ => candidacy.pollEvery

theorem Stage.interval_eq (stage : Stage) (candidacy : Candidacy) :
    stage.interval candidacy = (stage.phase.interval? candidacy).getD 0 := by
  cases stage <;> rfl

theorem Phase.interval?_of_sameKind {phase other : Phase} (same : phase.sameKind other = true)
    (candidacy : Candidacy) : phase.interval? candidacy = other.interval? candidacy := by
  cases phase <;> cases other <;> simp_all [sameKind, interval?]

theorem Stage.ticker_of_enter {stage : Stage} {candidacy : Candidacy} {now : Nat} {phase : Phase}
    {ticker : Ticker} (ticking : (stage.enter candidacy now phase).ticker? = some ticker) :
    ticker = .after now ((stage.enter candidacy now phase).interval candidacy) ∨
      stage.ticker? = some ticker ∧
        (stage.enter candidacy now phase).interval candidacy = stage.interval candidacy := by
  rw [interval_eq, interval_eq, phase_enter]
  rw [ticker?_enter] at ticking
  split at ticking
  · next same =>
    exact Or.inr ⟨ticking, by rw [Phase.interval?_of_sameKind same]⟩
  · obtain ⟨period, even, rfl⟩ := Option.map_eq_some_iff.mp ticking
    exact Or.inl (by rw [even, Option.getD_some])

namespace Candidate

/-- The next tick is at most one interval of the phase away. -/
def Ticks (candidate : Candidate) (now : Nat) : Prop :=
  ∀ stage ticker, candidate.stage? = some stage → stage.ticker? = some ticker →
    ticker.period = stage.interval candidate.candidacy ∧ ticker.due ≤ now + ticker.period

variable {candidate after : Candidate} {now : Nat} {stage : Stage}

theorem ticks_of_ended (ended : after.task = .ended) : after.Ticks now := by
  intro stage ticker current
  simp only [stage?, ended] at current
  cases current

theorem Ticks.settle (ticks : candidate.Ticks now) (current : candidate.stage? = some stage)
    (answer : Except StoreError Entry) : (candidate.settle now stage answer).Ticks now := by
  have settled := candidate.settled now stage answer
  generalize candidate.settle now stage answer = after at settled ⊢
  have entered (phase : Phase) (ticker : Ticker)
      (ticking : (stage.enter candidate.candidacy now phase).ticker? = some ticker) :
      ticker.period = (stage.enter candidate.candidacy now phase).interval candidate.candidacy ∧
        ticker.due ≤ now + ticker.period := by
    rcases Stage.ticker_of_enter ticking with rfl | ⟨kept, same⟩
    · exact ⟨rfl, Nat.le_refl _⟩
    · rw [same]
      exact ticks stage ticker current kept
  cases settled with
  | silent phase | told phase =>
      intro next ticker there ticking
      obtain rfl := Option.some.inj there
      exact entered phase ticker ticking
  | unheard | ended => exact ticks_of_ended rfl

/-- A tick that is taken, however late, is at most one period ahead of the next. -/
theorem Ticks.take {ticker : Ticker} (ticks : candidate.Ticks now)
    (current : candidate.stage? = some stage) (ticking : stage.ticker? = some ticker)
    (due : ticker.due ≤ now) :
    Ticks { candidate with task := .calling (stage.withTicker (ticker.take now)) now } now := by
  obtain ⟨period, _⟩ := ticks stage ticker current ticking
  intro next taken there takes
  obtain rfl := Option.some.inj there
  have soon : (ticker.take now).due ≤ now + ticker.period := by
    simp only [Ticker.take]
    split <;> omega
  cases stage with
  | electing => cases ticking
  | leading | following =>
      cases takes
      exact ⟨period, soon⟩

end Candidate

namespace Contest

variable {contest next : Contest} {action : Action} {id : Nat} {member after : Member}

theorem MemberStep.ticks (step : MemberStep contest id member action next after)
    (ticks : member.candidate.Ticks contest.now) : after.candidate.Ticks next.now := by
  cases step with
  | kept action next after elsewhere task terms reports flight clock =>
      intro stage ticker current ticking
      rw [clock, terms]
      refine ticks stage ticker ?_ ticking
      unfold Candidate.stage? at current ⊢
      rw [task] at current
      exact current
  | started context fresh =>
      intro stage ticker current ticking
      obtain rfl := Option.some.inj current
      cases ticking
  | called plan stage following between moved =>
      have current := Candidate.stage?_of_between between
      obtain ⟨_, _, ⟨rfl, rfl⟩ | ⟨ticker, ticking, due, rfl⟩⟩ := Stage.look_call moved
      · intro stage ticker current ticking
        obtain rfl := Option.some.inj current
        cases ticking
      · exact ticks.take current ticking due
  | left plan after extra stage between ended => exact Candidate.ticks_of_ended ended
  | landed => exact ticks
  | answered plan stage began flight landedAt answer calling =>
      exact ticks.settle (Candidate.stage?_of_calling calling) answer
  | cutOff => exact Candidate.ticks_of_ended rfl
  | passed instant quiet later =>
      intro stage ticker current ticking
      obtain ⟨period, due⟩ := ticks stage ticker current ticking
      exact ⟨period, Nat.le_trans due (Nat.add_le_add_right later _)⟩

theorem ticks_of_run {terms : BucketTerms} {actions : List Action}
    (run : (opening terms).run? actions = some contest)
    (found : contest.members[id]? = some member) : member.candidate.Ticks contest.now := by
  refine run_induction (motive := fun _ contest =>
    ∀ member, contest.members[id]? = some member → member.candidate.Ticks contest.now) ?_ ?_ actions
      contest run member found
  · intro member never
    cases never
  · intro actions contest action next ran ih turn after found
    rcases turn.member_cases found with ⟨candidacy, _, rfl⟩ | ⟨member, was, step⟩
    · intro stage ticker never
      cases never
    · exact step.ticks (ih member was)

end Contest

/-! ### On the way to the next look -/

/-- Where a follower can be on its way from one look at the key to the create after the next. -/
inductive Member.Heads (member : Member) (deadline : Nat) : Prop
  | waiting (ticker : Ticker) (between : member.candidate.task = .between (.following ticker))
      (soon : ticker.due ≤ deadline)
  | looking (ticker : Ticker) (began : Nat) (flight : Flight)
      (calling : member.candidate.task = .calling (.following ticker) began)
      (flying : member.flight = some flight) (aloft : flight.landed = none)
  | seen (ticker : Ticker) (began : Nat) (flight : Flight) (instant : Nat) (entry : Entry)
      (calling : member.candidate.task = .calling (.following ticker) began)
      (flying : member.flight = some flight) (landed : flight.landed = some (instant, .ok entry))
      (soon : ticker.due ≤ deadline)
  | missed (ticker : Ticker) (began : Nat) (flight : Flight) (instant : Nat) (cause : StoreError)
      (calling : member.candidate.task = .calling (.following ticker) began)
      (flying : member.flight = some flight) (landed : flight.landed = some (instant, .error cause))
  | standing (between : member.candidate.task = .between .electing)
  | creating (began : Nat) (flight : Flight)
      (calling : member.candidate.task = .calling .electing began)
      (flying : member.flight = some flight) (aloft : flight.landed = none)

def Member.Follows (member : Member) : Prop :=
  member.candidate.stage?.map Stage.phase = some .following

def Contest.Vacant (contest : Contest) (key : String) : Prop :=
  contest.bucket.live? contest.now key = none

namespace Member

variable {member after : Member} {now deadline : Nat}

theorem Follows.ticker (follows : member.Follows) :
    ∃ ticker, member.candidate.stage? = some (.following ticker) := by
  unfold Follows at follows
  cases current : member.candidate.stage? with
  | none =>
      rw [current] at follows
      cases follows
  | some stage =>
      rw [current] at follows
      cases stage with
      | electing | leading => cases follows
      | following ticker => exact ⟨ticker, rfl⟩

theorem Follows.running (follows : member.Follows) : member.candidate.closed = false := by
  obtain ⟨ticker, current⟩ := follows.ticker
  cases task : member.candidate.task with
  | ended =>
      simp only [Candidate.stage?, task] at current
      cases current
  | unstarted | between | calling =>
      simp only [Candidate.closed, task]
      rfl

/-- Whoever follows looks again within one poll interval. -/
theorem Follows.heads (follows : member.Follows) (prompt : member.Prompt now)
    (ticks : member.candidate.Ticks now) :
    member.Heads (now + member.candidate.candidacy.pollEvery) := by
  obtain ⟨ticker, current⟩ := follows.ticker
  obtain ⟨period, due⟩ := ticks _ ticker current rfl
  rw [period] at due
  cases task : member.candidate.task with
  | unstarted | ended =>
      simp only [Candidate.stage?, task] at current
      cases current
  | between stage =>
      obtain rfl := Option.some.inj ((Candidate.stage?_of_between task).symm.trans current)
      exact .waiting ticker task due
  | calling stage began =>
      obtain rfl := Option.some.inj ((Candidate.stage?_of_calling task).symm.trans current)
      obtain ⟨_, flight, flying, _⟩ := prompt _ began task
      rcases landed : flight.landed with _ | ⟨instant, cause | entry⟩
      · exact .looking ticker began flight task flying landed
      · exact .missed ticker began flight instant cause task flying landed
      · exact .seen ticker began flight instant entry task flying landed due

theorem Heads.of_same_work (heads : member.Heads deadline)
    (task : after.candidate.task = member.candidate.task) (flight : after.flight = member.flight) :
    after.Heads deadline := by
  cases heads with
  | waiting ticker between soon => exact .waiting ticker (task.trans between) soon
  | looking ticker began flown calling flying aloft =>
      exact .looking ticker began flown (task.trans calling) (flight.trans flying) aloft
  | seen ticker began flown instant entry calling flying landed soon =>
      exact .seen ticker began flown instant entry (task.trans calling) (flight.trans flying) landed
        soon
  | missed ticker began flown instant cause calling flying landed =>
      exact .missed ticker began flown instant cause (task.trans calling) (flight.trans flying) landed
  | standing between => exact .standing (task.trans between)
  | creating began flown calling flying aloft =>
      exact .creating began flown (task.trans calling) (flight.trans flying) aloft

end Member

namespace Contest

variable {contest next : Contest} {action : Action} {id deadline : Nat} {member after : Member}

/-- A call of somebody on the way: the key is found held, or is written, or is seen to be vacant. -/
theorem heads_of_landed {stage : Stage} {began : Nat} {flight : Flight}
    {reply : Except StoreError Reply} {bucket : Bucket} (heads : member.Heads deadline)
    (calling : member.candidate.task = .calling stage began)
    (flying : member.flight = some flight) (aloft : flight.landed = none)
    (calm : (contest.bucket.struckBy flight.plan.fault).injected = none)
    (vacant : contest.Vacant member.key)
    (performed : (contest.bucket.struckBy flight.plan.fault).Performed contest.now
      (stage.call.operation member.candidate.candidacy) reply bucket) :
    bucket.live? contest.now member.key ≠ none ∨
      Member.Heads { member with
        flight := some { flight with
          landed := some (contest.now, reply.map member.candidate.candidacy.seen) } } deadline := by
  have unseen : (contest.bucket.struckBy flight.plan.fault).live? contest.now
      member.candidate.candidacy.key = none := by
    rw [Bucket.live?_struckBy]
    exact vacant
  have landedNot {instant : Nat} {answer : Except StoreError Entry} {flown : Flight}
      (flies : member.flight = some flown) (landed : flown.landed = some (instant, answer)) :
      False := by
    obtain rfl := Option.some.inj (flies.symm.trans flying)
    rw [aloft] at landed
    cases landed
  cases heads with
  | waiting _ between | standing between =>
      rw [calling] at between
      cases between
  | seen _ _ _ _ _ _ flies landed | missed _ _ _ _ _ _ flies landed =>
      exact (landedNot flies landed).elim
  | looking ticker since flown calls =>
      obtain ⟨rfl, rfl⟩ := Task.calling.inj (calling.symm.trans calls)
      cases reply with
      | error cause => exact Or.inr (.missed ticker began _ _ cause calling rfl rfl)
      | ok answered =>
          obtain ⟨record, live⟩ := Bucket.Performed.of_found performed
          rw [unseen] at live
          cases live
  | creating since flown calls =>
      obtain ⟨rfl, rfl⟩ := Task.calling.inj (calling.symm.trans calls)
      have created := (Bucket.Performed.created _ member.candidate.candidacy.candidate.bytes calm
        unseen).perform_eq
      obtain ⟨_, rfl⟩ := Prod.mk.inj (performed.perform_eq.symm.trans created)
      refine Or.inl ?_
      rw [Member.key, Bucket.live?_write]
      exact Option.some_ne_none _

/-- The answer to a look brings the follower back to its ticker or lets it stand at once. -/
theorem heads_of_answered {stage : Stage} {began landedAt : Nat} {flight : Flight}
    {answer : Except StoreError Entry} (heads : member.Heads deadline)
    (calling : member.candidate.task = .calling stage began)
    (flying : member.flight = some flight) (landed : flight.landed = some (landedAt, answer)) :
    (member.candidate.settle contest.now stage answer).task = .ended ∨
      Member.Heads { member with
        candidate := member.candidate.settle contest.now stage answer
        flight := none } deadline := by
  cases heads with
  | waiting _ between | standing between =>
      rw [calling] at between
      cases between
  | looking _ _ _ _ flies aloft | creating _ _ _ flies aloft =>
      obtain rfl := Option.some.inj (flies.symm.trans flying)
      rw [aloft] at landed
      cases landed
  | seen ticker since flown instant entry calls flies found soon =>
      obtain ⟨rfl, rfl⟩ := Task.calling.inj (calling.symm.trans calls)
      obtain rfl := Option.some.inj (flies.symm.trans flying)
      obtain ⟨_, rfl⟩ := Prod.mk.inj (Option.some.inj (landed.symm.trans found))
      exact Or.inr (.waiting ticker rfl soon)
  | missed ticker since flown instant cause calls flies failed =>
      obtain ⟨rfl, rfl⟩ := Task.calling.inj (calling.symm.trans calls)
      obtain rfl := Option.some.inj (flies.symm.trans flying)
      obtain ⟨_, rfl⟩ := Prod.mk.inj (Option.some.inj (landed.symm.trans failed))
      by_cases absent : cause.isNotFound = true
      · refine Or.inr (.standing ?_)
        simp only [Candidate.settle, Stage.transition, Transition.afterPoll, absent, if_true]
        rfl
      · refine Or.inl ?_
        simp only [Candidate.settle, Stage.transition, Transition.afterPoll, absent]
        rfl

/-- While all wait for the clock, whoever is on the way waits for a tick before the deadline. -/
theorem heads_waiting (heads : member.Heads deadline) (prompt : member.Prompt contest.now)
    (quiet : contest.quiet = true) (found : contest.members[id]? = some member) :
    ∃ ticker, member.candidate.task = .between (.following ticker) ∧
      contest.now < ticker.due ∧ ticker.due ≤ deadline := by
  have waits {stage : Stage} (current : member.candidate.stage? = some stage) :=
    waits_of_quiet quiet found prompt current
  have standsStill {stage : Stage} {began : Nat}
      (calling : member.candidate.task = .calling stage began) : False := by
    have between := (waits (Candidate.stage?_of_calling calling)).1
    rw [calling] at between
    cases between
  cases heads with
  | waiting ticker between soon =>
      obtain ⟨_, _, ticking, early⟩ := waits (Candidate.stage?_of_between between)
      cases ticking
      exact ⟨ticker, between, early, soon⟩
  | standing between =>
      obtain ⟨_, _, never, _⟩ := waits (Candidate.stage?_of_between between)
      cases never
  | looking _ _ _ calling | seen _ _ _ _ _ calling | missed _ _ _ _ _ calling
  | creating _ _ calling => exact (standsStill calling).elim

/-- A step on the way leads on, ends at a key that is held, or ends the election. -/
theorem MemberStep.heads (step : MemberStep contest id member action next after)
    (heads : member.Heads deadline) (early : contest.now ≤ deadline)
    (found : contest.members[id]? = some member) (prompt : member.Prompt contest.now)
    (unstruck : ∀ plan, action = .proceed id plan → contest.Unstruck id)
    (vacant : contest.Vacant member.key) :
    after.candidate.task = .ended ∨ ¬next.Vacant member.key ∧ next.now ≤ deadline ∨
      after.Heads deadline ∧ next.now ≤ deadline := by
  cases step with
  | kept action next after elsewhere task terms reports flight clock =>
      exact Or.inr (Or.inr ⟨heads.of_same_work task flight, clock ▸ early⟩)
  | started context fresh =>
      cases heads with
      | waiting _ task | looking _ _ _ task | seen _ _ _ _ _ task | missed _ _ _ _ _ task
      | standing task | creating _ _ task =>
          rw [fresh] at task
          cases task
  | called plan stage following between moved =>
      refine Or.inr (Or.inr ⟨?_, early⟩)
      cases heads with
      | looking _ _ _ task | seen _ _ _ _ _ task | missed _ _ _ _ _ task | creating _ _ task =>
          rw [between] at task
          cases task
      | waiting ticker waits =>
          obtain rfl := Task.between.inj (between.symm.trans waits)
          obtain ⟨_, _, ⟨never, _⟩ | ⟨_, _, _, rfl⟩⟩ := Stage.look_call moved
          · cases never
          · exact .looking _ contest.now _ rfl rfl rfl
      | standing waits =>
          obtain rfl := Task.between.inj (between.symm.trans waits)
          obtain ⟨_, _, ⟨_, rfl⟩ | ⟨_, never, _⟩⟩ := Stage.look_call moved
          · exact .creating contest.now _ rfl rfl rfl
          · cases never
  | left plan after extra stage between ended => exact Or.inl ended
  | landed plan stage began flight reply bucket there calling flying aloft arrived performed =>
      have calm := (unstruck plan rfl).calm found calling flying aloft arrived
      rcases heads_of_landed heads calling flying aloft calm vacant performed with held | goesOn
      · exact Or.inr (Or.inl ⟨held, early⟩)
      · exact Or.inr (Or.inr ⟨goesOn, early⟩)
  | answered plan stage began flight landedAt answer calling flying landed =>
      rcases heads_of_answered heads calling flying landed with ended | goesOn
      · exact Or.inl ended
      · exact Or.inr (Or.inr ⟨goesOn, early⟩)
  | cutOff => exact Or.inl rfl
  | passed instant quiet later awake =>
      obtain ⟨ticker, between, _, soon⟩ := heads_waiting heads prompt quiet found
      have wakes : member.wakeAt? = some ticker.due := by
        simp only [Member.wakeAt?, between]
        rfl
      exact Or.inr (Or.inr ⟨heads, Nat.le_trans (le_of_awake awake found wakes) soon⟩)

end Contest

/-! ### Instants between two states -/

/-- A member that waits for the clock waits at every instant before it goes on. -/
theorem Member.idle_before {member : Member} {cancelled : Bool} {now since : Nat}
    (idle : member.step? cancelled now = none)
    (early : ∀ due, member.wakeAt? = some due → since < due) :
    member.step? cancelled since = none := by
  unfold Member.step? at idle ⊢
  cases task : member.candidate.task with
  | unstarted | ended => simp only
  | between stage =>
      simp only [task] at idle ⊢
      split at idle
      · rename_i rests
        obtain ⟨ticker, ticking, _⟩ := Stage.look_rest rests
        have waits : since < ticker.due := by
          refine early ticker.due ?_
          simp only [Member.wakeAt?, task, ticking, Option.map_some]
        refine if_pos ?_
        simp only [Stage.look, ticking, Ticker.isDue, decide_eq_true_eq] at rests ⊢
        grind
      · cases idle
  | calling stage began =>
      cases flying : member.flight with
      | none => simp only
      | some flight =>
          have wakes := early
          simp only [Member.wakeAt?, task, flying, Option.some.injEq, forall_eq'] at wakes
          simp only [task, flying] at idle ⊢
          cases limited : member.limitAt? began with
          | none =>
              simp only [limited] at wakes
              simp only [if_neg (Nat.not_le_of_lt wakes), Option.any_none]
              rfl
          | some limit =>
              simp only [limited, Nat.lt_min] at wakes
              simp only [if_neg (Nat.not_le_of_lt wakes.1), Option.any_some,
                decide_eq_true_eq, if_neg (Nat.not_le_of_lt wakes.2)]

namespace Contest

variable {start next : Contest} {later : List Action} {since instant : Nat}

def pausedAt (start : Contest) (since : Nat) : Contest := { start with now := since }

/-- An instant at which a contest is or through which the time next passes. -/
def Pauses (start : Contest) (later : List Action) (since : Nat) : Prop :=
  since = start.now ∨ start.now ≤ since ∧
    ∃ instant rest, later = .passTo instant :: rest ∧ since < instant

/-- Time that can pass to an instant can pass to every earlier one first. -/
theorem act?_pausedAt (passed : start.act? (.passTo instant) = some next)
    (after : start.now ≤ since) (before : since < instant) :
    start.act? (.passTo since) = some (start.pausedAt since) ∧
      (start.pausedAt since).act? (.passTo instant) = some next := by
  cases turn_of_act? passed with
  | ignored _ _ asks => cases asks
  | passed _ quiet later awake =>
      have quietStill : (start.pausedAt since).quiet = true := by
        refine List.all_eq_true.mpr fun member present => ?_
        have idle := Option.isNone_iff_eq_none.mp (List.all_eq_true.mp quiet member present)
        refine Option.isNone_iff_eq_none.mpr (Member.idle_before idle fun due wakes => ?_)
        exact Nat.lt_of_lt_of_le before
          (le_of_min? awake (List.mem_filterMap.mpr ⟨member, present, wakes⟩))
      have awakeStill : start.wakeAt?.all (since ≤ ·) = true := by
        cases earliest : start.wakeAt? with
        | none => rfl
        | some wake =>
            rw [earliest, Option.all_some, decide_eq_true_eq] at awake
            rw [Option.all_some, decide_eq_true_eq]
            omega
      constructor
      · simp only [act?, passTo?, quiet, decide_eq_true after, awakeStill, Bool.and_self, if_true]
        rfl
      · have awakeThere : (start.pausedAt since).wakeAt?.all (instant ≤ ·) = true := awake
        have ahead : (start.pausedAt since).now ≤ instant := Nat.le_of_lt before
        simp only [act?, passTo?, quietStill, decide_eq_true ahead, awakeThere, Bool.and_self,
          if_true]
        rfl

theorem Unharmed.pausedAt {rest : List Action} {id : Nat}
    (unharmed : start.Unharmed id (.passTo instant :: rest))
    (passed : start.act? (.passTo instant) = some next)
    (goes : (start.pausedAt since).act? (.passTo instant) = some next) :
    (start.pausedAt since).Unharmed id (.passTo instant :: rest) := by
  intro done after plan contest split ran
  cases done with
  | nil => cases split
  | cons action done =>
      rw [List.cons_append, List.cons.injEq] at split
      obtain ⟨rfl, rfl⟩ := split
      rw [run?_cons goes] at ran
      exact unharmed (.passTo instant :: done) after plan contest rfl ((run?_cons passed).trans ran)

end Contest

/-! ### Runs -/

namespace Contest

def HeldAgain (start : Contest) (later : List Action) (key : String) (deadline : Nat) : Prop :=
  ∃ done rest between, later = done ++ rest ∧ start.run? done = some between ∧
    between.now ≤ deadline ∧ ¬between.Vacant key

/-- For a poll interval of a member and up to a state in which all wait for the clock, its key has been
vacant and it has followed all the while. -/
structure Neglected (start : Contest) (later : List Action) (contest : Contest) (id : Nat)
    (member : Member) : Prop where
  quiet : contest.quiet = true
  long : start.now + member.candidate.candidacy.pollEvery ≤ contest.now
  throughout : ∀ done rest between, later = done ++ rest → start.run? done = some between →
    between.Vacant member.key ∧ ∃ after, between.members[id]? = some after ∧ after.Follows

variable {contest start : Contest} {earlier later : List Action} {id : Nat} {member : Member}
  {terms : BucketTerms}

theorem HeldAgain.concat {key : String} {deadline : Nat} {action : Action}
    (held : start.HeldAgain later key deadline) :
    start.HeldAgain (later ++ [action]) key deadline := by
  obtain ⟨done, rest, between, split, run, soon, taken⟩ := held
  refine ⟨done, rest ++ [action], between, ?_, run, soon, taken⟩
  rw [split, List.append_assoc]

theorem heads_of_run (run : (opening terms).run? earlier = some start)
    (goesOn : start.run? later = some contest) (undelayed : Undelayed id (earlier ++ later))
    (unharmed : start.Unharmed id later)
    (found : start.members[id]? = some member) (follows : member.Follows) :
    start.HeldAgain later member.key (start.now + member.candidate.candidacy.pollEvery) ∨
      ∃ after, contest.members[id]? = some after ∧
        (after.candidate.task = .ended ∨
          after.Heads (start.now + member.candidate.candidacy.pollEvery) ∧
            contest.now ≤ start.now + member.candidate.candidacy.pollEvery) := by
  generalize limit : start.now + member.candidate.candidacy.pollEvery = deadline
  suffices goal : Undelayed id (earlier ++ later) → start.Unharmed id later →
      start.HeldAgain later member.key deadline ∨ ∃ after, contest.members[id]? = some after ∧
        after.candidate.candidacy = member.candidate.candidacy ∧
        (after.candidate.task = .ended ∨ after.Heads deadline ∧ contest.now ≤ deadline) by
    rcases goal undelayed unharmed with held | ⟨after, foundAfter, _, way⟩
    · exact Or.inl held
    · exact Or.inr ⟨after, foundAfter, way⟩
  refine Runs.induct (motive := fun later contest => Undelayed id (earlier ++ later) →
    start.Unharmed id later →
      start.HeldAgain later member.key deadline ∨ ∃ after, contest.members[id]? = some after ∧
        after.candidate.candidacy = member.candidate.candidacy ∧
        (after.candidate.task = .ended ∨ after.Heads deadline ∧ contest.now ≤ deadline))
    ?_ ?_ later goesOn
  · intro undelayed _
    rw [List.append_nil] at undelayed
    refine Or.inr ⟨member, found, rfl, Or.inr ⟨?_, by omega⟩⟩
    rw [← limit]
    exact follows.heads (prompt_of_run run undelayed found) (ticks_of_run run found)
  · intro done contest action next ran ih acted undelayed unharmed
    have whole := run?_append run ran
    rw [← List.append_assoc] at undelayed
    rcases ih undelayed.before unharmed.before with held | ⟨after, there, same, way⟩
    · exact Or.inl held.concat
    obtain ⟨afterNext, thereNext, step⟩ := (turn_of_act? acted).memberStep there
    have sameNext := step.candidacy_eq.trans same
    rcases way with ended | ⟨heads, early⟩
    · exact Or.inr ⟨afterNext, thereNext, sameNext, Or.inl (step.ended ended)⟩
    have named : after.key = member.key := congrArg Candidacy.key same
    by_cases vacant : contest.Vacant member.key
    · have prompt := prompt_of_run whole undelayed.before there
      have unstruck (plan : Plan) (own : action = .proceed id plan) : contest.Unstruck id := by
        subst own
        exact unharmed.unstruck ran
      rcases step.heads heads early there prompt unstruck (named ▸ vacant)
        with ended | ⟨held, soon⟩ | goesOn
      · exact Or.inr ⟨afterNext, thereNext, sameNext, Or.inl ended⟩
      · refine Or.inl ⟨done ++ [action], [], next, (List.append_nil _).symm, run?_concat ran acted,
          soon, ?_⟩
        rw [← named]
        exact held
      · exact Or.inr ⟨afterNext, thereNext, sameNext, Or.inr goesOn⟩
    · exact Or.inl ⟨done, [action], contest, rfl, ran, early, vacant⟩

/-- A follower that is still running when all wait for the clock has seen its key held. -/
theorem held_again_of_follows (run : (opening terms).run? earlier = some start)
    (goesOn : start.run? later = some contest) (undelayed : Undelayed id (earlier ++ later))
    (unharmed : start.Unharmed id later) (found : start.members[id]? = some member)
    (follows : member.Follows) (quiet : contest.quiet = true)
    (long : start.now + member.candidate.candidacy.pollEvery ≤ contest.now)
    (going : ∃ after, contest.members[id]? = some after ∧ after.candidate.closed = false) :
    start.HeldAgain later member.key (start.now + member.candidate.candidacy.pollEvery) := by
  obtain ⟨after, foundAfter, running⟩ := going
  rcases heads_of_run run goesOn undelayed unharmed found follows
    with held | ⟨same, foundSame, ended | ⟨heads, _⟩⟩
  · exact held
  · obtain rfl := Option.some.inj (foundSame.symm.trans foundAfter)
    simp only [Candidate.closed, ended] at running
    cases running
  · obtain rfl := Option.some.inj (foundSame.symm.trans foundAfter)
    have prompt := prompt_of_run (run?_append run goesOn) undelayed foundAfter
    obtain ⟨_, _, early, soon⟩ := heads_waiting heads prompt quiet foundAfter
    omega

theorem not_neglected_of_run (run : (opening terms).run? earlier = some start)
    (goesOn : start.run? later = some contest) (undelayed : Undelayed id (earlier ++ later))
    (unharmed : start.Unharmed id later) (found : start.members[id]? = some member) :
    ¬start.Neglected later contest id member := by
  rintro ⟨quiet, long, throughout⟩
  obtain ⟨_, follower, there, follows⟩ := throughout [] later start rfl rfl
  obtain rfl := Option.some.inj (there.symm.trans found)
  obtain ⟨_, after, foundAfter, followsAfter⟩ :=
    throughout later [] contest (List.append_nil _).symm goesOn
  obtain ⟨done, rest, between, split, ran, _, held⟩ := held_again_of_follows run goesOn undelayed
    unharmed found follows quiet long ⟨after, foundAfter, followsAfter.running⟩
  exact held (throughout done rest between split ran).1

/-- No key that somebody follows is neglected: it is held again within one poll interval of any
follower that is still running when all wait for the clock. The interval may begin at any instant
of the run. Only the follower's own calls must neither be delayed nor struck by a failure; all else
may happen to the key and to other members. -/
theorem held_again_of_run {since : Nat} (run : (opening terms).run? earlier = some start)
    (goesOn : start.run? later = some contest) (pauses : start.Pauses later since)
    (undelayed : Undelayed id (earlier ++ later))
    (unharmed : (opening terms).Unharmed id (earlier ++ later))
    (found : start.members[id]? = some member) :
    (start.pausedAt since).run? later = some contest ∧
      ¬(start.pausedAt since).Neglected later contest id member ∧
      (member.Follows → contest.quiet = true →
        since + member.candidate.candidacy.pollEvery ≤ contest.now →
        (∃ after, contest.members[id]? = some after ∧ after.candidate.closed = false) →
        (start.pausedAt since).HeldAgain later member.key
          (since + member.candidate.candidacy.pollEvery)) := by
  rcases pauses with rfl | ⟨after, instant, rest, rfl, before⟩
  · exact ⟨goesOn,
      not_neglected_of_run run goesOn undelayed (unharmed.onward run) found,
      held_again_of_follows run goesOn undelayed (unharmed.onward run) found⟩
  cases passed : start.act? (.passTo instant) with
  | none =>
      rw [run?, List.foldlM_cons, passed] at goesOn
      cases goesOn
  | some next =>
      obtain ⟨pause, goes⟩ := act?_pausedAt passed after before
      have runThere := run?_concat run pause
      have goesOnThere := (run?_cons goes).trans ((run?_cons passed).symm.trans goesOn)
      have undelayedThere : Undelayed id ((earlier ++ [.passTo since]) ++ .passTo instant :: rest) := by
        intro plan present
        exact undelayed plan (by simpa using present)
      have unharmedThere := (unharmed.onward run).pausedAt passed goes
      exact ⟨goesOnThere,
        not_neglected_of_run runThere goesOnThere undelayedThere unharmedThere found,
        held_again_of_follows runThere goesOnThere undelayedThere unharmedThere found⟩

def briefReign : List Action :=
  [.nominate { key := "k", candidate := ⟨"a"⟩, renewEveryMs := 1500, pollEveryMs := 500 },
    .nominate { key := "k", candidate := ⟨"b"⟩, renewEveryMs := 1500, pollEveryMs := 1900 },
    .start 0 "", .proceed 0 {}, .proceed 0 {}, .proceed 0 {}, .stop 0, .proceed 0 {}]

def afterBriefReign : Contest where
  bucket :=
    { terms := ⟨"b", 2_000_000_000⟩
      records := [("k", ⟨Text.encode "a", ⟨1⟩, 0⟩)]
      revision := ⟨1⟩ }
  members :=
    [{ candidate :=
        { candidacy := { key := "k", candidate := ⟨"a"⟩, renewEveryMs := 1500, pollEveryMs := 500 }
          task := .ended
          stopRequested := true
          listening := true
          reports := [.won, .stopped] } },
      { candidate :=
        { candidacy :=
            { key := "k", candidate := ⟨"b"⟩, renewEveryMs := 1500, pollEveryMs := 1900 } } }]
  calls := [⟨0, .create, 0, 0, some (0, .ok ⟨"k", Text.encode "a", ⟨1⟩⟩), false⟩]

/-- The second candidate starts and loses a moment before the lease runs out, and all wait. -/
def departure : List Action :=
  briefReign ++
    [.passTo 1_900_000_000, .start 1 "", .proceed 1 {}, .proceed 1 {}, .proceed 1 {}]

def successor : Member where
  candidate :=
    { candidacy := { key := "k", candidate := ⟨"b"⟩, renewEveryMs := 1500, pollEveryMs := 1900 }
      task := .between (.following ⟨3_800_000_000, 1_900_000_000⟩)
      listening := true
      reports := [.lost] }

def afterDeparture : Contest where
  bucket :=
    { terms := ⟨"b", 2_000_000_000⟩
      records := [("k", ⟨Text.encode "a", ⟨1⟩, 0⟩)]
      revision := ⟨1⟩ }
  now := 1_900_000_000
  members :=
    [{ candidate :=
        { candidacy := { key := "k", candidate := ⟨"a"⟩, renewEveryMs := 1500, pollEveryMs := 500 }
          task := .ended
          stopRequested := true
          listening := true
          reports := [.won, .stopped] } },
      successor]
  calls :=
    [⟨1, .create, 1_900_000_000, 1_900_000_000,
        some (1_900_000_000, .error (.keyExists "k")), false⟩,
      ⟨0, .create, 0, 0, some (0, .ok ⟨"k", Text.encode "a", ⟨1⟩⟩), false⟩]

def accession : List Action :=
  [.passTo 3_800_000_000, .proceed 1 {}, .proceed 1 {}, .proceed 1 {}, .proceed 1 {},
    .proceed 1 {}, .proceed 1 {}, .passTo 3_900_000_000]

def afterAccession : Contest where
  bucket :=
    { terms := ⟨"b", 2_000_000_000⟩
      records := [("k", ⟨Text.encode "b", ⟨2⟩, 3_800_000_000⟩)]
      revision := ⟨2⟩ }
  now := 3_900_000_000
  members :=
    [{ candidate :=
        { candidacy := { key := "k", candidate := ⟨"a"⟩, renewEveryMs := 1500, pollEveryMs := 500 }
          task := .ended
          stopRequested := true
          listening := true
          reports := [.won, .stopped] } },
      { candidate :=
        { candidacy := { key := "k", candidate := ⟨"b"⟩, renewEveryMs := 1500, pollEveryMs := 1900 }
          task := .between (.leading ⟨2⟩ ⟨5_300_000_000, 1_500_000_000⟩)
          listening := true
          reports := [.lost, .won] } }]
  calls :=
    ⟨1, .create, 3_800_000_000, 3_800_000_000,
        some (3_800_000_000, .ok ⟨"k", Text.encode "b", ⟨2⟩⟩), false⟩ ::
      ⟨1, .poll, 3_800_000_000, 3_800_000_000,
        some (3_800_000_000, .error (.keyNotFound "k")), false⟩ :: afterDeparture.calls

theorem run_briefReign :
    (opening ⟨"b", 2_000_000_000⟩).run? briefReign = some afterBriefReign := rfl

theorem run_departure :
    (opening ⟨"b", 2_000_000_000⟩).run? departure = some afterDeparture :=
  run?_append run_briefReign rfl

theorem run_accession : afterDeparture.run? accession = some afterAccession := rfl

theorem plain_accession : (departure ++ accession).all Action.isPlain = true := by decide

theorem held_again_afterDeparture :
    (opening ⟨"b", 2_000_000_000⟩).run? departure = some afterDeparture ∧
      afterDeparture.run? accession = some afterAccession ∧
      afterDeparture.Pauses accession 2_000_000_000 ∧
      Undelayed 1 (departure ++ accession) ∧
      (opening ⟨"b", 2_000_000_000⟩).Unharmed 1 (departure ++ accession) ∧
      afterDeparture.members[1]? = some successor ∧ successor.Follows ∧
      (afterDeparture.pausedAt 2_000_000_000).Vacant "k" ∧ afterAccession.quiet = true ∧
      ¬(afterDeparture.pausedAt 2_000_000_000).Neglected accession afterAccession 1 successor ∧
      (afterDeparture.pausedAt 2_000_000_000).HeldAgain accession "k" 3_900_000_000 :=
  have pauses : afterDeparture.Pauses accession 2_000_000_000 :=
    Or.inr ⟨by decide, 3_800_000_000, _, rfl, by decide⟩
  have unharmed : (opening ⟨"b", 2_000_000_000⟩).Unharmed 1 (departure ++ accession) :=
    unharmed_of_faultless (faultless_of_plain plain_accession) 1
  have undelayed : Undelayed 1 (departure ++ accession) := undelayed_of_plain plain_accession 1
  have follows : successor.Follows := rfl
  have quiet : afterAccession.quiet = true := by decide
  have succeeds := held_again_of_run run_departure run_accession pauses undelayed unharmed
    (rfl : afterDeparture.members[1]? = some successor)
  ⟨run_departure, run_accession, pauses, undelayed, unharmed, rfl, follows, rfl, quiet,
    succeeds.2.1, succeeds.2.2 follows quiet (by decide) ⟨_, rfl, rfl⟩⟩

end Contest

end Leasehold
