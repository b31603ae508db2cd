import Mathlib.Data.List.Chain
import Leasehold.Proofs.Election.Settled

set_option autoImplicit false

/-!
What a candidate has reported fits where it is.

While an election is on, its reports are leadership gained and lost, and the last of them says whether
the candidate leads. The end of an election adds one ending, unless nobody listens.
-/

namespace Leasehold

def Outcome.Changes (reports : List Outcome) : Prop :=
  (∀ outcome ∈ reports, outcome = .won ∨ outcome = .lost) ∧
    reports.IsChain fun earlier later => earlier = .won → later = .lost

def Stage.Told (stage : Stage) (reports : List Outcome) : Prop :=
  match stage with
  | .electing => reports.getLast? = none ∨ reports.getLast? = some .lost
  | .leading _ _ => reports.getLast? = some .won
  | .following _ => reports.getLast? = some .lost

namespace Outcome

theorem changes_nil : Changes [] := by
  refine ⟨?_, List.isChain_nil⟩
  intro outcome member
  cases member

theorem Changes.lost {reports : List Outcome} (changes : Changes reports) :
    Changes (reports ++ [.lost]) := by
  constructor
  · intro outcome member
    rcases List.mem_append.mp member with earlier | last
    · exact changes.1 outcome earlier
    · exact Or.inr (List.mem_singleton.mp last)
  · refine List.isChain_append.mpr ⟨changes.2, List.isChain_singleton _, ?_⟩
    intro earlier _ later last _
    cases last
    rfl

theorem Changes.won {reports : List Outcome} (changes : Changes reports)
    (fresh : reports.getLast? = none ∨ reports.getLast? = some .lost) :
    Changes (reports ++ [.won]) := by
  constructor
  · intro outcome member
    rcases List.mem_append.mp member with earlier | last
    · exact changes.1 outcome earlier
    · exact Or.inl (List.mem_singleton.mp last)
  · refine List.isChain_append.mpr ⟨changes.2, List.isChain_singleton _, ?_⟩
    intro earlier last later _ won
    rw [Option.mem_def] at last
    subst won
    rcases fresh with absent | lost
    · rw [absent] at last
      cases last
    · rw [lost] at last
      cases last

theorem Changes.not_terminal {reports : List Outcome} (changes : Changes reports)
    {outcome : Outcome} (member : outcome ∈ reports) : outcome.isTerminal = false := by
  rcases changes.1 outcome member with rfl | rfl <;> rfl

end Outcome

namespace Stage

theorem phase_withTicker (stage : Stage) (ticker : Ticker) :
    (stage.withTicker ticker).phase = stage.phase := by
  cases stage <;> rfl

variable {stage : Stage} {reports : List Outcome} {answer : Except StoreError Entry}
  {phase : Phase}

theorem told_of_phase {other : Stage} (same : stage.phase = other.phase) (told : stage.Told reports) :
    other.Told reports := by
  cases stage <;> cases other <;> first | exact told | cases same

theorem told_of_silent (told : stage.Told reports)
    (enters : stage.transition answer = .enter phase none) (candidacy : Candidacy) (now : Nat) :
    (stage.enter candidacy now phase).Told reports := by
  cases phase with
  | electing =>
      obtain ⟨⟨ticker, rfl⟩, _, _⟩ := transition_enter_electing enters
      exact Or.inr told
  | leading held =>
      obtain ⟨_, ⟨_, report⟩ | ⟨earlier, ticker, rfl, _⟩⟩ := transition_enter_leading enters
      · cases report
      · exact told
  | following =>
      obtain ⟨_, report, _⟩ | ⟨_, report⟩ | ⟨⟨ticker, rfl⟩, _⟩ := transition_enter_following enters
      · cases report
      · cases report
      · exact told

theorem told_of_report {outcome : Outcome} (told : stage.Told reports)
    (changes : Outcome.Changes reports)
    (enters : stage.transition answer = .enter phase (some outcome)) (candidacy : Candidacy)
    (now : Nat) :
    (stage.enter candidacy now phase).Told (reports ++ [outcome]) ∧
      Outcome.Changes (reports ++ [outcome]) := by
  cases phase with
  | electing =>
      obtain ⟨_, report, _⟩ := transition_enter_electing enters
      cases report
  | leading held =>
      obtain ⟨_, ⟨rfl, report⟩ | ⟨_, _, _, report⟩⟩ := transition_enter_leading enters
      · cases report
        exact ⟨List.getLast?_concat, changes.won told⟩
      · cases report
  | following =>
      obtain ⟨rfl, report, _⟩ | ⟨⟨earlier, ticker, rfl⟩, report⟩ | ⟨_, report⟩ :=
        transition_enter_following enters
      · cases report
        exact ⟨List.getLast?_concat, changes.lost⟩
      · cases report
        exact ⟨List.getLast?_concat, changes.lost⟩
      · cases report

end Stage

structure Candidate.Coherent (candidate : Candidate) : Prop where
  silent : candidate.task = .unstarted → candidate.reports = []
  running : ∀ stage, candidate.stage? = some stage →
    stage.Told candidate.reports ∧ Outcome.Changes candidate.reports
  ended : candidate.task = .ended → ∃ (changes : List Outcome) (ending? : Option Outcome),
    candidate.reports = changes ++ ending?.toList ∧ Outcome.Changes changes ∧
      (∀ ending ∈ ending?, ending.isTerminal = true) ∧
      (candidate.listening = true → ending?.isSome = true)

namespace Candidate

variable {candidate : Candidate} {stage : Stage} {now : Nat}

theorem reports_finish (candidate : Candidate) (outcome : Outcome) :
    (candidate.finish outcome).reports =
      candidate.reports ++ (if candidate.listening then some outcome else none).toList := by
  simp only [finish, report]
  split
  · rfl
  · exact (List.append_nil _).symm

theorem won_not_sent_of_terminal {outcome : Outcome} (terminal : outcome.isTerminal = true) :
    .won ∉ (if candidate.listening then some outcome else none).toList := by
  intro sent
  split at sent
  · rw [← List.mem_singleton.mp sent] at terminal
    cases terminal
  · cases sent

/-- An answer adds to the reports, and a victory that it adds is that of a leader. -/
theorem reports_settle (candidate : Candidate) (now : Nat) (stage : Stage)
    (answer : Except StoreError Entry) :
    ∃ extra, (candidate.settle now stage answer).reports = candidate.reports ++ extra ∧
      (.won ∈ extra → ∃ held, (candidate.settle now stage answer).stage?.map Stage.phase =
        some (.leading held)) := by
  have settled := candidate.settled now stage answer
  generalize candidate.settle now stage answer = after at settled ⊢
  cases settled with
  | silent | unheard => exact ⟨[], (List.append_nil _).symm, fun never => by cases never⟩
  | told phase outcome enters heard =>
      refine ⟨[outcome], rfl, ?_⟩
      intro won
      obtain rfl := List.mem_singleton.mp won
      obtain ⟨held, rfl⟩ := Stage.transition_won enters
      exact ⟨held, congrArg some (stage.phase_enter candidate.candidacy now (.leading held))⟩
  | ended outcome ends =>
      obtain ⟨cause, _, rfl⟩ := Stage.transition_finish ends
      refine ⟨_, candidate.reports_finish _, ?_⟩
      intro won
      exact absurd won (won_not_sent_of_terminal rfl)

namespace Coherent

theorem opening (candidacy : Candidacy) : Coherent { candidacy } where
  silent := fun _ => rfl
  running := by
    intro stage current
    cases current
  ended := by
    intro ended
    cases ended

/-- Where the election is on, its stage and its reports are all that matters. -/
theorem of_running {after : Candidate} (current : after.stage? = some stage)
    (told : stage.Told after.reports) (changes : Outcome.Changes after.reports) : after.Coherent where
  silent := by
    intro fresh
    simp only [stage?, fresh] at current
    cases current
  running := by
    intro other same
    obtain rfl : stage = other := Option.some.inj (current.symm.trans same)
    exact ⟨told, changes⟩
  ended := by
    intro ended
    simp only [stage?, ended] at current
    cases current

theorem start (coherent : candidate.Coherent) (fresh : candidate.task = .unstarted) :
    candidate.start.Coherent := by
  have none : candidate.start.reports = [] := coherent.silent fresh
  have current : candidate.start.stage? = some .electing := rfl
  apply of_running current
  · rw [none]
    exact Or.inl rfl
  · rw [none]
    exact Outcome.changes_nil

theorem stop (coherent : candidate.Coherent) : candidate.stop.Coherent :=
  ⟨coherent.silent, coherent.running, coherent.ended⟩

theorem deafen (coherent : candidate.Coherent) : candidate.deafen.Coherent where
  silent := coherent.silent
  running := coherent.running
  ended := by
    intro ended
    obtain ⟨changes, ending?, whole, regular, terminal, _⟩ := coherent.ended ended
    refine ⟨changes, ending?, whole, regular, terminal, ?_⟩
    intro heard
    cases heard

theorem finish (coherent : candidate.Coherent) (current : candidate.stage? = some stage)
    {outcome : Outcome} (terminal : outcome.isTerminal = true) :
    (candidate.finish outcome).Coherent where
  silent := by
    intro fresh
    cases fresh
  running := by
    intro other same
    cases same
  ended := by
    intro _
    refine ⟨candidate.reports, if candidate.listening then some outcome else none,
      candidate.reports_finish outcome, (coherent.running stage current).2, ?_, ?_⟩
    · intro ending sent
      split at sent
      · cases sent
        exact terminal
      · cases sent
    · intro heard
      rw [candidate.listening_finish] at heard
      rw [if_pos heard]
      rfl

/-- Nobody hears of an election that ends because nobody listens. -/
theorem abandon (coherent : candidate.Coherent) (current : candidate.stage? = some stage)
    (deaf : candidate.listening = false) : Coherent { candidate with task := .ended } where
  silent := by
    intro fresh
    cases fresh
  running := by
    intro other same
    cases same
  ended := by
    intro _
    refine ⟨candidate.reports, none, (List.append_nil _).symm, (coherent.running stage current).2,
      ?_, ?_⟩
    · intro ending sent
      cases sent
    · intro heard
      rw [deaf] at heard
      cases heard

theorem settle (coherent : candidate.Coherent) (current : candidate.stage? = some stage)
    (answer : Except StoreError Entry) : (candidate.settle now stage answer).Coherent := by
  obtain ⟨told, changes⟩ := coherent.running stage current
  have settled := candidate.settled now stage answer
  generalize candidate.settle now stage answer = after at settled ⊢
  cases settled with
  | silent phase enters =>
      exact of_running rfl (Stage.told_of_silent told enters candidate.candidacy now) changes
  | told phase outcome enters heard =>
      obtain ⟨toldAfter, changesAfter⟩ :=
        Stage.told_of_report told changes enters candidate.candidacy now
      exact of_running rfl toldAfter changesAfter
  | unheard phase outcome enters deaf => exact coherent.abandon current deaf
  | ended outcome ends =>
      obtain ⟨cause, _, rfl⟩ := Stage.transition_finish ends
      exact coherent.finish current rfl

theorem move (coherent : candidate.Coherent) (between : candidate.task = .between stage) (now : Nat)
    (cancelled : Bool) :
    (candidate.move now (stage.look (candidate.signals cancelled) now)).Coherent := by
  have current := stage?_of_between between
  cases moved : stage.look (candidate.signals cancelled) now with
  | rest => exact coherent
  | call next =>
      have same : stage.phase = next.phase := by
        obtain ⟨_, _, ⟨rfl, rfl⟩ | ⟨ticker, _, _, rfl⟩⟩ := Stage.look_call moved
        · rfl
        · exact (Stage.phase_withTicker stage _).symm
      obtain ⟨told, changes⟩ := coherent.running stage current
      exact of_running rfl (Stage.told_of_phase same told) changes
  | finish outcome =>
      apply coherent.finish current
      rcases Stage.look_finish moved with ⟨rfl, _⟩ | ⟨rfl, _, _⟩ <;> rfl
  | abandon => exact coherent.abandon current (Stage.look_abandon moved)

/-! ### What the reports say of the end and of waits -/

theorem grammar (coherent : candidate.Coherent) :
    ∃ (changes : List Outcome) (ending? : Option Outcome),
      candidate.reports = changes ++ ending?.toList ∧ Outcome.Changes changes ∧
        ∀ ending ∈ ending?, ending.isTerminal = true := by
  cases task : candidate.task with
  | unstarted =>
      refine ⟨[], none, coherent.silent task, Outcome.changes_nil, ?_⟩
      intro ending sent
      cases sent
  | between stage =>
      refine ⟨candidate.reports, none, (List.append_nil _).symm,
        (coherent.running stage (stage?_of_between task)).2, ?_⟩
      intro ending sent
      cases sent
  | calling stage began =>
      refine ⟨candidate.reports, none, (List.append_nil _).symm,
        (coherent.running stage (stage?_of_calling task)).2, ?_⟩
      intro ending sent
      cases sent
  | ended =>
      obtain ⟨changes, ending?, whole, regular, terminal, _⟩ := coherent.ended task
      exact ⟨changes, ending?, whole, regular, terminal⟩

/-- While it is heard, a candidate closes its reports with an ending and never without one. -/
theorem closed_iff (coherent : candidate.Coherent)
    (heard : candidate.task ≠ .unstarted → candidate.listening = true) :
    candidate.closed = true ↔
      ∃ ending, candidate.reports.getLast? = some ending ∧ ending.isTerminal = true := by
  have mild {stage : Stage} (current : candidate.stage? = some stage) :
      ¬∃ ending, candidate.reports.getLast? = some ending ∧ ending.isTerminal = true := by
    rintro ⟨ending, last, terminal⟩
    have regular := (coherent.running stage current).2.not_terminal (List.mem_of_getLast? last)
    rw [terminal] at regular
    cases regular
  unfold closed
  cases task : candidate.task with
  | unstarted =>
      rw [coherent.silent task]
      constructor
      · intro never
        cases never
      · rintro ⟨ending, never, _⟩
        cases never
  | between stage => exact iff_of_false Bool.false_ne_true (mild (stage?_of_between task))
  | calling stage began => exact iff_of_false Bool.false_ne_true (mild (stage?_of_calling task))
  | ended =>
      obtain ⟨changes, ending?, whole, _, terminal, told⟩ := coherent.ended task
      apply iff_of_true rfl
      have listening := heard (by rw [task]; exact Task.noConfusion)
      obtain ⟨ending, rfl⟩ := Option.isSome_iff_exists.mp (told listening)
      refine ⟨ending, ?_, terminal ending rfl⟩
      rw [whole]
      exact List.getLast?_concat

theorem waits {stage : Stage} {ticker : Ticker} (coherent : candidate.Coherent)
    (between : candidate.task = .between stage) (ticking : stage.ticker? = some ticker) :
    ((∃ held, stage.phase = .leading held) ↔ candidate.reports.getLast? = some .won) ∧
      (stage.phase = .following ↔ candidate.reports.getLast? = some .lost) := by
  have told := (coherent.running stage (stage?_of_between between)).1
  cases stage with
  | electing => cases ticking
  | leading held ticker =>
      have last : candidate.reports.getLast? = some .won := told
      rw [last]
      exact ⟨iff_of_true ⟨held, rfl⟩ rfl, iff_of_false Phase.noConfusion (by decide)⟩
  | following ticker =>
      have last : candidate.reports.getLast? = some .lost := told
      rw [last]
      refine ⟨iff_of_false ?_ (by decide), iff_of_true rfl rfl⟩
      rintro ⟨held, never⟩
      cases never

/-- Whose last report is a victory leads until its election is over. -/
theorem leading_of_won (coherent : candidate.Coherent) (going : candidate.closed = false)
    (last : candidate.reports.getLast? = some .won) :
    ∃ held, candidate.stage?.map Stage.phase = some (.leading held) := by
  have leads {stage : Stage} (current : candidate.stage? = some stage) :
      ∃ held, candidate.stage?.map Stage.phase = some (.leading held) := by
    have told := (coherent.running stage current).1
    rw [current]
    cases stage with
    | leading held ticker => exact ⟨held, rfl⟩
    | electing =>
        rcases told with absent | lost
        · rw [last] at absent
          cases absent
        · rw [last] at lost
          cases lost
    | following ticker =>
        have lost : candidate.reports.getLast? = some .lost := told
        rw [last] at lost
        cases lost
  cases task : candidate.task with
  | unstarted =>
      rw [coherent.silent task] at last
      cases last
  | between stage => exact leads (stage?_of_between task)
  | calling stage began => exact leads (stage?_of_calling task)
  | ended =>
      simp only [closed, task] at going
      cases going

end Coherent

end Candidate

end Leasehold
