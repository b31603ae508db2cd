import Leasehold.Election.Candidate

set_option autoImplicit false

/-!
How a candidate goes on after an answer and when it looks up, by cases.
-/

namespace Leasehold

namespace Stage

variable {stage : Stage} {answer : Except StoreError Entry} {held : Revision}
  {report : Option Outcome}

/-! ### Where an answer leads -/

/-- Leading begins with a create that succeeds and goes on with renewals that do. -/
theorem transition_enter_leading (enters : stage.transition answer = .enter (.leading held) report) :
    (∃ entry, answer = .ok entry ∧ held = entry.revision) ∧
      (stage = .electing ∧ report = some .won ∨
        ∃ earlier ticker, stage = .leading earlier ticker ∧ report = none) := by
  cases answer with
  | ok entry =>
      refine ⟨⟨entry, rfl, ?_⟩, ?_⟩
      · cases stage <;> cases enters <;> rfl
      · cases stage with
        | electing =>
            cases enters
            exact Or.inl ⟨rfl, rfl⟩
        | leading earlier ticker =>
            cases enters
            exact Or.inr ⟨earlier, ticker, rfl, rfl⟩
        | following ticker => cases enters
  | error cause =>
      cases stage <;> simp only [transition, Except.map, Transition.afterCreate,
        Transition.afterRenewal, Transition.afterPoll] at enters <;> split at enters <;> cases enters

/-- Following begins with a lost create or renewal and goes on while the record is seen. -/
theorem transition_enter_following (enters : stage.transition answer = .enter .following report) :
    stage = .electing ∧ report = some .lost ∧ (∃ key, answer = .error (.keyExists key)) ∨
      (∃ earlier ticker, stage = .leading earlier ticker) ∧ report = some .lost ∨
      (∃ ticker, stage = .following ticker) ∧ report = none := by
  cases answer with
  | ok entry =>
      cases stage with
      | electing => cases enters
      | leading earlier ticker => cases enters
      | following ticker =>
          cases enters
          exact Or.inr (Or.inr ⟨⟨ticker, rfl⟩, rfl⟩)
  | error cause =>
      cases stage with
      | electing =>
          simp only [transition, Except.map, Transition.afterCreate] at enters
          cases cause with
          | keyExists key =>
              cases enters
              exact Or.inl ⟨rfl, rfl, key, rfl⟩
          | _ => cases enters
      | leading earlier ticker =>
          simp only [transition, Except.map, Transition.afterRenewal] at enters
          split at enters
          · cases enters
            exact Or.inr (Or.inl ⟨⟨earlier, ticker, rfl⟩, rfl⟩)
          · cases enters
      | following ticker =>
          simp only [transition, Transition.afterPoll] at enters
          split at enters <;> cases enters

/-- A candidate stands again only when a look found the key vacant. -/
theorem transition_enter_electing (enters : stage.transition answer = .enter .electing report) :
    (∃ ticker, stage = .following ticker) ∧ report = none ∧
      ∃ key, answer = .error (.keyNotFound key) := by
  cases answer with
  | ok entry => cases stage <;> cases enters
  | error cause =>
      cases stage with
      | electing =>
          simp only [transition, Except.map, Transition.afterCreate] at enters
          split at enters <;> cases enters
      | leading earlier ticker =>
          simp only [transition, Except.map, Transition.afterRenewal] at enters
          split at enters <;> cases enters
      | following ticker =>
          cases cause with
          | keyNotFound key =>
              cases enters
              exact ⟨⟨ticker, rfl⟩, rfl, key, rfl⟩
          | _ => cases enters

theorem transition_report {phase : Phase} {outcome : Outcome}
    (enters : stage.transition answer = .enter phase (some outcome)) :
    outcome = .won ∨ outcome = .lost := by
  cases phase with
  | electing =>
      obtain ⟨_, report, _⟩ := transition_enter_electing enters
      cases report
  | leading held =>
      obtain ⟨_, ⟨_, report⟩ | ⟨_, _, _, report⟩⟩ := transition_enter_leading enters
      · exact Or.inl (Option.some.inj report)
      · cases report
  | following =>
      obtain ⟨_, report, _⟩ | ⟨_, report⟩ | ⟨_, report⟩ := transition_enter_following enters
      · exact Or.inr (Option.some.inj report)
      · exact Or.inr (Option.some.inj report)
      · cases report

theorem transition_won {phase : Phase} (enters : stage.transition answer = .enter phase (some .won)) :
    ∃ held, phase = .leading held := by
  cases phase with
  | electing =>
      obtain ⟨_, report, _⟩ := transition_enter_electing enters
      cases report
  | leading held => exact ⟨held, rfl⟩
  | following =>
      obtain ⟨_, report, _⟩ | ⟨_, report⟩ | ⟨_, report⟩ := transition_enter_following enters <;>
        cases report

/-- An answer ends an election only as a failure, which is then the outcome. -/
theorem transition_finish {outcome : Outcome} (ends : stage.transition answer = .finish outcome) :
    ∃ cause, answer = .error cause ∧ outcome = .error cause := by
  cases answer with
  | ok entry => cases stage <;> cases ends
  | error cause =>
      refine ⟨cause, rfl, ?_⟩
      cases stage <;> simp only [transition, Except.map, Transition.afterCreate,
        Transition.afterRenewal, Transition.afterPoll] at ends <;> split at ends <;> cases ends <;>
        rfl

theorem transition_timeout (stage : Stage) (limitMs : Nat) :
    stage.transition (.error (.timeout limitMs)) = .finish (.error (.timeout limitMs)) := by
  cases stage <;> rfl

/-! ### What a look decides -/

variable {signals : Signals} {now : Nat}

theorem look_call {next : Stage} (calls : stage.look signals now = .call next) :
    signals.stopRequested = false ∧ signals.cancelled = false ∧
      (stage = .electing ∧ next = .electing ∨
        ∃ ticker, stage.ticker? = some ticker ∧ ticker.due ≤ now ∧
          next = stage.withTicker (ticker.take now)) := by
  unfold look at calls
  split at calls
  · cases calls
  split at calls
  · cases calls
  rename_i noStop noCancel
  refine ⟨Bool.eq_false_iff.mpr noStop, Bool.eq_false_iff.mpr noCancel, ?_⟩
  cases ticking : stage.ticker? with
  | none =>
      rw [ticking] at calls
      cases calls
      cases stage with
      | electing => exact Or.inl ⟨rfl, rfl⟩
      | leading | following => cases ticking
  | some ticker =>
      simp only [ticking] at calls
      split at calls
      · cases calls
      split at calls
      · rename_i due
        cases calls
        exact Or.inr ⟨ticker, rfl, of_decide_eq_true due, rfl⟩
      · cases calls

theorem look_finish {outcome : Outcome} (ends : stage.look signals now = .finish outcome) :
    outcome = .stopped ∧ signals.stopRequested = true ∨
      outcome = .cancelled ∧ signals.cancelled = true ∧ signals.stopRequested = false := by
  unfold look at ends
  split at ends
  · rename_i asked
    cases ends
    exact Or.inl ⟨rfl, asked⟩
  split at ends
  · rename_i noStop gone
    cases ends
    exact Or.inr ⟨rfl, gone, Bool.eq_false_iff.mpr noStop⟩
  · split at ends
    · cases ends
    · split at ends
      · cases ends
      · split at ends <;> cases ends

theorem look_abandon (leaves : stage.look signals now = .abandon) : signals.listening = false := by
  unfold look at leaves
  split at leaves
  · cases leaves
  split at leaves
  · cases leaves
  split at leaves
  · cases leaves
  split at leaves
  · rename_i deaf
    exact Bool.eq_false_iff.mpr (by simpa using deaf)
  · split at leaves <;> cases leaves

theorem look_rest (rests : stage.look signals now = .rest) :
    ∃ ticker, stage.ticker? = some ticker ∧ now < ticker.due := by
  unfold look at rests
  split at rests
  · cases rests
  split at rests
  · cases rests
  split at rests
  · cases rests
  · rename_i ticker ticking
    split at rests
    · cases rests
    split at rests
    · cases rests
    · rename_i early
      exact ⟨ticker, ticking, Nat.lt_of_not_le fun due => early (decide_eq_true due)⟩

theorem leading_of_withTicker {stage : Stage} {held : Revision} {taken ticker : Ticker}
    (leads : .leading held ticker = stage.withTicker taken) :
    (∃ old, stage = .leading held old) ∧ ticker = taken := by
  cases stage with
  | electing | following => cases leads
  | leading revision old =>
      cases leads
      exact ⟨⟨old, rfl⟩, rfl⟩

end Stage

namespace Candidate

theorem stage?_of_between {candidate : Candidate} {stage : Stage}
    (between : candidate.task = .between stage) : candidate.stage? = some stage := by
  simp only [stage?, between]

theorem stage?_of_calling {candidate : Candidate} {stage : Stage} {began : Nat}
    (calling : candidate.task = .calling stage began) : candidate.stage? = some stage := by
  simp only [stage?, calling]

/-! ### What an answer makes of a candidate -/

inductive Settled (candidate : Candidate) (now : Nat) (stage : Stage)
    (answer : Except StoreError Entry) : Candidate → Prop
  | silent (phase : Phase) (enters : stage.transition answer = .enter phase none) :
      Settled candidate now stage answer
        { candidate with task := .between (stage.enter candidate.candidacy now phase) }
  | told (phase : Phase) (outcome : Outcome)
      (enters : stage.transition answer = .enter phase (some outcome))
      (heard : candidate.listening = true) :
      Settled candidate now stage answer
        { candidate with
          task := .between (stage.enter candidate.candidacy now phase)
          reports := candidate.reports ++ [outcome] }
  | unheard (phase : Phase) (outcome : Outcome)
      (enters : stage.transition answer = .enter phase (some outcome))
      (deaf : candidate.listening = false) :
      Settled candidate now stage answer { candidate with task := .ended }
  | ended (outcome : Outcome) (ends : stage.transition answer = .finish outcome) :
      Settled candidate now stage answer (candidate.finish outcome)

variable (candidate : Candidate) (now : Nat) (stage : Stage) (answer : Except StoreError Entry)

theorem settled : candidate.Settled now stage answer (candidate.settle now stage answer) := by
  unfold settle
  cases leads : stage.transition answer with
  | enter phase report =>
      cases report with
      | none => exact .silent phase leads
      | some outcome =>
          simp only [goOn, report]
          by_cases heard : candidate.listening = true
          · simp only [if_pos heard]
            exact .told phase outcome leads heard
          · simp only [if_neg heard]
            exact .unheard phase outcome leads (Bool.eq_false_iff.mpr heard)
  | finish outcome => exact .ended outcome leads

theorem settle_timeout (limitMs : Nat) :
    candidate.settle now stage (.error (.timeout limitMs)) =
      candidate.finish (.error (.timeout limitMs)) := by
  simp only [settle, Stage.transition_timeout]

@[simp] theorem task_finish (outcome : Outcome) : (candidate.finish outcome).task = .ended := rfl

@[simp] theorem candidacy_finish (outcome : Outcome) :
    (candidate.finish outcome).candidacy = candidate.candidacy := by
  simp only [finish, report]
  split <;> rfl

@[simp] theorem stopRequested_finish (outcome : Outcome) :
    (candidate.finish outcome).stopRequested = candidate.stopRequested := by
  simp only [finish, report]
  split <;> rfl

@[simp] theorem listening_finish (outcome : Outcome) :
    (candidate.finish outcome).listening = candidate.listening := by
  simp only [finish, report]
  split <;> rfl

@[simp] theorem candidacy_settle :
    (candidate.settle now stage answer).candidacy = candidate.candidacy := by
  have settled := candidate.settled now stage answer
  generalize candidate.settle now stage answer = next at settled ⊢
  cases settled with
  | silent | told | unheard => rfl
  | ended outcome => exact candidate.candidacy_finish outcome

@[simp] theorem stopRequested_settle :
    (candidate.settle now stage answer).stopRequested = candidate.stopRequested := by
  have settled := candidate.settled now stage answer
  generalize candidate.settle now stage answer = next at settled ⊢
  cases settled with
  | silent | told | unheard => rfl
  | ended outcome => exact candidate.stopRequested_finish outcome

@[simp] theorem listening_settle :
    (candidate.settle now stage answer).listening = candidate.listening := by
  have settled := candidate.settled now stage answer
  generalize candidate.settle now stage answer = next at settled ⊢
  cases settled with
  | silent | told | unheard => rfl
  | ended outcome => exact candidate.listening_finish outcome

theorem task_settle :
    (candidate.settle now stage answer).task = .ended ∨
      ∃ next, (candidate.settle now stage answer).task = .between next := by
  have settled := candidate.settled now stage answer
  generalize candidate.settle now stage answer = next at settled ⊢
  cases settled with
  | silent phase | told phase => exact Or.inr ⟨_, rfl⟩
  | unheard | ended => exact Or.inl rfl

variable {candidate now stage answer}

theorem enter_eq_leading {candidacy : Candidacy} {phase : Phase} {held : Revision} {ticker : Ticker}
    (enters : stage.enter candidacy now phase = .leading held ticker) :
    phase = .leading held ∧ (ticker = .after now candidacy.renewEvery ∨
      ∃ earlier, stage = .leading earlier ticker) := by
  cases phase with
  | electing => cases enters
  | following => cases stage <;> cases enters
  | leading revision =>
      cases stage with
      | electing | following =>
          cases enters
          exact ⟨rfl, Or.inl rfl⟩
      | leading earlier kept =>
          cases enters
          exact ⟨rfl, Or.inr ⟨earlier, rfl⟩⟩

/-- Who waits as leader after an answer has just written, and keeps the ticker it had as leader. -/
theorem settle_leading {held : Revision} {ticker : Ticker}
    (leads : (candidate.settle now stage answer).task = .between (.leading held ticker)) :
    (∃ entry, answer = .ok entry ∧ held = entry.revision) ∧
      (stage = .electing ∧ ticker = .after now candidate.candidacy.renewEvery ∨
        ∃ earlier, stage = .leading earlier ticker) := by
  have settled := candidate.settled now stage answer
  generalize candidate.settle now stage answer = next at settled leads
  have origin {phase : Phase} {report : Option Outcome}
      (enters : stage.transition answer = .enter phase report)
      (entered : stage.enter candidate.candidacy now phase = .leading held ticker) :
      (∃ entry, answer = .ok entry ∧ held = entry.revision) ∧
        (stage = .electing ∧ ticker = .after now candidate.candidacy.renewEvery ∨
          ∃ earlier, stage = .leading earlier ticker) := by
    obtain ⟨rfl, fresh | kept⟩ := enter_eq_leading entered
    · obtain ⟨written, ⟨rfl, _⟩ | ⟨earlier, old, rfl, _⟩⟩ := Stage.transition_enter_leading enters
      · exact ⟨written, Or.inl ⟨rfl, fresh⟩⟩
      · cases entered
        exact ⟨written, Or.inr ⟨earlier, rfl⟩⟩
    · exact ⟨(Stage.transition_enter_leading enters).1, Or.inr kept⟩
  cases settled with
  | silent phase enters => exact origin enters (Task.between.inj leads)
  | told phase outcome enters => exact origin enters (Task.between.inj leads)
  | unheard | ended => cases leads

end Candidate

end Leasehold
