import Leasehold.Proofs.Scaling.Diary
import Leasehold.Proofs.Scaling.Protection

set_option autoImplicit false

/-!
The rhythm of the reconciles of a replica.

A replica notes down what it hears of its elections and when it begins to reconcile. The ticker runs
on while the replica follows, but each victory makes it due at once, so that nothing of the time before
counts. Reconciles that take no time are then begun on the beat of the victory, until something else is
heard. If they take time, the beat shifts: ticks that were missed are not made up.
-/

namespace Leasehold

namespace Note

def Apart : Note → Note → Prop
  | began _ doneAt, began instant _ => doneAt ≤ instant
  | _, _ => True

/-- If both begin a reconcile, an interval lies between them, but for the tolerance of the ticker. -/
def Spaced (interval : Nat) : Note → Note → Prop
  | began earlier _, began later _ => earlier + interval ≤ later + Ticker.tolerance
  | _, _ => True

def beats (interval since count : Nat) : List Note :=
  (List.range count).map fun beat => began (since + beat * interval) (since + beat * interval)

/-- The last victory in these notes, with what has been begun since, if nothing else has been heard. -/
def Reigns (diary : List Note) (since : Nat) (work : List Note) : Prop :=
  ∃ early, diary = early ++ heard .won since :: work ∧ ∀ note ∈ work, note.beginning?.isSome = true

/-- A victory in these notes, with what was begun until a note of another kind. -/
def Reigned (diary : List Note) (since : Nat) (work : List Note) (note : Note) : Prop :=
  ∃ earlier later, diary = earlier ++ note :: later ∧ Reigns earlier since work ∧
    note.beginning? = none

def OnBeat (interval since : Nat) (work : List Note) (last : Nat) : Prop :=
  ∃ count, work = beats interval since count ∧ (∀ beat < count, since + beat * interval ≤ last) ∧
    last ≤ since + count * interval

variable {diary work : List Note} {since instant doneAt interval : Nat} {note other : Note}

theorem apart_of_other (other : note.beginning? = none) (earlier : Note) : Apart earlier note := by
  cases note with
  | began => cases other
  | heard | broken => cases earlier <;> trivial

theorem spaced_of_other (other : note.beginning? = none) (earlier : Note) :
    Spaced interval earlier note := by
  cases note with
  | began => cases other
  | heard | broken => cases earlier <;> trivial

/-- The last of some items comes last in every part of them. -/
theorem concat_eq_split {early late : List Note} (whole : diary ++ [note] = early ++ other :: late) :
    late = [] ∧ early = diary ∧ other = note ∨
      ∃ before, late = before ++ [note] ∧ diary = early ++ other :: before := by
  rcases List.eq_nil_or_concat late with rfl | ⟨before, last, rfl⟩
  · obtain ⟨same, last⟩ := List.append_inj' whole rfl
    exact Or.inl ⟨rfl, same.symm, (List.head_eq_of_cons_eq last).symm⟩
  · rw [List.concat_eq_append, ← List.cons_append, ← List.append_assoc] at whole
    obtain ⟨same, last⟩ := List.append_inj' whole rfl
    rw [List.head_eq_of_cons_eq last]
    exact Or.inr ⟨before, List.concat_eq_append, same⟩

theorem beats_succ (interval since count : Nat) :
    beats interval since (count + 1) =
      beats interval since count ++ [began (since + count * interval) (since + count * interval)] := by
  rw [beats, List.range_succ, List.map_append]
  rfl

theorem length_beats (interval since count : Nat) : (beats interval since count).length = count := by
  rw [beats, List.length_map, List.length_range]

theorem not_reigns_nil : ¬Reigns [] since work := by
  rintro ⟨early, never, _⟩
  simp at never

theorem reigns_won (diary : List Note) (since : Nat) : Reigns (diary ++ [heard .won since]) since [] :=
  ⟨diary, rfl, fun _ never => by cases never⟩

theorem Reigns.begin (reigns : Reigns diary since work) (instant doneAt : Nat) :
    Reigns (diary ++ [began instant doneAt]) since (work ++ [began instant doneAt]) := by
  obtain ⟨early, rfl, all⟩ := reigns
  refine ⟨early, by rw [List.append_assoc, List.cons_append], ?_⟩
  intro note present
  rcases List.mem_append.mp present with old | new
  · exact all note old
  · rw [List.mem_singleton.mp new]
    rfl

/-- The notes since a victory end with the last of all notes. -/
theorem reigns_concat (reigns : Reigns (diary ++ [note]) since work) :
    note = heard .won since ∧ work = [] ∨
      note.beginning?.isSome = true ∧
        ∃ before, work = before ++ [note] ∧ Reigns diary since before := by
  obtain ⟨early, whole, all⟩ := reigns
  rcases concat_eq_split whole with ⟨rfl, _, same⟩ | ⟨before, rfl, same⟩
  · exact Or.inl ⟨same.symm, rfl⟩
  · refine Or.inr ⟨all note List.mem_concat_self, before, rfl, early, same, ?_⟩
    exact fun earlier present => all earlier (List.mem_append_left _ present)

theorem reigned_concat (reigned : Reigned (diary ++ [note]) since work other) :
    Reigned diary since work other ∨
      other = note ∧ note.beginning? = none ∧ Reigns diary since work := by
  obtain ⟨earlier, later, whole, reigns, ends⟩ := reigned
  rcases concat_eq_split whole with ⟨_, rfl, rfl⟩ | ⟨before, _, same⟩
  · exact Or.inr ⟨rfl, ends, reigns⟩
  · exact Or.inl ⟨earlier, before, same, reigns, ends⟩

end Note

namespace Fleet

variable {fleet next first : Fleet} {event : FleetEvent} {id : Nat} {replica after : Replica}
  {terms : BucketTerms} {events done : List FleetEvent}

/-! ### Order -/

structure Orderly (interval now : Nat) (replica : Replica) (diary : List Note) : Prop where
  /-- A replica leads if the last thing that it has heard is a victory. -/
  leads : replica.lead? ≠ none ↔ ∃ since work, Note.Reigns diary since work
  busy : ∀ term doneAt, replica.activity = .reconciling term doneAt → term.leading = true
  led : ∀ early instant doneAt late, diary = early ++ .began instant doneAt :: late →
    ∃ since work, Note.Reigns early since work
  apart : diary.Pairwise Note.Apart
  spaced : diary.IsChain (Note.Spaced interval)
  soon : ∀ ticker doneAt?, replica.lead? = some (ticker, doneAt?) → ∀ instant doneAt,
    diary.getLast? = some (.began instant doneAt) → instant + interval ≤ ticker.due + Ticker.tolerance
  finished : replica.isOver = false → ∀ instant doneAt, .began instant doneAt ∈ diary →
    doneAt ≤ now ∨ ∃ ticker later, replica.lead? = some (ticker, some later) ∧ doneAt ≤ later

variable {interval now : Nat} {diary : List Note} {note : Note}

namespace Orderly

theorem of_joining (joining : replica.activity = .joining) : Orderly interval now replica [] where
  leads := by
    refine iff_of_false (fun leads => leads (Replica.lead?_of_joining joining)) ?_
    rintro ⟨since, work, reigns⟩
    exact Note.not_reigns_nil reigns
  busy := fun term doneAt busy => absurd busy (Replica.not_reconciling_of_joining joining term doneAt)
  led := fun _ _ _ _ never => (by simp at never)
  apart := .nil
  spaced := .nil
  soon := by
    intro _ _ leads
    cases (Replica.lead?_of_joining joining).symm.trans leads
  finished := fun _ _ _ never => (by cases never)

/-- Nothing that a watching replica has begun goes on. -/
theorem done_of_watching {term : Term} (orderly : Orderly interval now replica diary)
    (watching : replica.activity = .watching term) :
    ∀ instant doneAt, .began instant doneAt ∈ diary → doneAt ≤ now := by
  intro instant doneAt present
  have going : replica.isOver = false := by simp only [Replica.isOver, watching]
  rcases orderly.finished going instant doneAt present with done | ⟨ticker, later, busy, _⟩
  · exact done
  · rw [Replica.lead?_of_watching watching] at busy
    split at busy <;> cases busy

/-- Something other than a reconcile is noted down. -/
theorem listen (orderly : Orderly interval now replica diary) (other : note.beginning? = none)
    (leads : after.lead? ≠ none ↔ ∃ instant, note = .heard .won instant)
    (busy : ∀ term doneAt, after.activity ≠ .reconciling term doneAt)
    (finished : after.isOver = false → ∀ instant doneAt, .began instant doneAt ∈ diary → doneAt ≤ now) :
    Orderly interval now after (diary ++ [note]) where
  leads := by
    rw [leads]
    constructor
    · rintro ⟨instant, rfl⟩
      exact ⟨instant, [], Note.reigns_won diary instant⟩
    · rintro ⟨since, work, reigns⟩
      rcases Note.reigns_concat reigns with ⟨won, _⟩ | ⟨begins, _⟩
      · exact ⟨since, won⟩
      · rw [other] at begins
        cases begins
  busy := fun term doneAt reconciling => absurd reconciling (busy term doneAt)
  led := by
    intro early instant doneAt late whole
    rcases Note.concat_eq_split whole with ⟨_, _, same⟩ | ⟨before, _, same⟩
    · rw [← same] at other
      cases other
    · exact orderly.led early instant doneAt before same
  apart := by
    refine List.pairwise_append.mpr ⟨orderly.apart, List.pairwise_singleton _ _, ?_⟩
    intro earlier _ later present
    rw [List.mem_singleton.mp present]
    exact Note.apart_of_other other earlier
  spaced := by
    refine List.isChain_append.mpr ⟨orderly.spaced, List.isChain_singleton _, ?_⟩
    intro earlier _ later present
    cases present
    exact Note.spaced_of_other other earlier
  soon := by
    intro _ _ _ instant doneAt last
    rw [List.getLast?_concat] at last
    cases last
    cases other
  finished := by
    intro going instant doneAt present
    rcases List.mem_append.mp present with old | new
    · exact Or.inl (finished going instant doneAt old)
    · rw [← List.mem_singleton.mp new] at other
      cases other

/-- A leader begins a reconcile as soon as its ticker is due. -/
theorem begin {ticker : Ticker} {doneAt : Nat} (orderly : Orderly interval now replica diary)
    (leads : replica.lead? = some (ticker, none))
    (done : ∀ instant doneAt, .began instant doneAt ∈ diary → doneAt ≤ now)
    (due : ticker.due ≤ now) (period : ticker.period = interval) (later : now ≤ doneAt)
    (goesOn : after.lead? = some (ticker.take now, some doneAt))
    (busy : ∀ term doneAt, after.activity = .reconciling term doneAt → term.leading = true) :
    Orderly interval now after (diary ++ [.began now doneAt]) := by
  obtain ⟨since, work, reigns⟩ := orderly.leads.mp (by rw [leads]; exact Option.some_ne_none _)
  refine ⟨⟨fun _ => ⟨since, _, reigns.begin _ _⟩, fun _ => ?_⟩, busy, ?_, ?_, ?_, ?_, ?_⟩
  · rw [goesOn]
    exact Option.some_ne_none _
  · intro early instant doneAt late whole
    rcases Note.concat_eq_split whole with ⟨_, rfl, _⟩ | ⟨before, _, same⟩
    · exact ⟨since, work, reigns⟩
    · exact orderly.led early instant doneAt before same
  · refine List.pairwise_append.mpr ⟨orderly.apart, List.pairwise_singleton _ _, ?_⟩
    intro earlier present later last
    rw [List.mem_singleton.mp last]
    cases earlier with
    | began instant doneAt => exact done instant doneAt present
    | heard | broken => trivial
  · refine List.isChain_append.mpr ⟨orderly.spaced, List.isChain_singleton _, ?_⟩
    intro earlier last later present
    cases present
    cases earlier with
    | began instant doneAt =>
        have soon := orderly.soon _ _ leads instant doneAt last
        exact Nat.le_trans soon (Nat.add_le_add_right due _)
    | heard | broken => trivial
  · intro next doneAt? leading instant doneAt last
    cases goesOn.symm.trans leading
    rw [List.getLast?_concat] at last
    cases last
    simp only [Ticker.take, period]
    split <;> omega
  · intro _ instant doneAt present
    refine Or.inr ⟨_, _, goesOn, ?_⟩
    rcases List.mem_append.mp present with old | new
    · exact Nat.le_trans (done instant doneAt old) later
    · cases List.mem_singleton.mp new
      exact Nat.le_refl _

theorem entry (orderly : Orderly interval fleet.contest.now replica diary) (paced : replica.Paced)
    (even : interval = replica.assignment.settings.scaleInterval) {jotted : List Note}
    (entry : fleet.DiaryEntry id replica event next after jotted) :
    Orderly interval next.contest.now after (diary ++ jotted) := by
  cases entry with
  | still same concluded busy clock =>
      rw [List.append_nil, clock]
      refine ⟨same ▸ orderly.leads, fun term doneAt reconciling =>
        orderly.busy term doneAt (busy term doneAt reconciling), orderly.led, orderly.apart,
        orderly.spaced, same ▸ orderly.soon, fun going => ?_⟩
      rw [same]
      refine orderly.finished (Bool.eq_false_iff.mpr fun ended => ?_)
      rw [concluded ended] at going
      cases going
  | waited same later awake =>
      subst same
      rw [List.append_nil]
      refine ⟨orderly.leads, orderly.busy, orderly.led, orderly.apart, orderly.spaced, orderly.soon, ?_⟩
      intro going instant doneAt present
      exact (orderly.finished going instant doneAt present).imp_left fun done => Nat.le_trans done later
  | heard term outcome watching leads idle clock =>
      rw [clock]
      refine orderly.listen rfl ?_ idle fun _ => orderly.done_of_watching watching
      rw [leads]
      by_cases won : outcome = .won
      · simp [won]
      · simp [won]
  | began term candidate duration own watching leads due goes clock =>
      have lead : replica.lead? = some (term.ticker, none) := by
        rw [Replica.lead?_of_watching watching, if_pos leads]
      have goesOn : after.lead? = some (term.ticker.take fleet.contest.now,
          some (fleet.contest.now + duration)) := by
        rw [Replica.lead?_of_reconciling goes]
        exact if_pos leads
      have period : term.ticker.period = interval :=
        (paced term (Replica.term?_of_watching watching)).trans even.symm
      rw [clock]
      refine orderly.begin lead (orderly.done_of_watching watching) due period
        (Nat.le_add_right _ _) goesOn ?_
      intro claim doneAt reconciling
      cases goes.symm.trans reconciling
      exact leads
  | resumed term doneAt reconciling due goes clock =>
      have leads := orderly.busy term doneAt reconciling
      have lead : replica.lead? = some (term.ticker, some doneAt) := by
        rw [Replica.lead?_of_reconciling reconciling, if_pos leads]
      have leadAfter : after.lead? = some (term.ticker, none) := by
        rw [Replica.lead?_of_watching goes, if_pos leads]
      rw [List.append_nil, clock]
      refine ⟨?_, ?_, orderly.led, orderly.apart, orderly.spaced, ?_, ?_⟩
      · rw [← orderly.leads, lead, leadAfter]
        exact iff_of_true (Option.some_ne_none _) (Option.some_ne_none _)
      · intro claim later reconciles
        cases goes.symm.trans reconciles
      · intro ticker doneAt? leading
        cases leadAfter.symm.trans leading
        exact orderly.soon _ _ lead
      · intro _ instant later present
        have going : replica.isOver = false := by simp only [Replica.isOver, reconciling]
        rcases orderly.finished going instant later present with done | ⟨ticker, last, busy, soon⟩
        · exact Or.inl done
        · cases lead.symm.trans busy
          exact Or.inl (Nat.le_trans soon due)
  | broken concluded clock =>
      rw [clock]
      refine orderly.listen rfl ?_ ?_ fun going => ?_
      · rw [Replica.lead?_of_over concluded]
        simp
      · intro term doneAt reconciling
        simp only [Replica.isOver, reconciling] at concluded
        cases concluded
      · rw [concluded] at going
        cases going

end Orderly

/-! ### Punctuality -/

structure Punctual (interval now : Nat) (replica : Replica) (diary : List Note) : Prop where
  going : ∀ since work, Note.Reigns diary since work → Note.OnBeat interval since work now
  past : ∀ since work note, Note.Reigned diary since work note →
    Note.OnBeat interval since work note.instant
  due : ∀ ticker doneAt?, replica.lead? = some (ticker, doneAt?) → ∀ since work,
    Note.Reigns diary since work → ticker.due = since + work.length * interval
  prompt : ∀ term doneAt, replica.activity = .reconciling term doneAt → doneAt ≤ now

namespace Punctual

theorem of_joining (joining : replica.activity = .joining) : Punctual interval now replica [] where
  going := fun _ _ reigns => absurd reigns Note.not_reigns_nil
  past := by
    rintro _ _ _ ⟨early, _, never, _⟩
    simp at never
  due := by
    intro _ _ leads
    cases (Replica.lead?_of_joining joining).symm.trans leads
  prompt := fun term doneAt busy => absurd busy (Replica.not_reconciling_of_joining joining term doneAt)

/-- A leader begins a reconcile on the beat, because its ticker is not due before that and time does
not pass beyond it. -/
theorem begin {ticker : Ticker} (punctual : Punctual interval now replica diary)
    (leads : replica.lead? = some (ticker, none)) (due : ticker.due ≤ now)
    (period : ticker.period = interval)
    (goesOn : after.lead? = some (ticker.take now, some now))
    (busy : ∀ term doneAt, after.activity = .reconciling term doneAt → doneAt ≤ now) :
    Punctual interval now after (diary ++ [.began now now]) := by
  have beat (since : Nat) (work : List Note)
      (reigns : Note.Reigns (diary ++ [.began now now]) since work) :
      ∃ count, work = Note.beats interval since (count + 1) ∧ now = since + count * interval ∧
        ticker.due = now := by
    rcases Note.reigns_concat reigns with ⟨never, _⟩ | ⟨_, before, rfl, reigned⟩
    · cases never
    · have onTime := punctual.due _ _ leads since before reigned
      obtain ⟨count, rfl, _, soon⟩ := punctual.going since before reigned
      rw [Note.length_beats] at onTime
      have same : now = since + count * interval := by omega
      exact ⟨count, by rw [Note.beats_succ, same], same, by omega⟩
  refine ⟨?_, ?_, ?_, busy⟩
  · intro since work reigns
    obtain ⟨count, rfl, same, _⟩ := beat since work reigns
    refine ⟨count + 1, rfl, fun earlier before => ?_, ?_⟩
    · have fewer := Nat.mul_le_mul_right interval (Nat.le_of_lt_succ before)
      omega
    · rw [Nat.succ_mul]
      omega
  · intro since work last reigned
    rcases Note.reigned_concat reigned with old | ⟨_, never, _⟩
    · exact punctual.past since work last old
    · cases never
  · intro next doneAt? leading since work reigns
    cases goesOn.symm.trans leading
    obtain ⟨count, rfl, same, onTime⟩ := beat since work reigns
    rw [← onTime, Ticker.due_take_of_eq, period, Note.length_beats, Nat.succ_mul]
    omega

theorem entry (punctual : Punctual interval fleet.contest.now replica diary)
    (orderly : Orderly interval fleet.contest.now replica diary) (paced : replica.Paced)
    (even : interval = replica.assignment.settings.scaleInterval)
    (instantly : ∀ candidate duration, event = .act (.proceed id .reconcile candidate duration) →
      duration = 0)
    {jotted : List Note} (entry : fleet.DiaryEntry id replica event next after jotted) :
    Punctual interval next.contest.now after (diary ++ jotted) := by
  have ending {note : Note} (instant : note.instant = fleet.contest.now) (since : Nat)
      (work : List Note) (last : Note)
      (reigned : Note.Reigned (diary ++ [note]) since work last) :
      Note.OnBeat interval since work last.instant := by
    rcases Note.reigned_concat reigned with old | ⟨rfl, _, reigns⟩
    · exact punctual.past since work last old
    · rw [instant]
      exact punctual.going since work reigns
  cases entry with
  | still same concluded busy clock =>
      rw [List.append_nil, clock]
      exact ⟨punctual.going, punctual.past, same ▸ punctual.due,
        fun term doneAt reconciling => punctual.prompt term doneAt (busy term doneAt reconciling)⟩
  | waited same later awake =>
      subst same
      rw [List.append_nil]
      refine ⟨?_, punctual.past, punctual.due, fun term doneAt reconciling =>
        Nat.le_trans (punctual.prompt term doneAt reconciling) later⟩
      intro since work reigns
      obtain ⟨count, rfl, early, soon⟩ := punctual.going since work reigns
      refine ⟨count, rfl, fun beat before => Nat.le_trans (early beat before) later, ?_⟩
      obtain ⟨⟨ticker, doneAt?⟩, leads⟩ :=
        Option.ne_none_iff_exists'.mp (orderly.leads.mpr ⟨since, _, reigns⟩)
      have due := punctual.due ticker doneAt? leads since _ reigns
      rw [Note.length_beats] at due
      rcases Replica.lead?_eq_some leads with ⟨term, watching, leading, rfl⟩ | ⟨term, doneAt, reconciling, _⟩
      · rw [← due]
        exact awake _ (by simp only [Replica.wakeAt?, watching, leading, if_true])
      · have wake := awake doneAt (by simp only [Replica.wakeAt?, reconciling])
        exact Nat.le_trans wake (Nat.le_trans (punctual.prompt term doneAt reconciling) soon)
  | heard term outcome watching leads idle clock =>
      rw [clock]
      refine ⟨?_, ending rfl, ?_, fun term doneAt reconciling =>
        absurd reconciling (idle term doneAt)⟩
      · intro since work reigns
        rcases Note.reigns_concat reigns with ⟨won, rfl⟩ | ⟨begins, _⟩
        · cases won
          exact ⟨0, rfl, fun _ never => absurd never (Nat.not_lt_zero _), Nat.le_add_right _ _⟩
        · cases begins
      · intro ticker doneAt? leading since work reigns
        rcases Note.reigns_concat reigns with ⟨won, rfl⟩ | ⟨begins, _⟩
        · cases won
          rw [if_pos rfl] at leads
          cases leads.symm.trans leading
          rw [List.length_nil, Nat.zero_mul, Nat.add_zero]
        · cases begins
  | began term candidate duration own watching leads due goes clock =>
      obtain rfl := instantly candidate duration own
      rw [Nat.add_zero] at goes ⊢
      have lead : replica.lead? = some (term.ticker, none) := by
        rw [Replica.lead?_of_watching watching, if_pos leads]
      have goesOn : after.lead? =
          some (term.ticker.take fleet.contest.now, some fleet.contest.now) := by
        rw [Replica.lead?_of_reconciling goes]
        exact if_pos leads
      have period : term.ticker.period = interval :=
        (paced term (Replica.term?_of_watching watching)).trans even.symm
      rw [clock]
      refine punctual.begin lead due period goesOn ?_
      intro claim doneAt reconciling
      cases goes.symm.trans reconciling
      exact Nat.le_refl _
  | resumed term doneAt reconciling due goes clock =>
      have leads := orderly.busy term doneAt reconciling
      have lead : replica.lead? = some (term.ticker, some doneAt) := by
        rw [Replica.lead?_of_reconciling reconciling, if_pos leads]
      have leadAfter : after.lead? = some (term.ticker, none) := by
        rw [Replica.lead?_of_watching goes, if_pos leads]
      rw [List.append_nil, clock]
      refine ⟨punctual.going, punctual.past, ?_, ?_⟩
      · intro ticker doneAt? leading
        cases leadAfter.symm.trans leading
        exact punctual.due _ _ lead
      · intro claim later reconciles
        cases goes.symm.trans reconciles
  | broken concluded clock =>
      rw [clock]
      refine ⟨?_, ending rfl, ?_, ?_⟩
      · intro since work reigns
        rcases Note.reigns_concat reigns with ⟨never, _⟩ | ⟨never, _⟩ <;> cases never
      · intro ticker doneAt? leading
        rw [Replica.lead?_of_over concluded] at leading
        cases leading
      · intro term doneAt reconciling
        simp only [Replica.isOver, reconciling] at concluded
        cases concluded

end Punctual

/-! ### Every run -/

def Effortless (id : Nat) (events : List FleetEvent) : Prop :=
  ∀ candidate duration, .act (.proceed id .reconcile candidate duration) ∈ events → duration = 0

/-- What happens is noted down at once, one thing at a time. -/
theorem DiaryEntry.instant {jotted : List Note}
    (entry : fleet.DiaryEntry id replica event next after jotted) :
    fleet.contest.now ≤ next.contest.now ∧
      (jotted = [] ∨ ∃ note, jotted = [note] ∧ note.instant = fleet.contest.now) := by
  cases entry with
  | still _ _ _ clock | resumed _ _ _ _ _ clock => exact ⟨Nat.le_of_eq clock.symm, Or.inl rfl⟩
  | waited _ later => exact ⟨later, Or.inl rfl⟩
  | heard _ _ _ _ _ clock | began _ _ _ _ _ _ _ _ clock | broken _ clock =>
      exact ⟨Nat.le_of_eq clock.symm, Or.inr ⟨_, rfl, rfl⟩⟩

structure Kept (fleet : Fleet) (id : Nat) (replica : Replica) (events : List FleetEvent)
    (diary : List Note) : Prop where
  paced : replica.Paced
  known : ∀ note ∈ diary, note.instant ≤ fleet.contest.now
  ordered : diary.Pairwise fun earlier later => earlier.instant ≤ later.instant
  recorded : (fleet.reconcilesOf id).map ReconcileRecord.startedAt =
    (diary.filterMap Note.beginning?).reverse
  orderly : Orderly replica.assignment.settings.scaleInterval fleet.contest.now replica diary
  punctual : Effortless id events →
    Punctual replica.assignment.settings.scaleInterval fleet.contest.now replica diary

namespace Kept

theorem of_joining (joining : replica.activity = .joining) (idle : fleet.reconcilesOf id = []) :
    fleet.Kept id replica events [] where
  paced := by
    intro term current
    rw [Replica.term?, joining] at current
    cases current
  known := fun _ never => (by cases never)
  ordered := .nil
  recorded := by
    rw [idle]
    rfl
  orderly := .of_joining joining
  punctual := fun _ => .of_joining joining

theorem notedStep {diary : List Note} (kept : fleet.Kept id replica done diary)
    (noted : fleet.NotedStep id replica event next after) :
    next.Kept id after (done ++ [event]) (diary ++ fleet.notes id event) where
  paced := noted.paced kept.paced
  known := by
    obtain ⟨later, jotted⟩ := noted.entry.instant
    intro note present
    rcases List.mem_append.mp present with old | new
    · exact Nat.le_trans (kept.known note old) later
    · rcases jotted with none | ⟨only, single, instant⟩
      · rw [none] at new
        cases new
      · rw [single] at new
        rw [List.mem_singleton.mp new, instant]
        exact later
  ordered := by
    obtain ⟨_, none | ⟨only, single, instant⟩⟩ := noted.entry.instant
    · rw [none, List.append_nil]
      exact kept.ordered
    · rw [single]
      refine List.pairwise_append.mpr ⟨kept.ordered, List.pairwise_singleton _ _, ?_⟩
      intro earlier present later last
      rw [List.mem_singleton.mp last, instant]
      exact kept.known earlier present
  recorded := by
    rw [noted.counted, kept.recorded, List.filterMap_append, List.reverse_append]
  orderly := by
    rw [noted.same]
    exact kept.orderly.entry kept.paced rfl noted.entry
  punctual := by
    intro effortless
    rw [noted.same]
    have before : Effortless id done := fun candidate duration present =>
      effortless candidate duration (List.mem_append_left _ present)
    refine (kept.punctual before).entry kept.orderly kept.paced rfl ?_ noted.entry
    rintro candidate duration rfl
    exact effortless candidate duration List.mem_concat_self

end Kept

theorem kept_of_run (run : (opening terms).steps? events = some fleet) :
    (∀ id, fleet.replicas[id]? = none → (opening terms).diary id events = []) ∧
      ∀ id replica, fleet.replicas[id]? = some replica →
        fleet.Kept id replica events ((opening terms).diary id events) := by
  refine Runs.induct (motive := fun events fleet =>
    (∀ id, fleet.replicas[id]? = none → (opening terms).diary id events = []) ∧
      ∀ id replica, fleet.replicas[id]? = some replica →
        fleet.Kept id replica events ((opening terms).diary id events))
    ⟨fun _ _ => rfl, fun _ _ never => by cases never⟩ ?_ events run
  intro events fleet event next ran known stepped
  obtain ⟨blank, kept⟩ := known
  have careers := careers_of_run ran
  have happened := eventEffect_of_step? stepped
  have newcomer (id : Nat) (missing : fleet.replicas[id]? = none) :
      (opening terms).diary id (events ++ [event]) = [] := by
    rw [diary_concat ran, blank id missing]
    simp only [notes, missing, List.append_nil]
  constructor
  · intro id missing
    cases found : fleet.replicas[id]? with
    | none => exact newcomer id found
    | some replica =>
        obtain ⟨after, noted⟩ := notedStep_of_step? careers stepped found
        cases noted.there.symm.trans missing
  · intro id after there
    cases found : fleet.replicas[id]? with
    | none =>
        obtain ⟨_, unworked, joins⟩ := happened.newcomer found
        rw [newcomer id found]
        exact .of_joining (joins after there)
          (unworked.trans (careers.unworked id (careers.unknown id found)))
    | some replica =>
        obtain ⟨same, noted⟩ := notedStep_of_step? careers stepped found
        cases noted.there.symm.trans there
        rw [diary_concat ran]
        exact (kept id replica found).notedStep noted

structure Rhythm (fleet : Fleet) (id : Nat) (replica : Replica) (events : List FleetEvent)
    (diary : List Note) : Prop where
  recorded : diary.filterMap Note.beginning? =
    ((fleet.reconcilesOf id).map ReconcileRecord.startedAt).reverse
  ordered : diary.Pairwise fun earlier later => earlier.instant ≤ later.instant
  /-- Nothing is begun unless a victory is the last thing that has been heard. -/
  led : ∀ early instant doneAt late, diary = early ++ .began instant doneAt :: late →
    ∃ since work, Note.Reigns early since work
  apart : diary.Pairwise Note.Apart
  spaced : diary.IsChain (Note.Spaced replica.assignment.settings.scaleInterval)
  going : Effortless id events → ∀ since work, Note.Reigns diary since work →
    Note.OnBeat replica.assignment.settings.scaleInterval since work fleet.contest.now
  past : Effortless id events → ∀ since work note, Note.Reigned diary since work note →
    Note.OnBeat replica.assignment.settings.scaleInterval since work note.instant
  /-- All that is reported at one instant is heard at that instant. -/
  prompt : Effortless id events → fleet.quiet = true → ∀ term member, replica.term? = some term →
    fleet.contest.members[term.member]? = some member →
    member.candidate.reports.length ≤ term.heard

/-- Whatever fails and whoever leads meanwhile, the reconciles of a replica do not overlap, and an
interval lies between any two of one reign. If they take no time, each victory is followed by one at
once and by one after each interval, until something else is heard. -/
theorem rhythm_of_run (run : (opening terms).steps? events = some fleet)
    (found : fleet.replicas[id]? = some replica) :
    fleet.Rhythm id replica events ((opening terms).diary id events) := by
  have kept := (kept_of_run run).2 id replica found
  refine ⟨?_, kept.ordered, kept.orderly.led, kept.orderly.apart, kept.orderly.spaced,
    fun effortless => (kept.punctual effortless).going,
    fun effortless => (kept.punctual effortless).past, ?_⟩
  · rw [kept.recorded, List.reverse_reverse]
  · intro effortless quiet term member current seated
    have prompt (doneAt : Nat) (busy : replica.activity = .reconciling term doneAt) :
        doneAt ≤ fleet.contest.now := (kept.punctual effortless).prompt term doneAt busy
    exact (at_ease quiet found current prompt seated).1

/-- A leader reconciles in no time at each second, until its lease is taken away and the renewal fails.
A second later it is elected again, half a second off its former beat. -/
def reelected : List FleetEvent :=
  [.act (.add twin), .act (.proceed 0 .join ⟨"x"⟩ 0), .act (.among (.proceed 0 {})),
    .act (.among (.proceed 0 {})), .act (.among (.proceed 0 {})), .act (.proceed 0 .hear ⟨""⟩ 0),
    .act (.proceed 0 .reconcile ⟨""⟩ 0), .act (.proceed 0 .resume ⟨""⟩ 0),
    .act (.passTo 1_000_000_000), .act (.proceed 0 .reconcile ⟨""⟩ 0),
    .act (.proceed 0 .resume ⟨""⟩ 0), .act (.passTo 1_500_000_000),
    .act (.among (.perform (.delete "f-leader"))), .act (.among (.proceed 0 {})),
    .act (.among (.proceed 0 {})), .act (.among (.proceed 0 {})), .act (.proceed 0 .hear ⟨""⟩ 0),
    .act (.passTo 2_500_000_000), .act (.among (.proceed 0 {})), .act (.among (.proceed 0 {})),
    .act (.among (.proceed 0 {})), .act (.among (.proceed 0 {})), .act (.among (.proceed 0 {})),
    .act (.among (.proceed 0 {})), .act (.proceed 0 .hear ⟨""⟩ 0),
    .act (.proceed 0 .reconcile ⟨""⟩ 0), .act (.proceed 0 .resume ⟨""⟩ 0)]

def afterReelected : Fleet where
  contest :=
    { bucket :=
        { terms := ⟨"b", 2_000_000_000⟩
          records := [("f-leader", ⟨Text.encode "x", ⟨2⟩, 2_500_000_000⟩)]
          revision := ⟨2⟩ }
      now := 2_500_000_000
      members :=
        [{ candidate :=
            { candidacy := { twin.candidacy with candidate := ⟨"x"⟩ }
              task := .between (.leading ⟨2⟩ ⟨4_000_000_000, 1_500_000_000⟩)
              listening := true
              reports := [.won, .lost, .won] }
           context := "c" }]
      calls :=
        [⟨0, .create, 2_500_000_000, 2_500_000_000,
            some (2_500_000_000, .ok ⟨"f-leader", Text.encode "x", ⟨2⟩⟩), false⟩,
          ⟨0, .poll, 2_500_000_000, 2_500_000_000,
            some (2_500_000_000, .error (.keyNotFound "f-leader")), false⟩,
          ⟨0, .renew ⟨1⟩, 1_500_000_000, 1_500_000_000,
            some (1_500_000_000, .error (.keyNotFound "f-leader")), false⟩,
          ⟨0, .create, 0, 0, some (0, .ok ⟨"f-leader", Text.encode "x", ⟨1⟩⟩), false⟩] }
  replicas := [⟨twin, .watching ⟨0, 3, true, false, ⟨3_500_000_000, 1_000_000_000⟩⟩⟩]
  reconciles := [⟨0, 2_500_000_000⟩, ⟨0, 1_000_000_000⟩, ⟨0, 0⟩]

theorem run_reelected : (opening ⟨"b", 2_000_000_000⟩).steps? reelected = some afterReelected := by
  rfl

theorem diary_reelected : (opening ⟨"b", 2_000_000_000⟩).diary 0 reelected =
    [.heard .won 0, .began 0 0, .began 1_000_000_000 1_000_000_000, .heard .lost 1_500_000_000,
      .heard .won 2_500_000_000, .began 2_500_000_000 2_500_000_000] := by
  rfl

theorem effortless_reelected : Effortless 0 reelected := by
  intro candidate duration present
  have reconciles : candidate = ⟨""⟩ ∧ duration = 0 := by simpa [reelected] using present
  exact reconciles.2

/-- Of the two reigns one is over, and the other has its first beat behind it. -/
theorem rhythm_afterReelected :
    (opening ⟨"b", 2_000_000_000⟩).steps? reelected = some afterReelected ∧
      Effortless 0 reelected ∧
      afterReelected.Rhythm 0 ⟨twin, .watching ⟨0, 3, true, false, ⟨3_500_000_000, 1_000_000_000⟩⟩⟩
        reelected [.heard .won 0, .began 0 0, .began 1_000_000_000 1_000_000_000,
          .heard .lost 1_500_000_000, .heard .won 2_500_000_000,
          .began 2_500_000_000 2_500_000_000] :=
  ⟨run_reelected, effortless_reelected, diary_reelected ▸ rhythm_of_run run_reelected rfl⟩

end Fleet

end Leasehold
