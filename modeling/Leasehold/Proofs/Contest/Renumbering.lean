import Leasehold.Proofs.Contest.Excerpt

set_option autoImplicit false

/-!
New numbers for the revisions of one key: how many writes of the key there have been up to a revision.

These numbers go up with every write of the key and stand still while other keys are written, just as
if there were no other keys.
-/

namespace Leasehold

namespace Deed

def writes (key : String) (history : List Deed) : List Deed :=
  history.filter fun deed => deed.key = key && deed.kind ≠ .removed

def renumber (history : List Deed) (key : String) (revision : Revision) : Revision :=
  ⟨.ofNat ((writes key history).countP (·.revision.toNat ≤ revision.toNat))⟩

def Given (history : List Deed) (key : String) (revision : Revision) : Prop :=
  ∃ deed ∈ writes key history, deed.revision = revision

variable {history past future : List Deed} {key : String} {revision other : Revision} {deed : Deed}

theorem mem_writes : deed ∈ writes key history ↔
    deed ∈ history ∧ deed.key = key ∧ deed.kind ≠ .removed := by
  simp [writes]

theorem writes_append : writes key (past ++ future) = writes key past ++ writes key future :=
  List.filter_append ..

theorem Given.before (given : Given past key revision) : Given (past ++ future) key revision := by
  obtain ⟨deed, done, same⟩ := given
  exact ⟨deed, writes_append ▸ List.mem_append_left _ done, same⟩

section Countable

variable (countable : (writes key history).length < Revision.last)

include countable

theorem toNat_renumber : (renumber history key revision).toNat =
    (writes key history).countP (·.revision.toNat ≤ revision.toNat) := by
  have bound : (writes key history).countP (·.revision.toNat ≤ revision.toNat) ≤
    (writes key history).length := List.countP_le_length
  refine UInt64.toNat_ofNat_of_lt' ?_
  unfold Revision.last at countable
  omega

/-- Each write of the key brings a new number. -/
theorem renumber_lt (given : Given history key other) (less : revision.toNat < other.toNat) :
    (renumber history key revision).toNat < (renumber history key other).toNat := by
  rw [toNat_renumber countable, toNat_renumber countable]
  obtain ⟨deed, done, rfl⟩ := given
  obtain ⟨earlier, later, split⟩ := List.append_of_mem done
  have wider (writes : List Deed) : writes.countP (·.revision.toNat ≤ revision.toNat) ≤
      writes.countP (·.revision.toNat ≤ deed.revision.toNat) := by
    refine List.countP_mono_left fun write _ below => ?_
    simp only [decide_eq_true_eq] at below ⊢
    omega
  have before := wider earlier
  have after := wider later
  rw [split, List.countP_append, List.countP_append,
    List.countP_cons_of_neg (by simpa using less), List.countP_cons_of_pos (by simp)]
  omega

/-- The revisions of a key keep apart. -/
theorem renumber_inj (given : Given history key revision) (givenToo : Given history key other)
    (same : renumber history key revision = renumber history key other) : revision = other := by
  rcases Nat.lt_trichotomy revision.toNat other.toNat with less | equal | more
  · have apart := renumber_lt countable givenToo less
    rw [same] at apart
    exact absurd apart (Nat.lt_irrefl _)
  · exact Revision.toNat_inj.mp equal
  · have apart := renumber_lt countable given more
    rw [same] at apart
    exact absurd apart (Nat.lt_irrefl _)

end Countable

/-- The number of a counter between past and future is that of the past writes. -/
theorem toNat_renumber_between (countable : (writes key (past ++ future)).length < Revision.last)
    (old : ∀ deed ∈ past, deed.revision.toNat ≤ revision.toNat)
    (new : ∀ deed ∈ future, deed.kind ≠ .removed → revision.toNat < deed.revision.toNat) :
    (renumber (past ++ future) key revision).toNat = (writes key past).length := by
  have all : (writes key past).countP (·.revision.toNat ≤ revision.toNat) =
      (writes key past).length :=
    List.countP_eq_length.mpr fun deed done => decide_eq_true (old deed (mem_writes.mp done).1)
  have none : (writes key future).countP (·.revision.toNat ≤ revision.toNat) = 0 := by
    refine List.countP_eq_zero.mpr fun deed done below => ?_
    obtain ⟨later, _, changes⟩ := mem_writes.mp done
    exact absurd (of_decide_eq_true below) (Nat.not_le.mpr (new deed later changes))
  rw [toNat_renumber countable, writes_append, List.countP_append, all, none, Nat.add_zero]

end Deed

namespace Contest

variable {contest next first : Contest} {action : Action} {actions done : List Action}
  {past future : List Deed} {key : String}

/-! ### The counter along a run -/

theorem chronicle_append (run : first.run? done = some contest) (rest : List Action) :
    first.chronicle (done ++ rest) = first.chronicle done ++ contest.chronicle rest := by
  induction done generalizing first with
  | nil =>
      cases run
      rfl
  | cons action done ih =>
      rw [run?, List.foldlM_cons, Option.bind_eq_bind, Option.bind_eq_some_iff] at run
      obtain ⟨next, acted, ran⟩ := run
      simp only [List.cons_append, chronicle, acted, Option.map_some, Option.getD_some, ih ran,
        List.append_assoc]

theorem revision_le_of_run (run : first.run? actions = some contest) :
    first.bucket.revision.toNat ≤ contest.bucket.revision.toNat := by
  refine run_induction (motive := fun _ contest =>
    first.bucket.revision.toNat ≤ contest.bucket.revision.toNat) (Nat.le_refl _) ?_ actions contest
    run
  intro _ _ _ _ _ grown turn
  exact Nat.le_trans grown turn.revision_le

/-- A write takes the next value of the counter. -/
theorem Turn.wrote {deed : Deed} (turn : Turn contest action next)
    (done : contest.deed? action = some deed) (writes : deed.kind ≠ .removed) :
    deed.revision = next.bucket.revision ∧ next.bucket.revision = contest.bucket.revision.next := by
  obtain ⟨_, _, changed⟩ := turn.changed
  rw [done] at changed
  cases changed with
  | wrote _ _ _ counter => exact ⟨rfl, counter⟩
  | removed => exact absurd rfl writes

theorem Turn.newer {deed : Deed} (turn : Turn contest action next)
    (room : next.bucket.revision.toNat < Revision.last)
    (done : contest.deed? action = some deed) (writes : deed.kind ≠ .removed) :
    next.bucket.revision.toNat = contest.bucket.revision.toNat + 1 := by
  obtain ⟨_, counter⟩ := turn.wrote done writes
  rw [counter, Revision.toNat_next] at room ⊢
  omega

theorem newer_of_run (run : first.run? actions = some contest)
    (room : contest.bucket.revision.toNat < Revision.last) :
    ∀ deed ∈ first.chronicle actions, deed.kind ≠ .removed →
      first.bucket.revision.toNat < deed.revision.toNat := by
  refine run_induction (motive := fun actions contest =>
    contest.bucket.revision.toNat < Revision.last → ∀ deed ∈ first.chronicle actions,
      deed.kind ≠ .removed → first.bucket.revision.toNat < deed.revision.toNat) ?_ ?_ actions
    contest run room
  · intro _ deed never
    cases never
  · intro actions contest action next ran ih turn room deed done writes
    rw [chronicle_concat ran] at done
    rcases List.mem_append.mp done with old | new
    · exact ih (Nat.lt_of_le_of_lt turn.revision_le room) deed old writes
    · have does := Option.mem_toList.mp new
      have grown := turn.newer room does writes
      have began := revision_le_of_run ran
      rw [(turn.wrote does writes).1]
      omega

/-- No key has been written more often than the counter says. -/
theorem countable_of_run (run : first.run? actions = some contest)
    (room : contest.bucket.revision.toNat < Revision.last) :
    (Deed.writes key (first.chronicle actions)).length ≤ contest.bucket.revision.toNat := by
  refine run_induction (motive := fun actions contest =>
    contest.bucket.revision.toNat < Revision.last →
      (Deed.writes key (first.chronicle actions)).length ≤ contest.bucket.revision.toNat) ?_ ?_
    actions contest run room
  · intro _
    exact Nat.zero_le _
  · intro actions contest action next ran ih turn room
    have earlier := ih (Nat.lt_of_le_of_lt turn.revision_le room)
    rw [chronicle_concat ran, Deed.writes_append, List.length_append]
    cases new : Deed.writes key (contest.deed? action).toList with
    | nil => exact Nat.le_trans earlier turn.revision_le
    | cons deed rest =>
        have kept : deed ∈ Deed.writes key (contest.deed? action).toList := by
          rw [new]
          exact List.mem_cons_self
        obtain ⟨done, _, writes⟩ := Deed.mem_writes.mp kept
        have grown := turn.newer room (Option.mem_toList.mp done) writes
        have single : (Deed.writes key (contest.deed? action).toList).length ≤ 1 :=
          Nat.le_trans (List.length_filter_le _ _) Option.length_toList_le
        rw [new] at single
        omega

/-! ### Whose key a deed was about -/

def Keyed (contest : Contest) (history : List Deed) : Prop :=
  ∀ deed ∈ history, ∀ id, deed.author = some id →
    ∃ member, contest.members[id]? = some member ∧ member.key = deed.key

theorem key_of_deed? {deed : Deed} {id : Nat} (done : contest.deed? action = some deed)
    (author : deed.author = some id) :
    ∃ member, contest.members[id]? = some member ∧ member.key = deed.key := by
  cases action with
  | perform operation =>
      obtain ⟨_, _, _, _, _, rfl⟩ := Bucket.deed?_eq_some done
      cases author
  | proceed other plan =>
      obtain ⟨member, stage, _, _, found, _, _, done⟩ := deed?_proceed_eq_some done
      obtain ⟨_, _, _, _, _, rfl⟩ := Bucket.deed?_eq_some done
      obtain rfl : other = id := Option.some.inj author
      exact ⟨member, found, (Call.key_operation _ _).symm⟩
  | _ => cases done

theorem keyed_of_run (run : first.run? actions = some contest) :
    contest.Keyed (first.chronicle actions) := by
  refine run_induction (motive := fun actions contest => contest.Keyed (first.chronicle actions))
    ?_ ?_ actions contest run
  · intro deed never
    cases never
  · intro actions contest action next ran ih turn deed done id author
    rw [chronicle_concat ran] at done
    have was : ∃ member, contest.members[id]? = some member ∧ member.key = deed.key := by
      rcases List.mem_append.mp done with old | new
      · exact ih deed old id author
      · exact key_of_deed? (Option.mem_toList.mp new) author
    obtain ⟨member, found, named⟩ := was
    obtain ⟨after, there, terms, _⟩ := turn.persists found
    exact ⟨after, there, (congrArg Candidacy.key terms).trans named⟩

/-! ### The new numbers fit -/

theorem Annals.given_of_record {record : Record} (annals : contest.Annals past)
    (held : contest.bucket.record? key = some record) : Deed.Given past key record.revision := by
  obtain ⟨earlier, deed, whole, writes, stamp, _⟩ := annals.recorded.latest key record held
  have last : deed ∈ Deed.on key past := whole ▸ List.mem_append_right _ (List.mem_singleton_self deed)
  exact ⟨deed, Deed.mem_writes.mpr ⟨Deed.mem_of_mem_on last,
    of_decide_eq_true (List.mem_filter.mp last).2, writes⟩, stamp⟩

/-- What an action compares has been given out, if third parties keep to what they were told. -/
theorem Annals.given_of_compares {expected : Revision} (annals : contest.Annals past)
    (keyed : contest.Keyed past) (compares : contest.Compares key action expected)
    (told : ∀ value expected, action = .perform (.update key value expected) →
      Deed.Given past key expected) : Deed.Given past key expected := by
  cases compares with
  | direct value expected => exact told value expected rfl
  | renewal id plan member held ticker began found named calling =>
      obtain ⟨deed, done, author, writes, stamp⟩ := annals.owned id member found expected
        (.leading expected ticker (Candidate.stage?_of_calling calling))
      obtain ⟨owner, there, here⟩ := keyed deed done id author
      cases found.symm.trans there
      exact ⟨deed, Deed.mem_writes.mpr ⟨done, here.symm.trans named, writes⟩, stamp⟩

/-- The numbers of the counter before and after a write. -/
theorem Turn.renumbered {deed : Deed} (turn : Turn contest action next)
    (annals : contest.Annals past) (room : next.bucket.revision.toNat < Revision.last)
    (done : contest.deed? action = some deed) (writes : deed.kind ≠ .removed)
    (new : ∀ deed ∈ future, deed.kind ≠ .removed →
      next.bucket.revision.toNat < deed.revision.toNat)
    (countable : (Deed.writes key (past ++ deed :: future)).length < Revision.last) :
    (Deed.renumber (past ++ deed :: future) key contest.bucket.revision).toNat =
        (Deed.writes key past).length ∧
      (Deed.renumber (past ++ deed :: future) key next.bucket.revision).toNat =
        (Deed.writes key (past ++ [deed])).length := by
  have grown := turn.newer room done writes
  have stamp := congrArg Revision.toNat (turn.wrote done writes).1
  have old := annals.recorded.counted
  constructor
  · refine Deed.toNat_renumber_between countable old fun other later changes => ?_
    rcases List.mem_cons.mp later with rfl | later
    · omega
    · have ahead := new other later changes
      omega
  · rw [List.append_cons] at countable ⊢
    refine Deed.toNat_renumber_between countable (fun other earlier => ?_) new
    rcases List.mem_append.mp earlier with earlier | last
    · have behind := old other earlier
      omega
    · rw [List.mem_singleton.mp last]
      omega

theorem Turn.fits (turn : Turn contest action next) (annals : contest.Annals past)
    (keyed : contest.Keyed past) (room : next.bucket.revision.toNat < Revision.last)
    (new : ∀ deed ∈ future, deed.kind ≠ .removed →
      next.bucket.revision.toNat < deed.revision.toNat)
    (countable : (Deed.writes key (past ++ ((contest.deed? action).toList ++ future))).length <
      Revision.last)
    (told : ∀ value expected, action = .perform (.update key value expected) →
      Deed.Given past key expected) :
    contest.Fits (Deed.renumber (past ++ ((contest.deed? action).toList ++ future)) key) key
      action := by
  refine ⟨?_, ?_, ?_⟩
  · intro deed done writes named
    rw [done, Option.toList_some, List.singleton_append] at countable ⊢
    obtain ⟨before, after⟩ := turn.renumbered annals room done writes new countable
    rw [← (turn.wrote done writes).2]
    refine Revision.toNat_inj.mp ?_
    have one : Deed.writes key [deed] = [deed] := by simp [Deed.writes, named, writes]
    rw [Deed.writes_append, one, List.length_append, List.length_singleton] at after
    rw [Revision.toNat_next, before, after]
    rw [Deed.writes_append, List.length_append, ← List.singleton_append, Deed.writes_append, one,
      List.length_append, List.length_singleton] at countable
    omega
  · intro deed done writes elsewhere
    rw [done, Option.toList_some, List.singleton_append] at countable ⊢
    obtain ⟨before, after⟩ := turn.renumbered annals room done writes new countable
    rw [← (turn.wrote done writes).2]
    refine Revision.toNat_inj.mp ?_
    have none : Deed.writes key [deed] = [] := by simp [Deed.writes, elsewhere]
    rw [Deed.writes_append, none, List.append_nil] at after
    rw [before, after]
  · intro expected record compares held same
    exact Deed.renumber_inj countable (annals.given_of_record held).before
      (annals.given_of_compares keyed compares told).before same

end Contest

end Leasehold
