import Leasehold.Proofs.Seats
import Leasehold.Proofs.Election.Renamed
import Leasehold.Proofs.Contest.Chronicle
import Leasehold.Proofs.Contest.MemberStep

set_option autoImplicit false

/-!
The part of a contest that concerns one key.

The excerpt of a contest is a contest again: the members for the key under numbers of their own, their
calls, and the bucket with the records of the key under other revisions. An action for the key does
the same to the excerpt, an action for another key does nothing to it, and signals and the clock are
common to all.
-/

namespace Leasehold

namespace Contest

def keys (contest : Contest) : List String := contest.members.map Member.key

/-- The calls of the members for a key, under the numbers that these have among themselves. -/
def excerptCalls (keys : List String) (rename : Revision → Revision) (key : String)
    (calls : List CallRecord) : List CallRecord :=
  Seats.relist keys key CallRecord.member
    (fun seat record => { record.renamed rename with member := seat }) calls

def excerpt (contest : Contest) (rename : Revision → Revision) (key : String) : Contest where
  bucket := contest.bucket.excerpt rename key
  now := contest.now
  cancelled := contest.cancelled
  members := (Seats.pick Member.key key contest.members).map (Member.renamed rename)
  calls := excerptCalls contest.keys rename key contest.calls

def excerptOf (contest : Contest) (rename : Revision → Revision) (key : String) :
    Action → List Action
  | .nominate candidacy => if candidacy.key = key then [.nominate candidacy] else []
  | .start id context => addressed id (.start · context)
  | .stop id => addressed id .stop
  | .deafen id => addressed id .deafen
  | .cancel context => [.cancel context]
  | .perform operation => if operation.key = key then [.perform (operation.renamed rename)] else []
  | .inject failure => [.inject failure]
  | .proceed id plan => addressed id (.proceed · plan)
  | .passTo instant => [.passTo instant]
where
  addressed (id : Nat) (of : Nat → Action) : List Action := Seats.addressed contest.keys key id of

def Seated (contest : Contest) : Prop :=
  ∀ record ∈ contest.calls, record.member < contest.members.length

variable {contest next : Contest} {action : Action} {rename : Revision → Revision} {key : String}
  {id : Nat} {member after : Member}

/-! ### One member -/

theorem keys_put (found : contest.members[id]? = some member) (kept : after.key = member.key) :
    (contest.put id after).keys = contest.keys :=
  Seats.map_set found kept

theorem found_excerpt (found : contest.members[id]? = some member) (named : member.key = key) :
    (contest.excerpt rename key).members[Seats.seat contest.keys key id]? =
      some (member.renamed rename) := by
  have picked := Seats.getElem?_pick found named
  simp only [excerpt, keys, List.getElem?_map, picked, Option.map_some]

theorem excerpt_put (found : contest.members[id]? = some member) (named : member.key = key)
    (kept : after.key = member.key) :
    (contest.put id after).excerpt rename key =
      (contest.excerpt rename key).put (Seats.seat contest.keys key id) (after.renamed rename) := by
  have picked := Seats.pick_set found named (kept.trans named)
  simp only [excerpt, keys_put found kept]
  simp only [put, picked, List.map_set]
  rfl

theorem excerpt_put_of_ne (found : contest.members[id]? = some member) (apart : member.key ≠ key)
    (kept : after.key = member.key) :
    (contest.put id after).excerpt rename key = contest.excerpt rename key := by
  have picked := Seats.pick_set_of_ne found apart kept
  simp only [excerpt, keys_put found kept]
  simp only [put, picked]

theorem excerpt_put_bucket {bucket : Bucket} (found : contest.members[id]? = some member)
    (named : member.key = key) (kept : after.key = member.key) :
    excerpt { contest.put id after with bucket } rename key =
      { (contest.excerpt rename key).put (Seats.seat contest.keys key id) (after.renamed rename) with
        bucket := bucket.excerpt rename key } := by
  rw [← excerpt_put found named kept]
  rfl

theorem excerpt_put_bucket_of_ne {bucket : Bucket} (found : contest.members[id]? = some member)
    (apart : member.key ≠ key) (kept : after.key = member.key)
    (untouched : bucket.excerpt rename key = contest.bucket.excerpt rename key) :
    excerpt { contest.put id after with bucket } rename key = contest.excerpt rename key := by
  have placed := @excerpt_put_of_ne contest rename key id member after found apart kept
  calc excerpt { contest.put id after with bucket } rename key
      = { (contest.put id after).excerpt rename key with bucket := bucket.excerpt rename key } := rfl
    _ = { contest.excerpt rename key with bucket := contest.bucket.excerpt rename key } := by
        rw [placed, untouched]
    _ = contest.excerpt rename key := rfl

theorem concerned_of_found (found : contest.members[id]? = some member) (named : member.key = key) :
    Seats.concerns contest.keys key id = true :=
  Seats.concerns_of_found found named

theorem unconcerned_of_found (found : contest.members[id]? = some member)
    (apart : member.key ≠ key) : Seats.concerns contest.keys key id = false :=
  Seats.not_concerns_of_found found apart

theorem unconcerned_of_missing (missing : contest.members[id]? = none) :
    Seats.concerns contest.keys key id = false :=
  Seats.not_concerns_of_missing missing

theorem run?_single {first : Contest} (acted : first.act? action = some next) :
    first.run? [action] = some next :=
  (run?_cons acted).trans rfl

/-! ### A call that is over -/

theorem excerpt_record {record : CallRecord} (found : contest.members[id]? = some member)
    (named : member.key = key) (kept : after.key = member.key) (own : record.member = id) :
    excerpt { contest.put id after with calls := record :: contest.calls } rename key =
      { (contest.excerpt rename key).put (Seats.seat contest.keys key id) (after.renamed rename) with
        calls := { record.renamed rename with member := Seats.seat contest.keys key id } ::
          (contest.excerpt rename key).calls } := by
  subst own
  have calls : excerptCalls contest.keys rename key (record :: contest.calls) =
      { record.renamed rename with member := Seats.seat contest.keys key record.member } ::
        excerptCalls contest.keys rename key contest.calls := by
    rw [excerptCalls, ← List.singleton_append, Seats.relist_append,
      Seats.relist_of_concerned (concerned_of_found found named)]
    rfl
  have same : ({ contest.put record.member after with
      calls := record :: contest.calls } : Contest).keys = contest.keys := keys_put found kept
  rw [← excerpt_put found named kept]
  simp only [excerpt, same, calls]

theorem excerpt_record_of_ne {record : CallRecord} (found : contest.members[id]? = some member)
    (apart : member.key ≠ key) (kept : after.key = member.key) (own : record.member = id) :
    excerpt { contest.put id after with calls := record :: contest.calls } rename key =
      contest.excerpt rename key := by
  subst own
  have calls : excerptCalls contest.keys rename key (record :: contest.calls) =
      excerptCalls contest.keys rename key contest.calls := by
    rw [excerptCalls, ← List.singleton_append, Seats.relist_append,
      Seats.relist_of_unconcerned (unconcerned_of_found found apart)]
    rfl
  have same : ({ contest.put record.member after with
      calls := record :: contest.calls } : Contest).keys = contest.keys := keys_put found kept
  rw [← @excerpt_put_of_ne contest rename key record.member member after found apart kept]
  simp only [excerpt, same, calls, keys_put found kept]
  rfl

/-! ### One member goes on -/

inductive Compares (contest : Contest) (key : String) : Action → Revision → Prop
  | direct (value : Bytes) (expected : Revision) :
      Compares contest key (.perform (.update key value expected)) expected
  | renewal (id : Nat) (plan : Plan) (member : Member) (held : Revision) (ticker : Ticker)
      (began : Nat) (found : contest.members[id]? = some member) (named : member.key = key)
      (calling : member.candidate.task = .calling (.leading held ticker) began) :
      Compares contest key (.proceed id plan) held

/-- The new numbers go up with every write of the key and only then, and they tell apart what an
action compares. -/
structure Fits (contest : Contest) (rename : Revision → Revision) (key : String) (action : Action) :
    Prop where
  counted : ∀ deed, contest.deed? action = some deed → deed.kind ≠ .removed → deed.key = key →
    rename contest.bucket.revision.next = (rename contest.bucket.revision).next
  kept : ∀ deed, contest.deed? action = some deed → deed.kind ≠ .removed → deed.key ≠ key →
    rename contest.bucket.revision.next = rename contest.bucket.revision
  apart : ∀ expected record, contest.Compares key action expected →
    contest.bucket.record? key = some record → rename record.revision = rename expected →
    record.revision = expected

structure Calm (contest : Contest) : Prop where
  injected : contest.bucket.injected = none
  unplanned : ∀ (id : Nat) (member : Member), contest.members[id]? = some member →
    ∀ flight, member.flight = some flight → flight.plan.fault = none

/-- A call for the key that reaches the bucket reaches the excerpt. -/
theorem Fits.landed {plan : Plan} {stage : Stage} {began : Nat} {flight : Flight}
    {reply : Except StoreError Reply} {bucket : Bucket}
    (fits : contest.Fits rename key (.proceed id plan)) (calm : contest.Calm)
    (found : contest.members[id]? = some member) (named : member.key = key)
    (calling : member.candidate.task = .calling stage began) (flying : member.flight = some flight)
    (aloft : flight.landed = none) (arrived : Member.progressAt began flight ≤ contest.now)
    (performed : (contest.bucket.struckBy flight.plan.fault).Performed contest.now
      (stage.call.operation member.candidate.candidacy) reply bucket) :
    ((contest.excerpt rename key).bucket.struckBy flight.plan.fault).Performed contest.now
      ((stage.renamed rename).call.operation member.candidate.candidacy)
      (renamedAnswer rename (Reply.renamed rename) reply) (bucket.excerpt rename key) := by
  have done := @deed?_of_landed contest id member plan stage began flight reply bucket found calling
    flying aloft arrived performed
  have here : (stage.call.operation member.candidate.candidacy).key = key :=
    (Call.key_operation _ _).trans named
  rw [calm.unplanned id member found flight flying] at performed ⊢
  rw [Stage.call_renamed, Call.operation_renamed]
  refine performed.excerpt (some id) here calm.injected ?_ ?_
  · intro deed does writes
    rw [← done] at does
    refine fits.counted deed does writes ?_
    obtain ⟨_, _, _, _, was, calls, _, does⟩ := deed?_proceed_eq_some does
    cases found.symm.trans was
    cases calling.symm.trans calls
    obtain ⟨_, _, _, _, _, rfl⟩ := Bucket.deed?_eq_some does
    exact here
  · intro value expected record compares held
    cases stage with
    | electing | following => cases compares
    | leading revision ticker =>
        cases compares
        exact fits.apart expected record (.renewal id plan member expected ticker began found named
          calling) held

theorem Turn.excerpt {plan : Plan} (turn : Turn contest (.proceed id plan) next)
    (found : contest.members[id]? = some member) (named : member.key = key) (calm : contest.Calm)
    (fits : contest.Fits rename key (.proceed id plan)) :
    Turn (contest.excerpt rename key) (.proceed (Seats.seat contest.keys key id) plan)
      (next.excerpt rename key) := by
  have there := @found_excerpt contest rename key id member found named
  have task {task : Task} (at' : member.candidate.task = task) :
      (member.renamed rename).candidate.task = task.renamed rename :=
    congrArg (Task.renamed rename) at'
  have flies {flight : Flight} (flying : member.flight = some flight) :
      (member.renamed rename).flight = some (flight.renamed rename) :=
    congrArg (Option.map (Flight.renamed rename)) flying
  have moves {stage : Stage} {move : Move} (moved : contest.moveOf member stage = move) :
      (contest.excerpt rename key).moveOf (member.renamed rename) (stage.renamed rename) =
        move.renamed rename :=
    (Stage.look_renamed stage _ _).trans (congrArg (Move.renamed rename) moved)
  have put (after : Member) (kept : after.key = member.key) :=
    @excerpt_put contest rename key id member after found named kept
  have recorded (after : Member) (record : CallRecord) (kept : after.key = member.key) :=
    @excerpt_record contest rename key id member after record found named kept
  cases turn with
  | ignored _ _ asks => cases asks
  | called _ _ same stage following was between moved =>
      obtain rfl : member = same := Option.some.inj (found.symm.trans was)
      rw [put]
      · exact .called _ plan _ _ _ there (task between) (moves moved)
      · rfl
  | quit _ _ same stage outcome was between moved =>
      obtain rfl : member = same := Option.some.inj (found.symm.trans was)
      have quit := @Turn.quit _ (Seats.seat contest.keys key id) plan _ _ _ there (task between)
        (moves moved)
      rw [show (member.renamed rename).candidate = member.candidate.renamed rename from rfl,
        Candidate.finish_renamed] at quit
      rw [put]
      · exact quit
      · exact congrArg Candidacy.key (Candidate.candidacy_finish _ _)
  | abandoned _ _ same stage was between moved =>
      obtain rfl : member = same := Option.some.inj (found.symm.trans was)
      rw [put]
      · exact .abandoned _ plan _ _ there (task between) (moves moved)
      · rfl
  | landed _ _ same stage began flight reply bucket was calling flying aloft arrived performed =>
      obtain rfl : member = same := Option.some.inj (found.symm.trans was)
      have again := fits.landed calm found named calling flying aloft arrived performed
      have landed := @Turn.landed _ (Seats.seat contest.keys key id) plan _ _ began
        (flight.renamed rename) _ _ there (task calling) (flies flying)
        (congrArg (Option.map _) aloft) (by rw [Member.progressAt_renamed]; exact arrived) again
      rw [show (member.renamed rename).candidate.candidacy = member.candidate.candidacy from rfl,
        Candidacy.seen_renamed performed] at landed
      rw [excerpt_put_bucket found named]
      · exact landed
      · rfl
  | answered _ _ same stage began flight landedAt answer was calling flying landed arrived =>
      obtain rfl : member = same := Option.some.inj (found.symm.trans was)
      have answered := @Turn.answered _ (Seats.seat contest.keys key id) plan _ _ began
        (flight.renamed rename) landedAt _ there (task calling) (flies flying)
        (congrArg (Option.map _) landed) (by rw [Member.progressAt_renamed]; exact arrived)
      rw [show (member.renamed rename).candidate = member.candidate.renamed rename from rfl,
        Candidate.settle_renamed, Stage.call_renamed] at answered
      rw [recorded _ _ (congrArg Candidacy.key (Candidate.candidacy_settle _ _ _ _)) rfl]
      exact answered
  | cutOff _ _ same stage began flight limit was calling flying underWay limited reached =>
      obtain rfl : member = same := Option.some.inj (found.symm.trans was)
      have cutOff := @Turn.cutOff _ (Seats.seat contest.keys key id) plan _ _ began
        (flight.renamed rename) limit there (task calling) (flies flying)
        (by rw [Member.progressAt_renamed]; exact underWay) limited reached
      have settled := @Candidate.settle_renamed rename member.candidate contest.now stage
        (.error (.timeout (member.candidate.candidacy.callLimitMs.getD 0)))
      simp only [renamedAnswer, StoreError.renamed] at settled
      rw [show (member.renamed rename).candidate = member.candidate.renamed rename from rfl,
        show (member.candidate.renamed rename).candidacy = member.candidate.candidacy from rfl,
        show (contest.excerpt rename key).now = contest.now from rfl, settled,
        Stage.call_renamed] at cutOff
      rw [recorded _ _ (congrArg Candidacy.key (Candidate.candidacy_settle _ _ _ _)) rfl]
      exact cutOff

theorem Turn.excerpt_of_ne {plan : Plan} (turn : Turn contest (.proceed id plan) next)
    (found : contest.members[id]? = some member) (apart : member.key ≠ key) (calm : contest.Calm)
    (fits : contest.Fits rename key (.proceed id plan)) :
    next.excerpt rename key = contest.excerpt rename key := by
  cases turn with
  | ignored _ _ asks => cases asks
  | called _ _ same _ _ was | abandoned _ _ same _ was =>
      obtain rfl : member = same := Option.some.inj (found.symm.trans was)
      exact excerpt_put_of_ne found apart rfl
  | quit _ _ same _ outcome was =>
      obtain rfl : member = same := Option.some.inj (found.symm.trans was)
      exact excerpt_put_of_ne found apart (congrArg Candidacy.key (Candidate.candidacy_finish _ _))
  | landed _ _ same stage began flight reply bucket was calling flying aloft arrived performed =>
      obtain rfl : member = same := Option.some.inj (found.symm.trans was)
      have done := @deed?_of_landed contest id member plan stage began flight reply bucket found
        calling flying aloft arrived performed
      have elsewhere : (stage.call.operation member.candidate.candidacy).key ≠ key := by
        rw [Call.key_operation]
        exact apart
      rw [calm.unplanned id member found flight flying] at performed
      have untouched := @Bucket.Performed.excerpt_of_ne _ _ rename key _ _ _ performed (some id)
        elsewhere calm.injected ?_
      · exact excerpt_put_bucket_of_ne found apart rfl untouched
      · intro deed does writes
        rw [← done] at does
        refine fits.kept deed does writes ?_
        obtain ⟨_, _, _, _, was, calls, _, does⟩ := deed?_proceed_eq_some does
        cases found.symm.trans was
        cases calling.symm.trans calls
        obtain ⟨_, _, _, _, _, rfl⟩ := Bucket.deed?_eq_some does
        exact elsewhere
  | answered _ _ same _ _ _ _ _ was | cutOff _ _ same _ _ _ _ was =>
      obtain rfl : member = same := Option.some.inj (found.symm.trans was)
      exact excerpt_record_of_ne found apart
        (congrArg Candidacy.key (Candidate.candidacy_settle _ _ _ _)) rfl

/-! ### Operations from outside and the clock -/

theorem perform_excerpt {operation : Operation} (here : operation.key = key) (calm : contest.Calm)
    (fits : contest.Fits rename key (.perform operation)) :
    (contest.excerpt rename key).perform (operation.renamed rename) =
      (renamedAnswer rename (Reply.renamed rename) (contest.perform operation).1,
        (contest.perform operation).2.excerpt rename key) := by
  have performed := contest.bucket.performed contest.now operation
  have again := @Bucket.Performed.excerpt _ _ rename key _ _ _ performed none here calm.injected ?_ ?_
  · have same := again.perform_eq
    simp only [perform]
    rw [show (contest.excerpt rename key).bucket = contest.bucket.excerpt rename key from rfl,
      show (contest.excerpt rename key).now = contest.now from rfl, same]
    rfl
  · intro deed does writes
    refine fits.counted deed does writes ?_
    obtain ⟨_, _, _, _, _, rfl⟩ := Bucket.deed?_eq_some does
    exact here
  · rintro value expected record rfl held
    exact fits.apart expected record (.direct value expected) held

theorem perform_excerpt_of_ne {operation : Operation} (elsewhere : operation.key ≠ key)
    (calm : contest.Calm) (fits : contest.Fits rename key (.perform operation)) :
    (contest.perform operation).2.excerpt rename key = contest.excerpt rename key := by
  have performed := contest.bucket.performed contest.now operation
  have untouched := @Bucket.Performed.excerpt_of_ne _ _ rename key _ _ _ performed none elsewhere
    calm.injected ?_
  · exact congrArg (fun bucket => { contest.excerpt rename key with bucket }) untouched
  · intro deed does writes
    refine fits.kept deed does writes ?_
    obtain ⟨_, _, _, _, _, rfl⟩ := Bucket.deed?_eq_some does
    exact elsewhere

theorem mem_of_excerpt {renamed : Member}
    (present : renamed ∈ (contest.excerpt rename key).members) :
    ∃ member ∈ contest.members, renamed = member.renamed rename := by
  obtain ⟨member, picked, rfl⟩ := List.mem_map.mp present
  exact ⟨member, List.mem_of_mem_filter picked, rfl⟩

theorem quiet_excerpt (quiet : contest.quiet = true) : (contest.excerpt rename key).quiet = true := by
  refine List.all_eq_true.mpr ?_
  intro renamed present
  obtain ⟨member, was, rfl⟩ := mem_of_excerpt present
  have idle := List.all_eq_true.mp quiet member was
  rw [← idle]
  exact congrArg Option.isNone (member.step?_renamed _ _)

theorem dues_excerpt {due : Nat}
    (waits : due ∈ (contest.excerpt rename key).members.filterMap Member.wakeAt?) :
    due ∈ contest.members.filterMap Member.wakeAt? := by
  obtain ⟨renamed, present, wakes⟩ := List.mem_filterMap.mp waits
  obtain ⟨member, was, rfl⟩ := mem_of_excerpt present
  rw [Member.wakeAt?_renamed] at wakes
  exact List.mem_filterMap.mpr ⟨member, was, wakes⟩

theorem all_min?_of_forall {dues : List Nat} {instant : Nat} (all : ∀ due ∈ dues, instant ≤ due) :
    dues.min?.all (instant ≤ ·) = true := by
  cases earliest : dues.min? with
  | none => rfl
  | some due => exact decide_eq_true (all due (List.min?_eq_some_iff.mp earliest).1)

theorem passTo?_excerpt {instant : Nat} (passed : contest.passTo? instant = some next) :
    (contest.excerpt rename key).passTo? instant = some (next.excerpt rename key) := by
  simp only [passTo?] at passed
  split at passed
  · rename_i allowed
    cases passed
    simp only [Bool.and_eq_true, decide_eq_true_eq] at allowed
    obtain ⟨⟨quiet, later⟩, awake⟩ := allowed
    have awakeToo : (contest.excerpt rename key).wakeAt?.all (instant ≤ ·) = true :=
      all_min?_of_forall fun due waits => le_of_min? awake (dues_excerpt waits)
    simp only [passTo?, quiet_excerpt quiet, awakeToo, Bool.and_true, Bool.true_and]
    rw [if_pos (decide_eq_true (show (contest.excerpt rename key).now ≤ instant from later))]
    rfl
  · cases passed

/-! ### Seats along a run -/

theorem Turn.seated (turn : Turn contest action next) (seated : contest.Seated) : next.Seated := by
  have stays (id : Nat) (inside : id < contest.members.length) : id < next.members.length := by
    obtain ⟨_, there, _⟩ := turn.persists (List.getElem?_eq_getElem inside)
    exact (List.getElem?_eq_some_iff.mp there).1
  have recorded {id : Nat} {member : Member} {record : CallRecord}
      (found : contest.members[id]? = some member) (own : record.member = id)
      (calls : next.calls = record :: contest.calls) : next.Seated := by
    intro other past
    rw [calls] at past
    rcases List.mem_cons.mp past with rfl | old
    · exact stays other.member (own ▸ (List.getElem?_eq_some_iff.mp found).1)
    · exact stays other.member (seated other old)
  have kept (calls : next.calls = contest.calls) : next.Seated := fun record past =>
    stays record.member (seated record (calls ▸ past))
  cases turn with
  | answered id _ _ _ _ _ _ _ found | cutOff id _ _ _ _ _ _ found => exact recorded found rfl rfl
  | _ => exact kept rfl

/-- Members never change their keys. -/
theorem Turn.keys_eq (turn : Turn contest action next) :
    ∃ more, next.keys = contest.keys ++ more := by
  rcases turn.members_cases with same | ⟨candidacy, _, grown⟩ | ⟨id, member, after, found, set, kept, _⟩
  · exact ⟨[], by rw [keys, same, List.append_nil, keys]⟩
  · exact ⟨[candidacy.key], by rw [keys, grown, List.map_append]; rfl⟩
  · refine ⟨[], ?_⟩
    rw [keys, set, List.append_nil]
    exact Seats.map_set found (congrArg Candidacy.key kept)

theorem keys_of_run {first : Contest} {actions : List Action}
    (run : first.run? actions = some contest) : ∃ more, contest.keys = first.keys ++ more := by
  refine run_induction (motive := fun _ contest => ∃ more, contest.keys = first.keys ++ more)
    ⟨[], (List.append_nil _).symm⟩ ?_ actions contest run
  intro _ _ _ _ _ ih turn
  obtain ⟨early, before⟩ := ih
  obtain ⟨late, after⟩ := turn.keys_eq
  exact ⟨early ++ late, by rw [after, before, List.append_assoc]⟩

theorem seated_of_run {first : Contest} {actions : List Action} (seated : first.Seated)
    (run : first.run? actions = some contest) : contest.Seated := by
  refine run_induction (motive := fun _ contest => contest.Seated) seated ?_ actions contest run
  intro _ _ _ _ _ ih turn
  exact turn.seated ih

/-! ### Requests -/

theorem excerptCalls_append (seated : contest.Seated) (more : List String) :
    excerptCalls (contest.keys ++ more) rename key contest.calls =
      excerptCalls contest.keys rename key contest.calls := by
  refine Seats.relist_of_more (fun record past => ?_) more
  rw [keys, List.length_map]
  exact seated record past

theorem excerpt_joined {candidacy : Candidacy} (here : candidacy.key = key)
    (seated : contest.Seated) :
    excerpt { contest with members := contest.members ++ [{ candidate := { candidacy } }] } rename
        key =
      { contest.excerpt rename key with
        members := (contest.excerpt rename key).members ++ [{ candidate := { candidacy } }] } := by
  have picked : Seats.pick Member.key key
      (contest.members ++ [{ candidate := { candidacy } }]) =
      Seats.pick Member.key key contest.members ++ [{ candidate := { candidacy } }] := by
    rw [Seats.pick, List.filter_append]
    exact congrArg (Seats.pick Member.key key contest.members ++ ·)
      (List.filter_cons_of_pos (decide_eq_true here))
  have calls := @excerptCalls_append contest rename key seated [candidacy.key]
  simp only [excerpt, picked, List.map_append, List.map_cons, List.map_nil, keys] at calls ⊢
  rw [← calls]
  rfl

theorem excerpt_joined_of_ne {candidacy : Candidacy} (elsewhere : candidacy.key ≠ key)
    (seated : contest.Seated) :
    excerpt { contest with members := contest.members ++ [{ candidate := { candidacy } }] } rename
        key = contest.excerpt rename key := by
  have picked : Seats.pick Member.key key
      (contest.members ++ [{ candidate := { candidacy } }]) =
      Seats.pick Member.key key contest.members := by
    rw [Seats.pick, List.filter_append, ← Seats.pick]
    exact (congrArg (Seats.pick Member.key key contest.members ++ ·)
      (List.filter_cons_of_neg (fun same => elsewhere (of_decide_eq_true same)))).trans
        (List.append_nil _)
  have calls := @excerptCalls_append contest rename key seated [candidacy.key]
  simp only [excerpt, picked, List.map_append, List.map_cons, List.map_nil, keys] at calls ⊢
  rw [← calls]
  rfl

theorem nominate_excerpt {candidacy : Candidacy} (here : candidacy.key = key)
    (seated : contest.Seated) :
    (contest.excerpt rename key).nominate candidacy =
      (contest.nominate candidacy).map (excerpt · rename key) := by
  have terms : (contest.excerpt rename key).bucket.terms = contest.bucket.terms := rfl
  simp only [nominate, terms]
  cases candidacy.accept contest.bucket.terms with
  | error cause => rfl
  | ok _ => exact congrArg Except.ok (excerpt_joined here seated).symm

theorem nominate_excerpt_of_ne {candidacy : Candidacy} (elsewhere : candidacy.key ≠ key)
    (seated : contest.Seated) (stands : contest.nominate candidacy = .ok next) :
    next.excerpt rename key = contest.excerpt rename key := by
  simp only [nominate] at stands
  split at stands
  · cases stands
  · cases stands
    exact excerpt_joined_of_ne elsewhere seated

theorem start_excerpt {context : String} (found : contest.members[id]? = some member)
    (named : member.key = key) :
    (contest.excerpt rename key).start (Seats.seat contest.keys key id) context =
      (contest.start id context).map (excerpt · rename key) := by
  have there := @found_excerpt contest rename key id member found named
  simp only [start, found, there]
  by_cases fresh : member.candidate.task = .unstarted
  · have freshToo : (member.renamed rename).candidate.task = .unstarted :=
      congrArg (Task.renamed rename) fresh
    have placed := @excerpt_put contest rename key id member
      { member with candidate := member.candidate.start, context } found named rfl
    rw [if_pos fresh, if_pos freshToo, update_eq_put found, update_eq_put there]
    exact congrArg Except.ok placed.symm
  · have begun : (member.renamed rename).candidate.task ≠ .unstarted := by
      intro never
      apply fresh
      simp only [Member.renamed, Candidate.renamed] at never
      cases task : member.candidate.task <;> rw [task] at never <;> cases never
    rw [if_neg fresh, if_neg begun]
    rfl

theorem start_excerpt_of_ne {context : String} (found : contest.members[id]? = some member)
    (apart : member.key ≠ key) (starts : contest.start id context = .ok next) :
    next.excerpt rename key = contest.excerpt rename key := by
  simp only [start, found] at starts
  split at starts
  · cases starts
    rw [update_eq_put found]
    exact excerpt_put_of_ne found apart rfl
  · cases starts

/-- A change of candidates that does not depend on revisions and leaves their terms alone. -/
structure Plain (change : Candidate → Candidate) : Prop where
  terms : ∀ candidate, (change candidate).candidacy = candidate.candidacy
  renamed : ∀ (rename : Revision → Revision) (candidate : Candidate),
    change (candidate.renamed rename) = (change candidate).renamed rename

theorem plain_stop : Plain Candidate.stop := ⟨fun _ => rfl, fun _ _ => rfl⟩

theorem plain_deafen : Plain Candidate.deafen := ⟨fun _ => rfl, fun _ _ => rfl⟩

theorem updateCandidate_excerpt {change : Candidate → Candidate} (plain : Plain change)
    (found : contest.members[id]? = some member) (named : member.key = key) :
    (contest.excerpt rename key).updateCandidate (Seats.seat contest.keys key id) change =
      (contest.updateCandidate id change).excerpt rename key := by
  have there := @found_excerpt contest rename key id member found named
  rw [updateCandidate, updateCandidate, update_eq_put found, update_eq_put there,
    excerpt_put found named (congrArg Candidacy.key (plain.terms _))]
  exact congrArg (fun candidate => put _ _ { member.renamed rename with candidate })
    (plain.renamed rename member.candidate)

theorem updateCandidate_excerpt_of_ne {change : Candidate → Candidate} (plain : Plain change)
    (found : contest.members[id]? = some member) (apart : member.key ≠ key) :
    (contest.updateCandidate id change).excerpt rename key = contest.excerpt rename key := by
  rw [updateCandidate, update_eq_put found]
  exact excerpt_put_of_ne found apart (congrArg Candidacy.key (plain.terms _))

/-! ### A member that is given up -/

theorem keys_updateCandidate {change : Candidate → Candidate} (plain : Plain change) :
    (contest.updateCandidate id change).keys = contest.keys := by
  cases found : contest.members[id]? with
  | none => rw [updateCandidate, update_of_none found]
  | some member =>
      rw [updateCandidate, update_eq_put found]
      exact keys_put found (congrArg Candidacy.key (plain.terms _))

theorem found_updateCandidate {change : Candidate → Candidate}
    (found : contest.members[id]? = some member) :
    (contest.updateCandidate id change).members[id]? =
      some { member with candidate := change member.candidate } := by
  rw [updateCandidate, update_eq_put found]
  exact List.getElem?_set_self (List.getElem?_eq_some_iff.mp found).1

theorem leave_excerpt (found : contest.members[id]? = some member) (named : member.key = key) :
    ((contest.excerpt rename key).stop (Seats.seat contest.keys key id)).deafen
        (Seats.seat contest.keys key id) =
      ((contest.stop id).deafen id).excerpt rename key := by
  have still := @found_updateCandidate contest id member Candidate.stop found
  have deafened := @updateCandidate_excerpt _ rename key id _ _ plain_deafen still named
  rw [keys_updateCandidate plain_stop, ← updateCandidate_excerpt plain_stop found named] at deafened
  exact deafened

theorem leave_excerpt_of_ne (found : contest.members[id]? = some member) (apart : member.key ≠ key) :
    ((contest.stop id).deafen id).excerpt rename key = contest.excerpt rename key := by
  have still := @found_updateCandidate contest id member Candidate.stop found
  exact (updateCandidate_excerpt_of_ne plain_deafen still apart).trans
    (updateCandidate_excerpt_of_ne plain_stop found apart)

/-! ### One action -/

theorem run?_addressed {of : Nat → Action} (found : contest.members[id]? = some member)
    (acts : member.key = key → (contest.excerpt rename key).act?
      (of (Seats.seat contest.keys key id)) = some (next.excerpt rename key))
    (apart : member.key ≠ key → next.excerpt rename key = contest.excerpt rename key) :
    (contest.excerpt rename key).run? (excerptOf.addressed contest key id of) =
      some (next.excerpt rename key) := by
  unfold excerptOf.addressed
  by_cases named : member.key = key
  · rw [Seats.addressed_of_concerned (concerned_of_found found named)]
    exact run?_single (acts named)
  · rw [Seats.addressed_of_unconcerned (unconcerned_of_found found named), apart named]
    rfl

theorem run?_addressed_of_missing {of : Nat → Action} (missing : contest.members[id]? = none) :
    (contest.excerpt rename key).run? (excerptOf.addressed contest key id of) =
      some (contest.excerpt rename key) := by
  rw [excerptOf.addressed, Seats.addressed_of_unconcerned (unconcerned_of_missing missing)]
  rfl

theorem run?_of_updated {change : Candidate → Candidate} {of : Nat → Action} (plain : Plain change)
    (acts : ∀ (contest : Contest) (id : Nat), contest.act? (of id) =
      some (contest.updateCandidate id change)) (id : Nat) :
    (contest.excerpt rename key).run? (excerptOf.addressed contest key id of) =
      some ((contest.updateCandidate id change).excerpt rename key) := by
  cases found : contest.members[id]? with
  | none =>
      rw [updateCandidate, update_of_none found]
      exact run?_addressed_of_missing found
  | some member =>
      apply run?_addressed found
      · intro named
        exact (acts _ _).trans (congrArg some (updateCandidate_excerpt plain found named))
      · exact updateCandidate_excerpt_of_ne plain found

theorem run?_of_nominated {candidacy : Candidacy} (seated : contest.Seated)
    (stands : contest.nominate candidacy = .ok next) :
    (contest.excerpt rename key).run? (contest.excerptOf rename key (.nominate candidacy)) =
      some (next.excerpt rename key) := by
  by_cases here : candidacy.key = key
  · rw [excerptOf, if_pos here]
    apply run?_single
    rw [act?, nominate_excerpt here seated, stands]
    rfl
  · rw [excerptOf, if_neg here]
    exact congrArg some (nominate_excerpt_of_ne here seated stands).symm

theorem run?_of_started {context : String} (starts : contest.start id context = .ok next) :
    (contest.excerpt rename key).run? (contest.excerptOf rename key (.start id context)) =
      some (next.excerpt rename key) := by
  cases found : contest.members[id]? with
  | none =>
      simp only [start, found] at starts
      cases starts
      exact run?_addressed_of_missing found
  | some member =>
      apply run?_addressed found
      · intro named
        rw [act?, start_excerpt found named, starts]
        rfl
      · intro apart
        exact start_excerpt_of_ne found apart starts

theorem run?_of_performed {operation : Operation} (calm : contest.Calm)
    (fits : contest.Fits rename key (.perform operation)) :
    (contest.excerpt rename key).run? (contest.excerptOf rename key (.perform operation)) =
      some ((contest.perform operation).2.excerpt rename key) := by
  by_cases here : operation.key = key
  · rw [excerptOf, if_pos here]
    have performs := congrArg Prod.snd
      (@perform_excerpt contest rename key operation here calm fits)
    exact run?_single (congrArg some performs)
  · rw [excerptOf, if_neg here]
    exact congrArg some (perform_excerpt_of_ne here calm fits).symm

theorem run?_of_proceeded {plan : Plan} (acted : contest.act? (.proceed id plan) = some next)
    (calm : contest.Calm) (fits : contest.Fits rename key (.proceed id plan)) :
    (contest.excerpt rename key).run? (contest.excerptOf rename key (.proceed id plan)) =
      some (next.excerpt rename key) := by
  have turn := turn_of_act? acted
  cases found : contest.members[id]? with
  | none =>
      simp only [act?, found] at acted
      cases acted
  | some member =>
      apply run?_addressed found
      · intro named
        exact (turn.excerpt found named calm fits).act?_of_proceed
      · intro apart
        exact turn.excerpt_of_ne found apart calm fits

/-- What is left of an action does to the excerpt what the action does. -/
theorem run?_excerptOf (acted : contest.act? action = some next) (calm : contest.Calm)
    (fits : contest.Fits rename key action) (seated : contest.Seated) :
    (contest.excerpt rename key).run? (contest.excerptOf rename key action) =
      some (next.excerpt rename key) := by
  cases action with
  | nominate candidacy =>
      simp only [act?] at acted
      cases stands : contest.nominate candidacy with
      | error cause =>
          rw [stands] at acted
          cases acted
      | ok joined =>
          rw [stands] at acted
          cases acted
          exact run?_of_nominated seated stands
  | start id context =>
      simp only [act?] at acted
      cases starts : contest.start id context with
      | error cause =>
          rw [starts] at acted
          cases acted
      | ok started =>
          rw [starts] at acted
          cases acted
          exact run?_of_started starts
  | stop id =>
      cases acted
      exact run?_of_updated plain_stop (fun _ _ => rfl) id
  | deafen id =>
      cases acted
      exact run?_of_updated plain_deafen (fun _ _ => rfl) id
  | cancel context =>
      cases acted
      rfl
  | perform operation =>
      cases acted
      exact run?_of_performed calm fits
  | inject failure =>
      cases acted
      rfl
  | proceed id plan => exact run?_of_proceeded acted calm fits
  | passTo instant => exact run?_single (passTo?_excerpt acted)

end Contest

end Leasehold
