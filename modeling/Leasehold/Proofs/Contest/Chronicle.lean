import Mathlib.Data.List.Chain
import Leasehold.Proofs.Contest.Turn
import Leasehold.Proofs.Store.Deed

set_option autoImplicit false

/-!
The history of a contest: a deposed leader never overwrites its successor.

No bound on any delay is needed. A member only ever renews under a revision that it has written
itself, each write has a revision of its own, and the record of a key carries the revision of the
last change of that key. So a renewal succeeds only right after a write of the same member.
-/

namespace Leasehold

namespace Contest

/-- What an action does to the record of a key. A call of a member counts when it reaches the
bucket, whether or not its answer ever comes back. -/
def deed? (contest : Contest) : Action → Option Deed
  | .perform operation => contest.bucket.deed? contest.now none operation
  | .proceed id _ =>
      (contest.members[id]?).bind fun member =>
        match contest.step? member, member.candidate.task, member.flight with
        | some .land, .calling stage _, some flight =>
            (contest.bucket.struckBy flight.plan.fault).deed? contest.now (some id)
              (stage.call.operation member.candidate.candidacy)
        | _, _, _ => none
  | _ => none

def chronicle (contest : Contest) : List Action → List Deed
  | [] => []
  | action :: rest =>
      (contest.deed? action).toList ++
        ((contest.act? action).map fun next => next.chronicle rest).getD []

theorem chronicle_concat {first reached : Contest} {actions : List Action}
    (run : first.run? actions = some reached) (action : Action) :
    first.chronicle (actions ++ [action]) =
      first.chronicle actions ++ (reached.deed? action).toList := by
  induction actions generalizing first with
  | nil =>
      cases run
      simp only [List.nil_append, chronicle]
      cases reached.act? action <;> exact List.append_nil _
  | cons earlier rest ih =>
      rw [run?, List.foldlM_cons, Option.bind_eq_bind, Option.bind_eq_some_iff] at run
      obtain ⟨next, acted, ran⟩ := run
      simp only [List.cons_append, chronicle, acted, Option.map_some, Option.getD_some, ih ran,
        List.append_assoc]

end Contest

theorem Bucket.Changed.of_struckBy {bucket after : Bucket} {now : Nat} {author : Option Nat}
    {operation : Operation} {done : Option Deed} {fault : Option StoreError}
    (changed : (bucket.struckBy fault).Changed now author operation after done) :
    bucket.Changed now author operation after done := by
  cases fault with
  | none => exact changed
  | some failure =>
      cases changed with
      | idle counter kept => exact .idle counter kept
      | wrote kind value writes counter here elsewhere =>
          exact .wrote kind value writes counter here elsewhere
      | removed counter here elsewhere => exact .removed counter here elsewhere

/-! ### Revisions that a member goes by -/

/-- A member bears a revision when it would renew under it: as leader, or once the answer that brings
it arrives. -/
inductive Member.Bears (member : Member) : Revision → Prop
  | leading (held : Revision) (ticker : Ticker)
      (current : member.candidate.stage? = some (.leading held ticker)) : member.Bears held
  | landed (stage : Stage) (began : Nat) (flight : Flight) (instant : Nat) (entry : Entry)
      (calling : member.candidate.task = .calling stage began)
      (flying : member.flight = some flight) (landed : flight.landed = some (instant, .ok entry))
      (writes : stage.call ≠ .poll) : member.Bears entry.revision

namespace Contest

variable {contest next : Contest} {action : Action} {history : List Deed} {id : Nat}
  {member : Member}

/-! ### The deeds of a turn -/

theorem deed?_of_landed {plan : Plan} {stage : Stage} {began : Nat} {flight : Flight}
    {reply : Except StoreError Reply} {bucket : Bucket}
    (found : contest.members[id]? = some member)
    (calling : member.candidate.task = .calling stage began)
    (flying : member.flight = some flight) (aloft : flight.landed = none)
    (arrived : Member.progressAt began flight ≤ contest.now)
    (performed : (contest.bucket.struckBy flight.plan.fault).Performed contest.now
      (stage.call.operation member.candidate.candidacy) reply bucket) :
    contest.deed? (.proceed id plan) =
      Deed.of? (some id) (stage.call.operation member.candidate.candidacy) reply bucket
        contest.now := by
  have lands : contest.step? member = some .land := by
    simp only [step?, Member.step?, calling, flying, if_pos arrived, aloft]
    rfl
  simp only [deed?, found, Option.bind_some, lands, calling, flying, Bucket.deed?,
    performed.perform_eq]

theorem deed?_proceed_eq_some {plan : Plan} {deed : Deed}
    (done : contest.deed? (.proceed id plan) = some deed) :
    ∃ member stage began flight, contest.members[id]? = some member ∧
      member.candidate.task = .calling stage began ∧ member.flight = some flight ∧
      (contest.bucket.struckBy flight.plan.fault).deed? contest.now (some id)
        (stage.call.operation member.candidate.candidacy) = some deed := by
  simp only [deed?, Option.bind_eq_some_iff] at done
  obtain ⟨member, found, lands⟩ := done
  split at lands
  · rename_i stage began flight step calling flying
    exact ⟨member, stage, began, flight, found, calling, flying, lands⟩
  · cases lands

theorem deed?_of_not_land {plan : Plan} (found : contest.members[id]? = some member)
    (elsewhere : contest.step? member ≠ some .land) : contest.deed? (.proceed id plan) = none := by
  simp only [deed?, found, Option.bind_some]
  split
  · rename_i lands _ _
    exact absurd lands elsewhere
  · rfl

theorem step?_ne_land_of_between {stage : Stage} (between : member.candidate.task = .between stage) :
    contest.step? member ≠ some .land := by
  simp only [step?, Member.step?, between]
  split <;> (intro lands; cases lands)

/-- A turn changes the bucket by one operation at most, and its deed is what that did. -/
theorem Turn.changed (turn : Turn contest action next) :
    ∃ (author : Option Nat) (operation : Operation),
      contest.bucket.Changed contest.now author operation next.bucket (contest.deed? action) := by
  have still (same : next.bucket = contest.bucket)
      (idle : contest.deed? action = none) :
      ∃ (author : Option Nat) (operation : Operation),
        contest.bucket.Changed contest.now author operation next.bucket (contest.deed? action) := by
    refine ⟨none, .get "", ?_⟩
    rw [same, idle]
    exact .idle rfl (fun _ _ found => found)
  cases turn with
  | joined | started | stopped | deafened | cancelled | passed => exact still rfl rfl
  | ignored id action asks => cases asks <;> exact still rfl rfl
  | performed operation reply bucket performed =>
      refine ⟨none, operation, ?_⟩
      have changed := performed.changed none
      rw [deed?, Bucket.deed?, performed.perform_eq]
      exact changed
  | injected failure =>
      exact ⟨none, .get "", .idle rfl (fun _ _ found => found)⟩
  | called id plan member stage _ found between | quit id plan member stage _ found between
  | abandoned id plan member stage found between =>
      exact still rfl (deed?_of_not_land found (step?_ne_land_of_between between))
  | landed id plan member stage began flight reply bucket found calling flying aloft arrived
      performed =>
      refine ⟨some id, stage.call.operation member.candidate.candidacy, ?_⟩
      rw [deed?_of_landed found calling flying aloft arrived performed]
      exact (performed.changed (some id)).of_struckBy
  | answered id plan member stage began flight landedAt answer found calling flying landed arrived =>
      refine still rfl (deed?_of_not_land found ?_)
      simp only [step?, Member.step?, calling, flying, if_pos arrived, landed]
      exact fun answers => Step.noConfusion (Option.some.inj answers)
  | cutOff id plan member stage began flight limit found calling flying underWay =>
      refine still rfl (deed?_of_not_land found ?_)
      simp only [step?, Member.step?, calling, flying, if_neg (Nat.not_le.mpr underWay)]
      split <;> decide

theorem Turn.revision_le (turn : Turn contest action next) :
    contest.bucket.revision.toNat ≤ next.bucket.revision.toNat := by
  obtain ⟨_, _, changed⟩ := turn.changed
  exact changed.revision_le

/-! ### What members and the bucket remember of the history -/

def Owned (contest : Contest) (history : List Deed) : Prop :=
  ∀ (id : Nat) (member : Member), contest.members[id]? = some member → ∀ held, member.Bears held →
    ∃ deed ∈ history, deed.author = some id ∧ deed.kind ≠ .removed ∧ deed.revision = held

theorem Owned.put {after : Member} {extra : List Deed} (owned : contest.Owned history)
    (found : contest.members[id]? = some member)
    (members : next.members = contest.members.set id after)
    (own : ∀ held, after.Bears held → member.Bears held) : next.Owned (history ++ extra) := by
  intro other rival foundRival held bears
  rw [members] at foundRival
  rcases found_in_set foundRival with ⟨rfl, rfl⟩ | ⟨_, was⟩
  · obtain ⟨deed, done, mine⟩ := owned other member found held (own held bears)
    exact ⟨deed, List.mem_append_left _ done, mine⟩
  · obtain ⟨deed, done, mine⟩ := owned other rival was held bears
    exact ⟨deed, List.mem_append_left _ done, mine⟩

theorem Owned.keep {extra : List Deed} (owned : contest.Owned history)
    (members : next.members = contest.members) : next.Owned (history ++ extra) := by
  intro id member found held bears
  rw [members] at found
  obtain ⟨deed, done, mine⟩ := owned id member found held bears
  exact ⟨deed, List.mem_append_left _ done, mine⟩

theorem bears_of_same_work {after : Member} (task : after.candidate.task = member.candidate.task)
    (flight : after.flight = member.flight) (held : Revision) (bears : after.Bears held) :
    member.Bears held := by
  cases bears with
  | leading held ticker current =>
      refine .leading held ticker ?_
      unfold Candidate.stage? at current ⊢
      rw [task] at current
      exact current
  | landed stage began flown instant entry calling flying landed writes =>
      exact .landed stage began flown instant entry (task ▸ calling) (flight ▸ flying) landed writes

theorem not_bears_of_ended {held : Revision} (ended : member.candidate.task = .ended) :
    ¬member.Bears held := by
  intro bears
  cases bears with
  | leading held ticker current =>
      simp only [Candidate.stage?, ended] at current
      cases current
  | landed _ _ _ _ _ calling =>
      rw [ended] at calling
      cases calling

theorem bears_of_called {stage following : Stage} {plan : Plan}
    (between : member.candidate.task = .between stage)
    (moved : contest.moveOf member stage = .call following) (held : Revision)
    (bears : Member.Bears { member with
      candidate := { member.candidate with task := .calling following contest.now }
      flight := some { plan } } held) : member.Bears held := by
  cases bears with
  | leading held ticker current =>
      obtain rfl : following = .leading held ticker := Option.some.inj current
      obtain ⟨_, _, ⟨_, never⟩ | ⟨earlier, ticking, _, same⟩⟩ := Stage.look_call moved
      · cases never
      · cases stage with
        | electing => cases ticking
        | following ticker => cases same
        | leading revision old =>
            cases same
            exact .leading held old (Candidate.stage?_of_between between)
  | landed _ _ _ _ _ _ flying landed =>
      cases flying
      cases landed

/-- An answer brings the revision that was written when the call reached the bucket. -/
theorem bears_of_answered {stage : Stage} {began landedAt : Nat} {flight : Flight}
    {answer : Except StoreError Entry} (calling : member.candidate.task = .calling stage began)
    (flying : member.flight = some flight) (landed : flight.landed = some (landedAt, answer))
    (held : Revision)
    (bears : Member.Bears { member with
      candidate := member.candidate.settle contest.now stage answer
      flight := none } held) : member.Bears held := by
  cases bears with
  | landed _ _ _ _ _ _ flying => cases flying
  | leading held ticker current =>
      rcases member.candidate.task_settle contest.now stage answer with ended | ⟨next, between⟩
      · simp only [Candidate.stage?, ended] at current
        cases current
      · simp only [Candidate.stage?, between] at current
        cases current
        obtain ⟨⟨entry, rfl, rfl⟩, origin⟩ := Candidate.settle_leading between
        refine .landed stage began flight landedAt entry calling flying landed ?_
        rcases origin with ⟨rfl, _⟩ | ⟨_, rfl⟩ <;> (intro never; cases never)

theorem Owned.landed {plan : Plan} {stage : Stage} {began : Nat} {flight : Flight}
    {reply : Except StoreError Reply} {bucket : Bucket} (owned : contest.Owned history)
    (found : contest.members[id]? = some member)
    (calling : member.candidate.task = .calling stage began)
    (flying : member.flight = some flight) (aloft : flight.landed = none)
    (arrived : Member.progressAt began flight ≤ contest.now)
    (performed : (contest.bucket.struckBy flight.plan.fault).Performed contest.now
      (stage.call.operation member.candidate.candidacy) reply bucket) :
    Owned { contest.put id { member with
        flight := some { flight with
          landed := some (contest.now, reply.map member.candidate.candidacy.seen) } }
      with bucket } (history ++ (contest.deed? (.proceed id plan)).toList) := by
  have done : contest.deed? (.proceed id plan) = _ :=
    deed?_of_landed found calling flying aloft arrived performed
  intro other rival foundRival held bears
  rcases found_in_set foundRival with ⟨rfl, rfl⟩ | ⟨_, was⟩
  · cases bears with
    | leading held ticker current =>
        obtain ⟨deed, earlier, mine⟩ := owned other member found held (.leading held ticker current)
        exact ⟨deed, List.mem_append_left _ earlier, mine⟩
    | landed called _ _ instant entry calling' flying' landed writes =>
        obtain ⟨rfl, _⟩ := Task.calling.inj (calling.symm.trans calling')
        cases flying'
        have answer : reply.map member.candidate.candidacy.seen = .ok entry :=
          (Prod.mk.inj (Option.some.inj landed)).2
        cases reply with
        | error cause => cases answer
        | ok answered =>
            obtain rfl := Except.ok.inj answer
            have does : ∃ kind, (stage.call.operation member.candidate.candidacy).kind? =
                some kind ∧ kind ≠ .removed := by
              cases call : stage.call with
              | create => exact ⟨.created, rfl, by decide⟩
              | renew => exact ⟨.updated, rfl, by decide⟩
              | poll => exact absurd call writes
            obtain ⟨kind, does, kept⟩ := does
            obtain rfl := performed.answered_written does kept
            rw [done, Bucket.of?_of_ok does]
            exact ⟨_, List.mem_append_right _ (List.mem_singleton_self _), rfl, kept, rfl⟩
  · obtain ⟨deed, earlier, mine⟩ := owned other rival was held bears
    exact ⟨deed, List.mem_append_left _ earlier, mine⟩

theorem Owned.turn (owned : contest.Owned history) (turn : Turn contest action next) :
    next.Owned (history ++ (contest.deed? action).toList) := by
  cases turn with
  | joined candidacy accepted =>
      intro id member found held bears
      rcases found_in_concat found with was | rfl
      · obtain ⟨deed, done, mine⟩ := owned id member was held bears
        exact ⟨deed, List.mem_append_left _ done, mine⟩
      · cases bears with
        | leading _ _ never => cases never
        | landed _ _ _ _ _ never => cases never
  | ignored | cancelled | performed | injected | passed => exact owned.keep rfl
  | started id context member found fresh =>
      apply owned.put found rfl
      intro held bears
      cases bears with
      | leading _ _ never => cases never
      | landed _ _ _ _ _ never => cases never
  | stopped id member found | deafened id member found =>
      exact owned.put found rfl (bears_of_same_work rfl rfl)
  | called id plan member stage following found between moved =>
      exact owned.put found rfl (bears_of_called between moved)
  | quit id plan member stage outcome found | abandoned id plan member stage found =>
      exact owned.put found rfl (fun held bears => absurd bears (not_bears_of_ended rfl))
  | landed id plan member stage began flight reply bucket found calling flying aloft arrived
      performed =>
      exact owned.landed found calling flying aloft arrived performed
  | answered id plan member stage began flight landedAt answer found calling flying landed =>
      exact owned.put found rfl (bears_of_answered calling flying landed)
  | cutOff id plan member stage began flight limit found =>
      refine owned.put found rfl (fun held bears => absurd bears (not_bears_of_ended ?_))
      simp only [Candidate.settle_timeout, Candidate.task_finish]

end Contest

/-! ### Reigns -/

namespace Deed

structure Reign (ttl id : Nat) (opening : Deed) (updates : List Deed) : Prop where
  opened : opening.author = some id ∧ opening.kind = .created
  continued : ∀ deed ∈ updates, deed.author = some id ∧ deed.kind = .updated
  unbroken : (opening :: updates).IsChain fun earlier later =>
    earlier.instant ≤ later.instant ∧ later.instant < earlier.instant + ttl

/-- After this history of its key, a deed goes on with the reign of a member. Neither another write
nor a deletion of the key lies between it and the member's write before it. -/
structure Continues (history : List Deed) (ttl id : Nat) (deed : Deed) : Prop where
  preceded : ∃ earlier previous, on deed.key history = earlier ++ [previous] ∧
    previous.author = some id ∧ previous.kind ≠ .removed ∧ previous.instant ≤ deed.instant ∧
    deed.instant < previous.instant + ttl
  reign : ∃ earlier opening updates, on deed.key history = earlier ++ opening :: updates ∧
    Reign ttl id opening (updates ++ [deed])

variable {ttl id : Nat} {opening deed previous : Deed} {updates : List Deed}

theorem reign_of_created (author : deed.author = some id) (creates : deed.kind = .created) :
    Reign ttl id deed [] where
  opened := ⟨author, creates⟩
  continued := by
    intro other never
    cases never
  unbroken := List.isChain_singleton deed

theorem Reign.extend (reign : Reign ttl id opening updates)
    (last : (opening :: updates).getLast? = some previous) (author : deed.author = some id)
    (kind : deed.kind = .updated) (past : previous.instant ≤ deed.instant)
    (soon : deed.instant < previous.instant + ttl) : Reign ttl id opening (updates ++ [deed]) where
  opened := reign.opened
  continued := by
    intro other member
    rcases List.mem_append.mp member with earlier | new
    · exact reign.continued other earlier
    · rw [List.mem_singleton.mp new]
      exact ⟨author, kind⟩
  unbroken := by
    rw [← List.cons_append]
    refine List.isChain_append.mpr ⟨reign.unbroken, List.isChain_singleton deed, ?_⟩
    intro one ending other beginning
    rw [last] at ending
    cases ending
    cases beginning
    exact ⟨past, soon⟩

end Deed

theorem Candidacy.ttl_pos_of_accept {candidacy : Candidacy} {terms : BucketTerms}
    (accepted : candidacy.accept terms = .ok ()) : 0 < terms.ttl := by
  rcases Nat.eq_zero_or_pos terms.ttl with zero | positive
  · simp only [accept, BucketTerms.ttl?, if_pos zero] at accepted
    cases accepted
  · exact positive

namespace Contest

variable {contest next : Contest} {action : Action} {history : List Deed} {id : Nat} {deed : Deed}

structure Annals (contest : Contest) (history : List Deed) : Prop where
  recorded : contest.bucket.Recorded contest.now history
  owned : contest.Owned history
  limited : ∀ member ∈ contest.members, 0 < contest.bucket.terms.ttl
  reigns : ∀ key earlier deed id, Deed.on key history = earlier ++ [deed] →
    deed.author = some id → deed.kind ≠ .removed →
    ∃ before opening updates, Deed.on key history = before ++ opening :: updates ∧
      Deed.Reign contest.bucket.terms.ttl id opening updates

theorem annals_opening (terms : BucketTerms) : (opening terms).Annals [] where
  recorded := .opening terms
  owned := by
    intro id member never
    cases never
  limited := by
    intro member never
    cases never
  reigns := by
    intro key earlier deed id never
    exact absurd never (by simp [Deed.on])

/-- An update of a member succeeds only right after a write of the same member. -/
theorem Annals.preceded (annals : contest.Annals history) (done : contest.deed? action = some deed)
    (author : deed.author = some id) (kind : deed.kind = .updated) :
    ∃ earlier previous, Deed.on deed.key history = earlier ++ [previous] ∧
      previous.author = some id ∧ previous.kind ≠ .removed ∧ previous.instant ≤ deed.instant ∧
      deed.instant < previous.instant + contest.bucket.terms.ttl := by
  cases action with
  | perform operation =>
      obtain ⟨_, _, _, _, _, rfl⟩ := Bucket.deed?_eq_some done
      cases author
  | proceed other plan =>
      obtain ⟨member, stage, began, flight, found, calling, flying, done⟩ :=
        deed?_proceed_eq_some done
      obtain ⟨_, answered, after, does, performed, rfl⟩ := Bucket.deed?_eq_some done
      obtain rfl : other = id := Option.some.inj author
      obtain rfl := kind
      cases stage with
      | electing | following => cases does
      | leading held ticker =>
          obtain ⟨⟨record, live, rfl⟩, _, _⟩ := Bucket.Performed.of_updated performed
          rw [Bucket.live?_struckBy] at live
          obtain ⟨present, fresh⟩ := Bucket.live?_eq_some_iff.mp live
          obtain ⟨earlier, previous, whole, wrote, stamp, written⟩ :=
            annals.recorded.latest _ record present
          have before : previous ∈ history :=
            Deed.mem_of_mem_on (whole ▸ List.mem_append_right _ (List.mem_singleton_self previous))
          -- The member renews under a revision of its own, and no other write has that one.
          obtain ⟨mine, done, own, change, same⟩ := annals.owned other member found record.revision
            (.leading record.revision ticker (Candidate.stage?_of_calling calling))
          obtain rfl := annals.recorded.unique mine done previous before change wrote
            (same.trans stamp.symm)
          have positive := annals.limited member (List.mem_of_getElem? found)
          have limited : contest.bucket.terms.ttl? = some contest.bucket.terms.ttl :=
            if_neg (Nat.ne_of_gt positive)
          rw [Bucket.expired_eq_false_iff limited, ← written] at fresh
          have past := annals.recorded.past mine done
          exact ⟨earlier, mine, whole, own, wrote, past, by simp only; omega⟩
  | _ => cases done

theorem Annals.continues (annals : contest.Annals history) (done : contest.deed? action = some deed)
    (author : deed.author = some id) (kind : deed.kind = .updated) :
    Deed.Continues history contest.bucket.terms.ttl id deed := by
  have preceded := annals.preceded done author kind
  refine ⟨preceded, ?_⟩
  obtain ⟨earlier, previous, whole, own, wrote, past, soon⟩ := preceded
  obtain ⟨before, opening, updates, split, reign⟩ :=
    annals.reigns deed.key earlier previous id whole own wrote
  have last : (opening :: updates).getLast? = some previous := by
    have both : (before ++ opening :: updates).getLast? = some previous := by
      rw [← split, whole]
      exact List.getLast?_concat
    rwa [List.getLast?_append_of_ne_nil _ (List.cons_ne_nil _ _)] at both
  exact ⟨before, opening, updates, split, reign.extend last author kind past soon⟩

theorem Annals.reigns_concat (annals : contest.Annals history)
    (done : contest.deed? action = some deed) (key : String) (earlier : List Deed) (last : Deed)
    (id : Nat) (whole : Deed.on key (history ++ [deed]) = earlier ++ [last])
    (author : last.author = some id) (wrote : last.kind ≠ .removed) :
    ∃ before opening updates, Deed.on key (history ++ [deed]) = before ++ opening :: updates ∧
      Deed.Reign contest.bucket.terms.ttl id opening updates := by
  by_cases same : deed.key = key
  · subst same
    rw [Deed.on_concat rfl] at whole ⊢
    obtain ⟨rfl, one⟩ := List.append_inj' whole rfl
    obtain rfl : deed = last := List.singleton_inj.mp one
    cases kind : deed.kind with
    | removed => exact absurd kind wrote
    | created => exact ⟨_, deed, [], rfl, Deed.reign_of_created author kind⟩
    | updated =>
        obtain ⟨before, opening, updates, split, reign⟩ := (annals.continues done author kind).reign
        refine ⟨before, opening, updates ++ [deed], ?_, reign⟩
        rw [split, List.append_assoc, List.cons_append]
  · rw [Deed.on_concat_of_ne same] at whole ⊢
    exact annals.reigns key earlier last id whole author wrote

theorem Turn.limited (turn : Turn contest action next)
    (limited : ∀ member ∈ contest.members, 0 < contest.bucket.terms.ttl) :
    ∀ member ∈ next.members, 0 < next.bucket.terms.ttl := by
  intro member present
  rw [turn.terms_eq]
  rcases turn.members_cases with same | ⟨candidacy, accepted, _⟩ | ⟨id, earlier, _, found, _⟩
  · exact limited member (same ▸ present)
  · exact candidacy.ttl_pos_of_accept accepted
  · exact limited earlier (List.mem_of_getElem? found)

theorem Annals.turn (annals : contest.Annals history) (turn : Turn contest action next)
    (room : contest.bucket.revision.toNat < Revision.last) :
    next.Annals (history ++ (contest.deed? action).toList) where
  recorded := by
    obtain ⟨_, _, changed⟩ := turn.changed
    refine (annals.recorded.changed room changed).idle rfl (fun _ _ found => found) turn.now_le
  owned := annals.owned.turn turn
  limited := turn.limited annals.limited
  reigns := by
    rw [turn.terms_eq]
    cases done : contest.deed? action with
    | none =>
        rw [Option.toList_none, List.append_nil]
        exact annals.reigns
    | some deed => exact annals.reigns_concat done

theorem annals_of_run {terms : BucketTerms} {actions : List Action}
    (run : (opening terms).run? actions = some contest)
    (room : contest.bucket.revision.toNat < Revision.last) :
    contest.Annals ((opening terms).chronicle actions) := by
  refine run_induction (motive := fun actions contest =>
    contest.bucket.revision.toNat < Revision.last →
      contest.Annals ((opening terms).chronicle actions)) ?_ ?_ actions contest run room
  · intro _
    exact annals_opening terms
  · intro actions contest action next ran ih turn room
    -- The counter never falls, so it had room all along.
    have earlier := Nat.lt_of_le_of_lt turn.revision_le room
    rw [chronicle_concat ran]
    exact (ih earlier).turn turn earlier

theorem terms_of_run {terms : BucketTerms} {actions : List Action}
    (run : (opening terms).run? actions = some contest) : contest.bucket.terms = terms := by
  refine run_induction (motive := fun _ contest => contest.bucket.terms = terms) rfl ?_ actions
    contest run
  intro _ _ _ _ _ same turn
  exact turn.terms_eq.trans same

/-- Whatever happens to the bucket and however long calls take: while the counter has room, an update
of a member succeeds only within the time-to-live of a write of the same member, with no other write
and no deletion of the key between them. The member's writes so far go back to a create of its own. -/
theorem continues_of_run {terms : BucketTerms} {actions : List Action}
    (run : (opening terms).run? actions = some contest)
    (room : contest.bucket.revision.toNat < Revision.last)
    (done : contest.deed? action = some deed) (author : deed.author = some id)
    (kind : deed.kind = .updated) :
    Deed.Continues ((opening terms).chronicle actions) terms.ttl id deed := by
  have continues := (annals_of_run run room).continues done author kind
  rw [terms_of_run run] at continues
  exact continues

/-- A third party takes the key and gives it up again. Then a candidate wins, and its renewal is
due. -/
def takeover : List Action :=
  [.perform (.create "k" []), .perform (.delete "k"),
    .nominate { key := "k", candidate := ⟨"a"⟩, renewEveryMs := 1500, pollEveryMs := 500 },
    .start 0 "", .proceed 0 {}, .proceed 0 {}, .proceed 0 {}, .passTo 1_500_000_000]

def afterTakeover : Contest where
  bucket :=
    { terms := ⟨"b", 2_000_000_000⟩
      records := [("k", ⟨Text.encode "a", ⟨2⟩, 0⟩)]
      revision := ⟨2⟩ }
  now := 1_500_000_000
  members :=
    [{ candidate :=
        { candidacy := { key := "k", candidate := ⟨"a"⟩, renewEveryMs := 1500, pollEveryMs := 500 }
          task := .between (.leading ⟨2⟩ ⟨1_500_000_000, 1_500_000_000⟩)
          listening := true
          reports := [.won] } }]
  calls := [⟨0, .create, 0, 0, some (0, .ok ⟨"k", Text.encode "a", ⟨2⟩⟩), false⟩]

def secondReign : List Action := takeover ++ [.proceed 0 {}]

def afterSecondReign : Contest where
  bucket := afterTakeover.bucket
  now := afterTakeover.now
  members :=
    [{ candidate :=
        { candidacy := { key := "k", candidate := ⟨"a"⟩, renewEveryMs := 1500, pollEveryMs := 500 }
          task := .calling (.leading ⟨2⟩ ⟨3_000_000_000, 1_500_000_000⟩) 1_500_000_000
          listening := true
          reports := [.won] }
       flight := some { plan := {} } }]
  calls := afterTakeover.calls

theorem run_takeover :
    (opening ⟨"b", 2_000_000_000⟩).run? takeover = some afterTakeover := rfl

theorem run_secondReign :
    (opening ⟨"b", 2_000_000_000⟩).run? secondReign = some afterSecondReign := by
  have renewing : afterTakeover.act? (.proceed 0 {}) = some afterSecondReign := rfl
  rw [run?, secondReign, Runs.foldlM_concat, ← run?, run_takeover]
  exact renewing

def renewal : Deed := ⟨some 0, .updated, "k", ⟨3⟩, 1_500_000_000⟩

theorem deed?_afterSecondReign : afterSecondReign.deed? (.proceed 0 {}) = some renewal := by
  decide +kernel

theorem continues_secondReign :
    (opening ⟨"b", 2_000_000_000⟩).run? secondReign = some afterSecondReign ∧
      afterSecondReign.bucket.revision.toNat < Revision.last ∧
      afterSecondReign.deed? (.proceed 0 {}) = some renewal ∧
      renewal.author = some 0 ∧ renewal.kind = .updated ∧
      Deed.Continues ((opening ⟨"b", 2_000_000_000⟩).chronicle secondReign) 2_000_000_000 0
        renewal :=
  have room : afterSecondReign.bucket.revision.toNat < Revision.last := by decide
  ⟨run_secondReign, room, deed?_afterSecondReign, rfl, rfl,
    continues_of_run run_secondReign room deed?_afterSecondReign rfl rfl⟩

/-! ### A bucket with one key in use -/

section Lone

variable {terms : BucketTerms} {actions done : List Action} {key : String} {record : Record}

/-- Since a revision was given out, no other key of the bucket has been written. -/
def Lone (first : Contest) (actions : List Action) (key : String) (since : Revision) : Prop :=
  ∀ deed ∈ first.chronicle actions, deed.kind ≠ .removed →
    since.toNat < deed.revision.toNat → deed.key = key

theorem Lone.before {first : Contest} {since : Revision} (run : first.run? done = some contest)
    (lone : first.Lone (done ++ [action]) key since) : first.Lone done key since := by
  intro deed past
  refine lone deed ?_
  rw [chronicle_concat run]
  exact List.mem_append_left _ past

/-- Where the counter is ahead of a record, another key has taken a revision since. -/
theorem counter_of_run (run : (opening terms).run? actions = some contest)
    (room : contest.bucket.revision.toNat < Revision.last)
    (held : contest.bucket.record? key = some record) :
    contest.bucket.revision = record.revision ∨
      ∃ deed ∈ (opening terms).chronicle actions, deed.key ≠ key ∧ deed.kind ≠ .removed ∧
        record.revision.toNat < deed.revision.toNat := by
  refine run_induction (motive := fun actions contest =>
    contest.bucket.revision.toNat < Revision.last → ∀ record,
      contest.bucket.record? key = some record → contest.bucket.revision = record.revision ∨
        ∃ deed ∈ (opening terms).chronicle actions, deed.key ≠ key ∧ deed.kind ≠ .removed ∧
          record.revision.toNat < deed.revision.toNat) ?_ ?_ actions contest run room record held
  · intro _ record never
    cases never
  · intro actions contest action next ran ih turn room record held
    obtain ⟨author, operation, changed⟩ := turn.changed
    have earlier := ih (Nat.lt_of_le_of_lt turn.revision_le room)
    rw [chronicle_concat ran]
    generalize contest.deed? action = new at changed ⊢
    have kept (counter : next.bucket.revision = contest.bucket.revision)
        (was : contest.bucket.record? key = some record) : next.bucket.revision = record.revision ∨
          ∃ deed ∈ (opening terms).chronicle actions ++ new.toList, deed.key ≠ key ∧
            deed.kind ≠ .removed ∧ record.revision.toNat < deed.revision.toNat := by
      rcases earlier record was with same | ⟨deed, past, elsewhere⟩
      · exact Or.inl (counter.trans same)
      · exact Or.inr ⟨deed, List.mem_append_left _ past, elsewhere⟩
    cases changed with
    | idle counter kept' => exact kept counter (kept' key record held)
    | removed counter here elsewhere =>
        by_cases same : key = operation.key
        · rw [same, here] at held
          cases held
        · exact kept counter ((elsewhere key same).symm.trans held)
    | wrote kind value writes counter here elsewhere =>
        by_cases same : key = operation.key
        · rw [same, here] at held
          cases held
          exact Or.inl rfl
        · refine Or.inr ?_
          rcases earlier record ((elsewhere key same).symm.trans held) with level | ⟨deed, past, ahead⟩
          · refine ⟨_, List.mem_append_right _ (List.mem_singleton_self _), Ne.symm same, writes, ?_⟩
            have grown : next.bucket.revision.toNat = contest.bucket.revision.toNat + 1 := by
              rw [counter, Revision.toNat_next] at room ⊢
              omega
            simp only [grown, level]
            omega
          · exact ⟨deed, List.mem_append_left _ past, ahead⟩

theorem Lone.counter {since : Revision} (lone : (opening terms).Lone actions key since)
    (run : (opening terms).run? actions = some contest)
    (room : contest.bucket.revision.toNat < Revision.last) (record : Record)
    (held : contest.bucket.record? key = some record)
    (later : since.toNat ≤ record.revision.toNat) :
    contest.bucket.revision = record.revision := by
  rcases counter_of_run run room held with same | ⟨deed, past, elsewhere, writes, ahead⟩
  · exact same
  · exact absurd (lone deed past writes (Nat.lt_of_le_of_lt later ahead)) elsewhere

end Lone

end Contest

end Leasehold
