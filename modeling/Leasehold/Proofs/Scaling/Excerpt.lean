import Leasehold.Proofs.Scaling.Elections

set_option autoImplicit false

/-!
The part of a fleet that concerns one key.

As for contests, the excerpt of a fleet is a fleet again: the replicas that contest the key, under
numbers of their own, and the excerpt of their contest. What is left of an action does the same to it.
-/

namespace Leasehold

/-! ### Other numbers -/

section Renamed

variable (rename : Revision → Revision) (seat : Nat → Nat)

def ElectionError.renamed : ElectionError → ElectionError
  | store cause => store (cause.renamed rename)
  | error => error

def Term.reseated (term : Term) : Term := { term with member := seat term.member }

def Activity.renamed : Activity → Activity
  | watching term => watching (term.reseated seat)
  | reconciling term doneAt => reconciling (term.reseated seat) doneAt
  | done (.error error) => done (.error { error with cause := error.cause.renamed rename })
  | activity => activity

def Replica.renamed (replica : Replica) : Replica :=
  { replica with activity := replica.activity.renamed rename seat }

end Renamed

def Replica.key (replica : Replica) : String := replica.assignment.candidacy.key

namespace Fleet

def keys (fleet : Fleet) : List String := fleet.replicas.map Replica.key

def excerptReconciles (keys : List String) (key : String) (reconciles : List ReconcileRecord) :
    List ReconcileRecord :=
  Seats.relist keys key ReconcileRecord.replica
    (fun seat record => { record with replica := seat }) reconciles

def excerptEndings (keys : List String) (key : String) (endings : List Nat) : List Nat :=
  Seats.relist keys key id (fun seat _ => seat) endings

def excerpt (fleet : Fleet) (rename : Revision → Revision) (key : String) : Fleet where
  contest := fleet.contest.excerpt rename key
  replicas := (Seats.pick Replica.key key fleet.replicas).map
    (Replica.renamed rename (Seats.seat fleet.contest.keys key))
  reconciles := excerptReconciles fleet.keys key fleet.reconciles
  endings := excerptEndings fleet.keys key fleet.endings

/-- What is left of an action when only one key counts. Of the replicas that a set spawns, those for
the key are left. -/
def excerptOf (fleet : Fleet) (rename : Revision → Revision) (key : String) :
    FleetAction → List FleetAction
  | .add assignment => if assignment.candidacy.key = key then [.add assignment] else []
  | .spawn settings context =>
      (settings.scaler.functions.filter (leaderKey · = key)).map fun function =>
        .add (assignmentFor settings context function)
  | .proceed id branch candidate duration => addressed id (.proceed · branch candidate duration)
  | .abort id => addressed id .abort
  | .among action => (fleet.contest.excerptOf rename key action).map .among
  | .passTo instant => [.passTo instant]
where
  addressed (id : Nat) (of : Nat → FleetAction) : List FleetAction :=
    Seats.addressed fleet.keys key id of

structure Seated (fleet : Fleet) : Prop where
  reconciles : ∀ record ∈ fleet.reconciles, record.replica < fleet.replicas.length
  endings : ∀ id ∈ fleet.endings, id < fleet.replicas.length

variable {fleet next : Fleet} {action : FleetAction} {rename : Revision → Revision} {key : String}
  {id : Nat} {replica : Replica} {term : Term}

/-! ### One replica -/

theorem found_excerpt (found : fleet.replicas[id]? = some replica) (named : replica.key = key) :
    (fleet.excerpt rename key).replicas[Seats.seat fleet.keys key id]? =
      some (replica.renamed rename (Seats.seat fleet.contest.keys key)) := by
  have picked := Seats.getElem?_pick found named
  simp only [excerpt, keys, List.getElem?_map, picked, Option.map_some]

theorem setActivity_excerpt {activity : Activity} (found : fleet.replicas[id]? = some replica)
    (named : replica.key = key) :
    (fleet.setActivity id activity).excerpt rename key =
      (fleet.excerpt rename key).setActivity (Seats.seat fleet.keys key id)
        (activity.renamed rename (Seats.seat fleet.contest.keys key)) := by
  have there := @found_excerpt fleet rename key id replica found named
  have picked := @Seats.pick_set Replica Replica.key _ key id replica { replica with activity } found
    named named
  have same : (fleet.put id replica activity).keys = fleet.keys := Seats.map_set found rfl
  rw [setActivity_eq_put found, setActivity_eq_put there]
  simp only [excerpt, same]
  simp only [put, picked, List.map_set]
  rfl

theorem setActivity_excerpt_of_ne {activity : Activity}
    (found : fleet.replicas[id]? = some replica) (apart : replica.key ≠ key) :
    (fleet.setActivity id activity).excerpt rename key = fleet.excerpt rename key := by
  have picked := @Seats.pick_set_of_ne Replica Replica.key _ key id replica { replica with activity }
    found apart rfl
  have same : (fleet.put id replica activity).keys = fleet.keys := Seats.map_set found rfl
  rw [setActivity_eq_put found]
  simp only [excerpt, same]
  simp only [put, picked]

theorem keys_setActivity {activity : Activity} (found : fleet.replicas[id]? = some replica) :
    (fleet.setActivity id activity).keys = fleet.keys := by
  rw [setActivity_eq_put found]
  exact Seats.map_set found rfl

theorem concerned_of_found (found : fleet.replicas[id]? = some replica)
    (named : replica.key = key) : Seats.concerns fleet.keys key id = true :=
  Seats.concerns_of_found found named

theorem unconcerned_of_found (found : fleet.replicas[id]? = some replica)
    (apart : replica.key ≠ key) : Seats.concerns fleet.keys key id = false :=
  Seats.not_concerns_of_found found apart

theorem unconcerned_of_missing (missing : fleet.replicas[id]? = none) :
    Seats.concerns fleet.keys key id = false :=
  Seats.not_concerns_of_missing missing

theorem excerptEndings_concat (found : fleet.replicas[id]? = some replica)
    (named : replica.key = key) :
    excerptEndings fleet.keys key (fleet.endings ++ [id]) =
      excerptEndings fleet.keys key fleet.endings ++ [Seats.seat fleet.keys key id] := by
  rw [excerptEndings, Seats.relist_append, Seats.relist_of_concerned (concerned_of_found found named)]
  rfl

theorem excerptEndings_concat_of_ne (found : fleet.replicas[id]? = some replica)
    (apart : replica.key ≠ key) :
    excerptEndings fleet.keys key (fleet.endings ++ [id]) =
      excerptEndings fleet.keys key fleet.endings := by
  rw [excerptEndings, Seats.relist_append,
    Seats.relist_of_unconcerned (unconcerned_of_found found apart), List.append_nil]
  rfl

theorem conclude_excerpt {activity : Activity} (found : fleet.replicas[id]? = some replica)
    (named : replica.key = key) :
    (fleet.conclude id activity).excerpt rename key =
      (fleet.excerpt rename key).conclude (Seats.seat fleet.keys key id)
        (activity.renamed rename (Seats.seat fleet.contest.keys key)) := by
  have ended := excerptEndings_concat found named
  rw [← @keys_setActivity fleet id replica activity found] at ended
  rw [conclude, conclude, ← setActivity_excerpt found named]
  refine congrArg (fun endings => { (fleet.setActivity id activity).excerpt rename key with endings })
    (ended.trans ?_)
  rw [keys_setActivity found]
  rfl

theorem conclude_excerpt_of_ne {activity : Activity} (found : fleet.replicas[id]? = some replica)
    (apart : replica.key ≠ key) :
    (fleet.conclude id activity).excerpt rename key = fleet.excerpt rename key := by
  have ended := excerptEndings_concat_of_ne found apart
  rw [← @keys_setActivity fleet id replica activity found] at ended
  rw [conclude, ← @setActivity_excerpt_of_ne fleet rename key id replica activity found apart]
  exact congrArg (fun endings => { (fleet.setActivity id activity).excerpt rename key with endings })
    ended

/-! ### Elections of a replica -/

theorem renamed_of_keys_append {more : List String} (aware : fleet.Aware)
    (present : replica ∈ fleet.replicas) :
    replica.renamed rename (Seats.seat (fleet.contest.keys ++ more) key) =
      replica.renamed rename (Seats.seat fleet.contest.keys key) := by
  obtain ⟨id, found⟩ := List.mem_iff_getElem?.mp present
  have kept (term : Term) (current : replica.term? = some term) :
      term.reseated (Seats.seat (fleet.contest.keys ++ more) key) =
        term.reseated (Seats.seat fleet.contest.keys key) := by
    obtain ⟨member, seated, _⟩ := aware id replica term found current
    have inside : term.member ≤ fleet.contest.keys.length := by
      rw [Contest.keys, List.length_map]
      exact Nat.le_of_lt (List.getElem?_eq_some_iff.mp seated).1
    rw [Term.reseated, Seats.seat_append inside more]
    rfl
  obtain ⟨assignment, activity⟩ := replica
  cases activity with
  | watching term => exact congrArg (Replica.mk assignment <| .watching ·) (kept term rfl)
  | reconciling term doneAt =>
      exact congrArg (Replica.mk assignment <| .reconciling · doneAt) (kept term rfl)
  | done result => cases result <;> rfl
  | joining | backingOff | crashed | aborted => rfl

theorem excerpt_contest {contest : Contest} (aware : fleet.Aware)
    (grown : ∃ more, contest.keys = fleet.contest.keys ++ more) :
    excerpt { fleet with contest } rename key =
      { fleet.excerpt rename key with contest := contest.excerpt rename key } := by
  obtain ⟨more, grown⟩ := grown
  have replicas : (Seats.pick Replica.key key fleet.replicas).map
      (Replica.renamed rename (Seats.seat contest.keys key)) =
      (Seats.pick Replica.key key fleet.replicas).map
        (Replica.renamed rename (Seats.seat fleet.contest.keys key)) := by
    rw [grown]
    exact List.map_congr_left fun replica picked =>
      renamed_of_keys_append aware (List.mem_of_mem_filter picked)
  exact congrArg (fun replicas => { fleet.excerpt rename key with
    contest := contest.excerpt rename key, replicas }) replicas

theorem keys_leave {seat : Nat} : (fleet.leave seat).contest.keys = fleet.contest.keys :=
  (Contest.keys_updateCandidate Contest.plain_deafen).trans
    (Contest.keys_updateCandidate Contest.plain_stop)

theorem leave_excerpt {member : Member} {seat : Nat} (aware : fleet.Aware)
    (seated : fleet.contest.members[seat]? = some member) (named : member.key = key) :
    (fleet.leave seat).excerpt rename key =
      (fleet.excerpt rename key).leave (Seats.seat fleet.contest.keys key seat) := by
  have kept := @excerpt_contest fleet rename key ((fleet.contest.stop seat).deafen seat) aware
    ⟨[], keys_leave.trans (List.append_nil _).symm⟩
  rw [leave, kept, ← Contest.leave_excerpt seated named]
  rfl

theorem leave_excerpt_of_ne {member : Member} {seat : Nat} (aware : fleet.Aware)
    (seated : fleet.contest.members[seat]? = some member) (apart : member.key ≠ key) :
    (fleet.leave seat).excerpt rename key = fleet.excerpt rename key := by
  have kept := @excerpt_contest fleet rename key ((fleet.contest.stop seat).deafen seat) aware
    ⟨[], keys_leave.trans (List.append_nil _).symm⟩
  rw [leave, kept, Contest.leave_excerpt_of_ne seated apart]
  rfl

theorem seat_newcomer {contest after : Contest} (grown : ∃ more, after.keys = contest.keys ++ more) :
    Seats.seat after.keys key contest.members.length = (contest.excerpt rename key).members.length := by
  obtain ⟨more, grown⟩ := grown
  have inside : contest.members.length ≤ contest.keys.length := by
    rw [Contest.keys, List.length_map]
  have place := @Seats.seat_length Member Member.key contest.members key
  rw [grown, Seats.seat_append inside, Contest.keys, place]
  exact (List.length_map _).symm

/-- No revision shows in the reasons why nobody stands. -/
theorem renamed_of_nominate {contest : Contest} {candidacy : Candidacy} {cause : ElectionError}
    (fails : contest.nominate candidacy = .error cause) : cause.renamed rename = cause := by
  simp only [Contest.nominate] at fails
  split at fails
  · rename_i refused
    cases fails
    unfold Candidacy.accept at refused
    split at refused
    · cases refused
      rfl
    · unfold Candidacy.validate at refused
      split at refused
      · cases refused
        rfl
      · cases refused
  · cases fails

theorem renamed_of_start {contest : Contest} {seat : Nat} {context : String} {cause : ElectionError}
    (fails : contest.start seat context = .error cause) : cause.renamed rename = cause := by
  simp only [Contest.start] at fails
  split at fails
  · split at fails
    · cases fails
    · cases fails
      rfl
  · cases fails

def joinContest (contest : Contest) (candidacy : Candidacy) (context : String) :
    Except ElectionError Contest := do
  let standing ← contest.nominate candidacy
  standing.start contest.members.length context

section JoinContest

variable {contest after : Contest} {candidacy : Candidacy} {context : String} {cause : ElectionError}

theorem renamed_of_joinContest (fails : joinContest contest candidacy context = .error cause) :
    cause.renamed rename = cause := by
  unfold joinContest at fails
  cases stands : contest.nominate candidacy with
  | error refused =>
      rw [stands] at fails
      cases fails
      exact renamed_of_nominate stands
  | ok standing =>
      rw [stands] at fails
      exact renamed_of_start fails

theorem asked_of_joinContest (begun : joinContest contest candidacy context = .ok after) :
    contest.Asked after ∧ ∃ member, after.members[contest.members.length]? = some member ∧
      member.key = candidacy.key := by
  unfold joinContest at begun
  cases stands : contest.nominate candidacy with
  | error refused =>
      rw [stands] at begun
      cases begun
  | ok standing =>
      rw [stands] at begun
      obtain ⟨asked, member, seated, named, _⟩ := joined_of_begun stands begun
      exact ⟨asked, member, seated, named⟩

/-- A newcomer for the key stands and starts in the excerpt just as well. -/
theorem joinContest_excerpt (here : candidacy.key = key) (seated : contest.Seated) :
    joinContest (contest.excerpt rename key) candidacy context =
      (joinContest contest candidacy context).map (Contest.excerpt · rename key) := by
  unfold joinContest
  rw [Contest.nominate_excerpt here seated]
  cases stands : contest.nominate candidacy with
  | error cause => rfl
  | ok standing =>
      have acted : contest.act? (.nominate candidacy) = some standing := by
        rw [Contest.act?, stands]
        rfl
      have turn := Contest.turn_of_act? acted
      have place := @seat_newcomer rename key contest standing turn.keys_eq
      cases turn with
      | ignored _ _ asks => cases asks
      | joined =>
          have found : (contest.members ++ [({ candidate := { candidacy } } : Member)])[
              contest.members.length]? = some { candidate := { candidacy } } :=
            List.getElem?_concat_length
          rw [← place]
          exact Contest.start_excerpt found here

theorem joinContest_excerpt_of_ne (apart : candidacy.key ≠ key) (seated : contest.Seated)
    (begun : joinContest contest candidacy context = .ok after) :
    after.excerpt rename key = contest.excerpt rename key := by
  unfold joinContest at begun
  cases stands : contest.nominate candidacy with
  | error refused =>
      rw [stands] at begun
      cases begun
  | ok standing =>
      rw [stands] at begun
      have joined := @Contest.nominate_excerpt_of_ne contest standing rename key candidacy apart
        seated stands
      have acted : contest.act? (.nominate candidacy) = some standing := by
        rw [Contest.act?, stands]
        rfl
      cases Contest.turn_of_act? acted with
      | ignored _ _ asks => cases asks
      | joined =>
          have started := @Contest.start_excerpt_of_ne _ after rename key contest.members.length
            { candidate := { candidacy } } context List.getElem?_concat_length apart begun
          exact started.trans joined

end JoinContest

theorem Aware.request {contest : Contest} (aware : fleet.Aware) (asked : fleet.contest.Asked contest) :
    Aware { fleet with contest } := by
  obtain ⟨requests, run, _⟩ := asked
  intro id replica term found current
  exact (aware id replica term found current).onward run

theorem keys_of_asked {contest : Contest} (asked : fleet.contest.Asked contest) :
    ∃ more, contest.keys = fleet.contest.keys ++ more := by
  obtain ⟨requests, run, _⟩ := asked
  exact Contest.keys_of_run run

/-- What becomes of a replica that wants to join, by the election that it has begun. -/
theorem join_eq {candidate : CandidateName} {assignment : Assignment} :
    fleet.join id assignment candidate =
      match joinContest fleet.contest { assignment.candidacy with candidate } assignment.context with
      | .error cause => fleet.conclude id (.done (.error ⟨assignment.function, cause⟩))
      | .ok contest =>
          if assignment.settings.scaleInterval = 0 then
            (leave { fleet with contest } fleet.contest.members.length).conclude id .crashed
          else setActivity { fleet with contest } id (.watching
            { member := fleet.contest.members.length,
              ticker := .fromNow contest.now assignment.settings.scaleInterval }) := by
  rfl

theorem join_excerpt {candidate : CandidateName} (aware : fleet.Aware)
    (seated : fleet.contest.Seated) (found : fleet.replicas[id]? = some replica)
    (named : replica.key = key) :
    (fleet.join id replica.assignment candidate).excerpt rename key =
      (fleet.excerpt rename key).join (Seats.seat fleet.keys key id) replica.assignment candidate := by
  have there := @joinContest_excerpt rename key fleet.contest
    { replica.assignment.candidacy with candidate } replica.assignment.context named seated
  rw [join_eq, join_eq, show (fleet.excerpt rename key).contest = fleet.contest.excerpt rename key
    from rfl, there]
  cases begun : joinContest fleet.contest { replica.assignment.candidacy with candidate }
      replica.assignment.context with
  | error cause =>
      simp only [Except.map]
      rw [conclude_excerpt found named, Activity.renamed, renamed_of_joinContest begun]
  | ok contest =>
      obtain ⟨asked, member, placed, own⟩ := asked_of_joinContest begun
      have grown := keys_of_asked asked
      have joined := @excerpt_contest fleet rename key contest aware grown
      have place := @seat_newcomer rename key fleet.contest contest grown
      simp only [Except.map]
      split
      · have left := @leave_excerpt { fleet with contest } rename key member _ (aware.request asked)
          placed (own.trans named)
        rw [joined, place] at left
        exact (@conclude_excerpt (leave { fleet with contest } _) rename key id replica _ found
          named).trans (congrArg (conclude · _ _) left)
      · have watched := @setActivity_excerpt { fleet with contest } rename key id replica (.watching
          { member := fleet.contest.members.length,
            ticker := .fromNow contest.now replica.assignment.settings.scaleInterval }) found named
        rw [joined, Activity.renamed, Term.reseated, place] at watched
        exact watched

theorem join_excerpt_of_ne {candidate : CandidateName} (aware : fleet.Aware)
    (seated : fleet.contest.Seated) (found : fleet.replicas[id]? = some replica)
    (apart : replica.key ≠ key) :
    (fleet.join id replica.assignment candidate).excerpt rename key = fleet.excerpt rename key := by
  rw [join_eq]
  cases begun : joinContest fleet.contest { replica.assignment.candidacy with candidate }
      replica.assignment.context with
  | error cause => exact conclude_excerpt_of_ne found apart
  | ok contest =>
      obtain ⟨asked, member, placed, own⟩ := asked_of_joinContest begun
      have still := @joinContest_excerpt_of_ne rename key fleet.contest contest
        { replica.assignment.candidacy with candidate } replica.assignment.context apart seated begun
      have joined := @excerpt_contest fleet rename key contest aware (keys_of_asked asked)
      rw [still] at joined
      simp only
      split
      · have left := @leave_excerpt_of_ne { fleet with contest } rename key member _
          (aware.request asked) placed (own.trans_ne apart)
        exact ((@conclude_excerpt_of_ne (leave { fleet with contest } _) rename key id replica _ found
          apart).trans left).trans joined
      · exact (@setActivity_excerpt_of_ne { fleet with contest } rename key id replica _ found
          apart).trans joined

/-! ### News of an election -/

theorem candidate?_excerpt {member : Member} {seat : Nat}
    (seated : fleet.contest.members[seat]? = some member) (named : member.key = key) :
    (fleet.excerpt rename key).candidate? (Seats.seat fleet.contest.keys key seat) =
      some (member.candidate.renamed rename) := by
  have there := @Contest.found_excerpt fleet.contest rename key seat member seated named
  unfold candidate?
  rw [show (fleet.excerpt rename key).contest = fleet.contest.excerpt rename key from rfl, there]
  rfl

theorem branches_excerpt (aware : fleet.Aware) (found : fleet.replicas[id]? = some replica)
    (named : replica.key = key) :
    (fleet.excerpt rename key).branches
        (replica.renamed rename (Seats.seat fleet.contest.keys key)) = fleet.branches replica := by
  have known := aware id replica
  obtain ⟨assignment, activity⟩ := replica
  cases activity with
  | watching term =>
      obtain ⟨member, seated, own, _⟩ := known term found rfl
      have there := @candidate?_excerpt fleet rename key member term.member seated (own.trans named)
      have here : fleet.candidate? term.member = some member.candidate := by
        rw [candidate?, seated]
        rfl
      have closed : (member.candidate.renamed rename).closed = member.candidate.closed := by
        unfold Candidate.closed Candidate.renamed
        cases member.candidate.task <;> rfl
      have spoken : (member.candidate.renamed rename).reports.length =
          member.candidate.reports.length := List.length_map _
      change Replica.branches ⟨assignment, .watching (term.reseated _)⟩
        ((fleet.excerpt rename key).candidate? (Seats.seat fleet.contest.keys key term.member)) _ _ =
          Replica.branches ⟨assignment, .watching term⟩ (fleet.candidate? term.member) _ _
      rw [there, here]
      simp only [Replica.branches, Option.any_some, closed, spoken]
      rfl
  | done result => cases result <;> rfl
  | joining | reconciling | backingOff | crashed | aborted => rfl

theorem close_excerpt {outcome : Outcome} {member : Member} (aware : fleet.Aware)
    (found : fleet.replicas[id]? = some replica) (named : replica.key = key)
    (seated : fleet.contest.members[term.member]? = some member) (own : member.key = key) :
    (fleet.close id replica.assignment term outcome).excerpt rename key =
      (fleet.excerpt rename key).close (Seats.seat fleet.keys key id) replica.assignment
        (term.reseated (Seats.seat fleet.contest.keys key)) (outcome.renamed rename) := by
  have left := @leave_excerpt fleet rename key member term.member aware seated own
  have concluded (activity : Activity) := (@conclude_excerpt (fleet.leave term.member) rename key id
    replica activity found named).trans (congrArg (conclude · _ _) left)
  cases outcome with
  | error cause =>
      simp only [close, Outcome.renamed]
      split
      · exact (@setActivity_excerpt (fleet.leave term.member) rename key id replica _ found
          named).trans (congrArg (setActivity · _ _) left)
      · exact concluded _
  | won | lost | cancelled | stopped => exact concluded _

theorem close_excerpt_of_ne {outcome : Outcome} {member : Member} (aware : fleet.Aware)
    (found : fleet.replicas[id]? = some replica) (apart : replica.key ≠ key)
    (seated : fleet.contest.members[term.member]? = some member) (own : member.key ≠ key) :
    (fleet.close id replica.assignment term outcome).excerpt rename key =
      fleet.excerpt rename key := by
  have left := @leave_excerpt_of_ne fleet rename key member term.member aware seated own
  have concluded (activity : Activity) := (@conclude_excerpt_of_ne (fleet.leave term.member) rename
    key id replica activity found apart).trans left
  cases outcome with
  | error cause =>
      simp only [close]
      split
      · exact (@setActivity_excerpt_of_ne (fleet.leave term.member) rename key id replica _ found
          apart).trans left
      · exact concluded _
  | won | lost | cancelled | stopped => exact concluded _

theorem hear_excerpt {member : Member} (aware : fleet.Aware)
    (found : fleet.replicas[id]? = some replica) (named : replica.key = key)
    (seated : fleet.contest.members[term.member]? = some member) (own : member.key = key) :
    (fleet.hear id replica.assignment term).excerpt rename key =
      (fleet.excerpt rename key).hear (Seats.seat fleet.keys key id) replica.assignment
        (term.reseated (Seats.seat fleet.contest.keys key)) := by
  have there := @candidate?_excerpt fleet rename key member term.member seated own
  have here : fleet.candidate? term.member = some member.candidate := by
    rw [candidate?, seated]
    rfl
  have spoken : (member.candidate.renamed rename).reports[term.heard]? =
      (member.candidate.reports[term.heard]?).map (Outcome.renamed rename) := List.getElem?_map
  simp only [hear, Term.reseated, here, there, Option.bind_some, spoken]
  cases report : member.candidate.reports[term.heard]? with
  | none => exact close_excerpt aware found named seated own
  | some outcome =>
      cases outcome with
      | won | lost => exact setActivity_excerpt found named
      | error | cancelled | stopped => exact close_excerpt aware found named seated own

theorem hear_excerpt_of_ne {member : Member} (aware : fleet.Aware)
    (found : fleet.replicas[id]? = some replica) (apart : replica.key ≠ key)
    (seated : fleet.contest.members[term.member]? = some member) (own : member.key ≠ key) :
    (fleet.hear id replica.assignment term).excerpt rename key = fleet.excerpt rename key := by
  have here : fleet.candidate? term.member = some member.candidate := by
    rw [candidate?, seated]
    rfl
  simp only [hear, here, Option.bind_some]
  cases report : member.candidate.reports[term.heard]? with
  | none => exact close_excerpt_of_ne aware found apart seated own
  | some outcome =>
      cases outcome with
      | won | lost => exact setActivity_excerpt_of_ne found apart
      | error | cancelled | stopped => exact close_excerpt_of_ne aware found apart seated own

/-! ### One step of a replica -/

theorem heed_excerpt {member : Member} {activity : Activity} (aware : fleet.Aware)
    (found : fleet.replicas[id]? = some replica) (named : replica.key = key)
    (seated : fleet.contest.members[term.member]? = some member) (own : member.key = key) :
    excerpt { fleet.setActivity id activity with contest := fleet.contest.stop term.member } rename
        key =
      { (fleet.excerpt rename key).setActivity (Seats.seat fleet.keys key id)
          (activity.renamed rename (Seats.seat fleet.contest.keys key)) with
        contest := (fleet.contest.excerpt rename key).stop
          (Seats.seat fleet.contest.keys key term.member) } := by
  have kept := @Contest.keys_updateCandidate fleet.contest term.member _ Contest.plain_stop
  have stopped := @excerpt_contest fleet rename key (fleet.contest.stop term.member) aware
    ⟨[], kept.trans (List.append_nil _).symm⟩
  have changed := @setActivity_excerpt { fleet with contest := fleet.contest.stop term.member } rename
    key id replica activity found named
  rw [stopped, show (fleet.contest.stop term.member).keys = fleet.contest.keys from kept] at changed
  have same : (fleet.contest.stop term.member).excerpt rename key =
      (fleet.contest.excerpt rename key).stop (Seats.seat fleet.contest.keys key term.member) :=
    (Contest.updateCandidate_excerpt Contest.plain_stop seated own).symm
  rw [same] at changed
  exact changed

theorem heed_excerpt_of_ne {member : Member} {activity : Activity} (aware : fleet.Aware)
    (found : fleet.replicas[id]? = some replica) (apart : replica.key ≠ key)
    (seated : fleet.contest.members[term.member]? = some member) (own : member.key ≠ key) :
    excerpt { fleet.setActivity id activity with contest := fleet.contest.stop term.member } rename
        key = fleet.excerpt rename key := by
  have kept := @Contest.keys_updateCandidate fleet.contest term.member _ Contest.plain_stop
  have stopped := @excerpt_contest fleet rename key (fleet.contest.stop term.member) aware
    ⟨[], kept.trans (List.append_nil _).symm⟩
  have same : (fleet.contest.stop term.member).excerpt rename key =
      fleet.contest.excerpt rename key :=
    Contest.updateCandidate_excerpt_of_ne Contest.plain_stop seated own
  rw [same] at stopped
  exact (@setActivity_excerpt_of_ne { fleet with contest := fleet.contest.stop term.member } rename
    key id replica activity found apart).trans stopped

theorem reconcile_excerpt {activity : Activity} {instant : Nat}
    (found : fleet.replicas[id]? = some replica) (named : replica.key = key) :
    excerpt { fleet.setActivity id activity with reconciles := ⟨id, instant⟩ :: fleet.reconciles }
        rename key =
      { (fleet.excerpt rename key).setActivity (Seats.seat fleet.keys key id)
          (activity.renamed rename (Seats.seat fleet.contest.keys key)) with
        reconciles := ⟨Seats.seat fleet.keys key id, instant⟩ ::
          (fleet.excerpt rename key).reconciles } := by
  have recorded : excerptReconciles fleet.keys key (⟨id, instant⟩ :: fleet.reconciles) =
      ⟨Seats.seat fleet.keys key id, instant⟩ :: excerptReconciles fleet.keys key fleet.reconciles := by
    rw [excerptReconciles, ← List.singleton_append, Seats.relist_append,
      Seats.relist_of_concerned (concerned_of_found found named)]
    rfl
  rw [← setActivity_excerpt found named]
  refine congrArg (fun reconciles =>
    { (fleet.setActivity id activity).excerpt rename key with reconciles }) ?_
  change excerptReconciles (fleet.setActivity id activity).keys key _ = _
  rw [keys_setActivity found]
  exact recorded

theorem reconcile_excerpt_of_ne {activity : Activity} {instant : Nat}
    (found : fleet.replicas[id]? = some replica) (apart : replica.key ≠ key) :
    excerpt { fleet.setActivity id activity with reconciles := ⟨id, instant⟩ :: fleet.reconciles }
        rename key = fleet.excerpt rename key := by
  have unrecorded : excerptReconciles fleet.keys key (⟨id, instant⟩ :: fleet.reconciles) =
      excerptReconciles fleet.keys key fleet.reconciles := by
    rw [excerptReconciles, ← List.singleton_append, Seats.relist_append,
      Seats.relist_of_unconcerned (unconcerned_of_found found apart)]
    rfl
  rw [← @setActivity_excerpt_of_ne fleet rename key id replica activity found apart]
  refine congrArg (fun reconciles =>
    { (fleet.setActivity id activity).excerpt rename key with reconciles }) ?_
  change excerptReconciles (fleet.setActivity id activity).keys key _ =
    excerptReconciles (fleet.setActivity id activity).keys key _
  rw [keys_setActivity found]
  exact unrecorded

theorem proceed_excerpt {branch : Branch} {candidate : CandidateName} {duration : Nat}
    (aware : fleet.Aware) (seated : fleet.contest.Seated)
    (found : fleet.replicas[id]? = some replica) (named : replica.key = key) :
    (fleet.proceed id branch candidate duration).excerpt rename key =
      (fleet.excerpt rename key).proceed (Seats.seat fleet.keys key id) branch candidate duration := by
  have there := @found_excerpt fleet rename key id replica found named
  have known := aware id replica
  have joined := @join_excerpt fleet rename key id replica candidate aware seated found named
  simp only [proceed, found, there]
  obtain ⟨assignment, activity⟩ := replica
  cases activity with
  | joining =>
      cases branch with
      | join => exact joined
      | hear | heed | reconcile | resume | giveUp | rejoin => rfl
  | watching term =>
      obtain ⟨member, placed, own, _⟩ := known term found rfl
      have own : member.key = key := own.trans named
      cases branch with
      | hear => exact hear_excerpt aware found named placed own
      | heed => exact heed_excerpt aware found named placed own
      | reconcile => exact reconcile_excerpt found named
      | join | resume | giveUp | rejoin => rfl
  | reconciling term doneAt =>
      cases branch with
      | resume => exact setActivity_excerpt found named
      | join | hear | heed | reconcile | giveUp | rejoin => rfl
  | backingOff resumeAt =>
      cases branch with
      | giveUp => exact conclude_excerpt found named
      | rejoin => exact setActivity_excerpt found named
      | join | hear | heed | reconcile | resume => rfl
  | done result => cases result <;> cases branch <;> rfl
  | crashed | aborted => cases branch <;> rfl

theorem proceed_excerpt_of_ne {branch : Branch} {candidate : CandidateName} {duration : Nat}
    (aware : fleet.Aware) (seated : fleet.contest.Seated)
    (found : fleet.replicas[id]? = some replica) (apart : replica.key ≠ key) :
    (fleet.proceed id branch candidate duration).excerpt rename key = fleet.excerpt rename key := by
  have known := aware id replica
  have joined := @join_excerpt_of_ne fleet rename key id replica candidate aware seated found apart
  simp only [proceed, found]
  obtain ⟨assignment, activity⟩ := replica
  cases activity with
  | joining =>
      cases branch with
      | join => exact joined
      | hear | heed | reconcile | resume | giveUp | rejoin => rfl
  | watching term =>
      obtain ⟨member, placed, own, _⟩ := known term found rfl
      have own : member.key ≠ key := own.trans_ne apart
      cases branch with
      | hear => exact hear_excerpt_of_ne aware found apart placed own
      | heed => exact heed_excerpt_of_ne aware found apart placed own
      | reconcile => exact reconcile_excerpt_of_ne found apart
      | join | resume | giveUp | rejoin => rfl
  | reconciling term doneAt =>
      cases branch with
      | resume => exact setActivity_excerpt_of_ne found apart
      | join | hear | heed | reconcile | giveUp | rejoin => rfl
  | backingOff resumeAt =>
      cases branch with
      | giveUp => exact conclude_excerpt_of_ne found apart
      | rejoin => exact setActivity_excerpt_of_ne found apart
      | join | hear | heed | reconcile | resume => rfl
  | done | crashed | aborted => cases branch <;> rfl

theorem isOver_renamed (seat : Nat → Nat) :
    (replica.renamed rename seat).isOver = replica.isOver := by
  obtain ⟨assignment, activity⟩ := replica
  cases activity with
  | done result => cases result <;> rfl
  | joining | watching | reconciling | backingOff | crashed | aborted => rfl

theorem term?_renamed (seat : Nat → Nat) :
    (replica.renamed rename seat).term? = replica.term?.map (Term.reseated seat) := by
  obtain ⟨assignment, activity⟩ := replica
  cases activity with
  | done result => cases result <;> rfl
  | joining | watching | reconciling | backingOff | crashed | aborted => rfl

theorem abort_excerpt (aware : fleet.Aware) (found : fleet.replicas[id]? = some replica)
    (named : replica.key = key) :
    (fleet.abort id).excerpt rename key =
      (fleet.excerpt rename key).abort (Seats.seat fleet.keys key id) := by
  have there := @found_excerpt fleet rename key id replica found named
  simp only [abort, found, there, isOver_renamed, term?_renamed]
  split
  · rfl
  · cases current : replica.term? with
    | none => exact conclude_excerpt found named
    | some term =>
        obtain ⟨member, placed, own, _⟩ := aware id replica term found current
        have left := @leave_excerpt fleet rename key member term.member aware placed
          (own.trans named)
        exact (@conclude_excerpt (fleet.leave term.member) rename key id replica _ found
          named).trans (congrArg (conclude · _ _) left)

theorem abort_excerpt_of_ne (aware : fleet.Aware) (found : fleet.replicas[id]? = some replica)
    (apart : replica.key ≠ key) :
    (fleet.abort id).excerpt rename key = fleet.excerpt rename key := by
  simp only [abort, found]
  split
  · rfl
  · cases current : replica.term? with
    | none => exact conclude_excerpt_of_ne found apart
    | some term =>
        obtain ⟨member, placed, own, _⟩ := aware id replica term found current
        exact (@conclude_excerpt_of_ne (fleet.leave term.member) rename key id replica _ found
          apart).trans (leave_excerpt_of_ne aware placed (own.trans_ne apart))

/-! ### New replicas -/

theorem excerptReconciles_append (seated : fleet.Seated) (more : List String) :
    excerptReconciles (fleet.keys ++ more) key fleet.reconciles =
      excerptReconciles fleet.keys key fleet.reconciles := by
  refine Seats.relist_of_more (fun record past => ?_) more
  rw [keys, List.length_map]
  exact seated.reconciles record past

theorem excerptEndings_append (seated : fleet.Seated) (more : List String) :
    excerptEndings (fleet.keys ++ more) key fleet.endings =
      excerptEndings fleet.keys key fleet.endings := by
  refine Seats.relist_of_more (fun ended past => ?_) more
  rw [keys, List.length_map]
  exact seated.endings ended past

theorem keys_add {assignment : Assignment} :
    (fleet.add assignment).keys = fleet.keys ++ [assignment.candidacy.key] := by
  rw [keys, add, List.map_append]
  rfl

theorem add_excerpt {assignment : Assignment} (seated : fleet.Seated)
    (here : assignment.candidacy.key = key) :
    (fleet.add assignment).excerpt rename key = (fleet.excerpt rename key).add assignment := by
  have picked : Seats.pick Replica.key key (fleet.replicas ++ [⟨assignment, .joining⟩]) =
      Seats.pick Replica.key key fleet.replicas ++ [⟨assignment, .joining⟩] := by
    rw [Seats.pick, List.filter_append]
    exact congrArg (Seats.pick Replica.key key fleet.replicas ++ ·)
      (List.filter_cons_of_pos (decide_eq_true here))
  simp only [excerpt, keys_add]
  simp only [add, picked, List.map_append, excerptReconciles_append seated,
    excerptEndings_append seated]
  rfl

theorem add_excerpt_of_ne {assignment : Assignment} (seated : fleet.Seated)
    (elsewhere : assignment.candidacy.key ≠ key) :
    (fleet.add assignment).excerpt rename key = fleet.excerpt rename key := by
  have picked : Seats.pick Replica.key key (fleet.replicas ++ [⟨assignment, .joining⟩]) =
      Seats.pick Replica.key key fleet.replicas := by
    rw [Seats.pick, List.filter_append, ← Seats.pick]
    exact (congrArg (Seats.pick Replica.key key fleet.replicas ++ ·)
      (List.filter_cons_of_neg (fun same => elsewhere (of_decide_eq_true same)))).trans
        (List.append_nil _)
  simp only [excerpt, keys_add]
  simp only [add, picked, excerptReconciles_append seated, excerptEndings_append seated]

theorem Shift.seated (shift : Shift fleet action next) (seated : fleet.Seated) : next.Seated := by
  have placed {replica : Replica} {id : Nat} (found : fleet.replicas[id]? = some replica) :
      id < fleet.replicas.length := (List.getElem?_eq_some_iff.mp found).1
  have kept (length : fleet.replicas.length ≤ next.replicas.length)
      (reconciles : next.reconciles = fleet.reconciles) (endings : next.endings = fleet.endings) :
      next.Seated :=
    ⟨fun record past => Nat.lt_of_lt_of_le (seated.reconciles record (reconciles ▸ past)) length,
      fun id past => Nat.lt_of_lt_of_le (seated.endings id (endings ▸ past)) length⟩
  have set {id : Nat} {after : Replica} : (fleet.replicas.set id after).length =
      fleet.replicas.length := List.length_set
  cases shift with
  | grown =>
      refine kept ?_ rfl rfl
      rw [List.length_append]
      exact Nat.le_add_right _ _
  | among | passed | ignored => exact kept (Nat.le_refl _) rfl rfl
  | joined | heard | kept => exact kept (Nat.le_of_eq set.symm) rfl rfl
  | reconciled id candidate duration replica term found =>
      constructor
      · intro record past
        refine Nat.lt_of_lt_of_eq ?_ set.symm
        rcases List.mem_cons.mp past with rfl | old
        · exact placed found
        · exact seated.reconciles record old
      · intro other past
        exact Nat.lt_of_lt_of_eq (seated.endings other past) set.symm
  | left _ id replica activity contest endings found _ _ ended =>
      constructor
      · intro record past
        exact Nat.lt_of_lt_of_eq (seated.reconciles record past) set.symm
      · intro other past
        refine Nat.lt_of_lt_of_eq ?_ set.symm
        rcases ended with rfl | rfl
        · exact seated.endings other past
        · rcases List.mem_append.mp past with old | new
          · exact seated.endings other old
          · rw [List.mem_singleton.mp new]
            exact placed found

/-- The replicas that a set spawns are added one by one. -/
theorem adds_excerpt (assign : String → Assignment)
    (named : ∀ function, (assign function).candidacy.key = leaderKey function)
    (functions : List String) (seated : fleet.Seated) :
    (fleet.excerpt rename key).run?
        ((functions.filter (leaderKey · = key)).map fun function => .add (assign function)) =
      some ((functions.foldl (fun fleet function => fleet.add (assign function)) fleet).excerpt rename
        key) := by
  induction functions generalizing fleet with
  | nil => rfl
  | cons function rest ih =>
      have added : fleet.act? (.add (assign function)) = some (fleet.add (assign function)) := rfl
      have further := ih ((shift_of_act? added).seated seated)
      rw [List.foldl_cons]
      by_cases here : leaderKey function = key
      · rw [List.filter_cons, if_pos (decide_eq_true here), List.map_cons, run?, List.foldlM_cons]
        rw [add_excerpt seated ((named function).trans here)] at further
        exact further
      · rw [List.filter_cons, if_neg (by simpa using here)]
        rw [add_excerpt_of_ne seated (by rw [named function]; exact here)] at further
        exact further

/-! ### The clock -/

theorem wakeAt?_renamed (seat : Nat → Nat) :
    (replica.renamed rename seat).wakeAt? = replica.wakeAt? := by
  obtain ⟨assignment, activity⟩ := replica
  cases activity with
  | done result => cases result <;> rfl
  | joining | watching | reconciling | backingOff | crashed | aborted => rfl

theorem mem_of_excerpt {renamed : Replica}
    (present : renamed ∈ (fleet.excerpt rename key).replicas) :
    ∃ (id : Nat) (replica : Replica), fleet.replicas[id]? = some replica ∧ replica.key = key ∧
      renamed = replica.renamed rename (Seats.seat fleet.contest.keys key) := by
  obtain ⟨replica, picked, rfl⟩ := List.mem_map.mp present
  obtain ⟨was, named⟩ := List.mem_filter.mp picked
  obtain ⟨id, found⟩ := List.mem_iff_getElem?.mp was
  exact ⟨id, replica, found, of_decide_eq_true named, rfl⟩

theorem quiet_excerpt (aware : fleet.Aware) (quiet : fleet.quiet = true) :
    (fleet.excerpt rename key).quiet = true := by
  obtain ⟨still, idle⟩ := Bool.and_eq_true_iff.mp quiet
  refine Bool.and_eq_true_iff.mpr ⟨Contest.quiet_excerpt still, List.all_eq_true.mpr ?_⟩
  intro renamed present
  obtain ⟨id, replica, found, named, rfl⟩ := mem_of_excerpt present
  rw [branches_excerpt aware found named]
  exact List.all_eq_true.mp idle replica (List.mem_of_getElem? found)

theorem awake_excerpt {instant : Nat} (awake : fleet.wakeAt?.all (instant ≤ ·) = true) :
    (fleet.excerpt rename key).wakeAt?.all (instant ≤ ·) = true := by
  refine Contest.all_min?_of_forall fun due waits => ?_
  rcases List.mem_append.mp waits with elections | replicas
  · have wakes := Option.mem_toList.mp elections
    have earliest := (List.min?_eq_some_iff.mp wakes).1
    exact Contest.le_of_min? (awake_of_fleet awake) (Contest.dues_excerpt earliest)
  · obtain ⟨renamed, present, wakes⟩ := List.mem_filterMap.mp replicas
    obtain ⟨id, replica, found, _, rfl⟩ := mem_of_excerpt present
    rw [wakeAt?_renamed] at wakes
    refine Contest.le_of_min? awake (List.mem_append_right _ ?_)
    exact List.mem_filterMap.mpr ⟨replica, List.mem_of_getElem? found, wakes⟩

theorem passTo?_excerpt {instant : Nat} (aware : fleet.Aware)
    (passed : fleet.passTo? instant = some next) :
    (fleet.excerpt rename key).passTo? instant = some (next.excerpt rename key) := by
  simp only [passTo?] at passed
  split at passed
  · rename_i allowed
    cases passed
    simp only [Bool.and_eq_true, decide_eq_true_eq] at allowed
    obtain ⟨⟨quiet, later⟩, awake⟩ := allowed
    simp only [passTo?, quiet_excerpt aware quiet, awake_excerpt awake, Bool.and_true, Bool.true_and]
    rw [if_pos (decide_eq_true (show (fleet.excerpt rename key).contest.now ≤ instant from later))]
    rfl
  · cases passed

/-! ### One action -/

theorem run?_among {contest : Contest} {elections : List Action}
    (ran : fleet.contest.run? elections = some contest)
    (stands : ∀ action ∈ elections, ∀ instant, action ≠ .passTo instant) :
    fleet.run? (elections.map .among) = some { fleet with contest } := by
  induction elections generalizing fleet with
  | nil =>
      cases ran
      rfl
  | cons action rest ih =>
      rw [Contest.run?, List.foldlM_cons, Option.bind_eq_bind, Option.bind_eq_some_iff] at ran
      obtain ⟨next, acted, ran⟩ := ran
      have first := @act?_among fleet action (stands action List.mem_cons_self)
      rw [acted] at first
      rw [List.map_cons, run?, List.foldlM_cons, first]
      exact @ih { fleet with contest := next } ran
        fun other present => stands other (List.mem_cons_of_mem _ present)

theorem stands_of_excerptOf {contest : Contest} {action : Action}
    (stands : ∀ instant, action ≠ .passTo instant) :
    ∀ other ∈ contest.excerptOf rename key action, ∀ instant, other ≠ .passTo instant := by
  have addressed (id : Nat) (of : Nat → Action) (going : ∀ seat instant, of seat ≠ .passTo instant) :
      ∀ other ∈ Contest.excerptOf.addressed contest key id of, ∀ instant, other ≠ .passTo instant := by
    intro other present
    unfold Contest.excerptOf.addressed Seats.addressed at present
    split at present
    · rw [List.mem_singleton.mp present]
      exact going _
    · cases present
  cases action with
  | nominate | perform =>
      intro other present
      simp only [Contest.excerptOf] at present
      split at present
      · rw [List.mem_singleton.mp present]
        exact fun _ => Action.noConfusion
      · cases present
  | start id context => exact addressed id (.start · context) fun _ _ => Action.noConfusion
  | stop id => exact addressed id .stop fun _ _ => Action.noConfusion
  | deafen id => exact addressed id .deafen fun _ _ => Action.noConfusion
  | proceed id plan => exact addressed id (.proceed · plan) fun _ _ => Action.noConfusion
  | cancel | inject =>
      intro other present
      rw [List.mem_singleton.mp present]
      exact fun _ => Action.noConfusion
  | passTo instant => exact absurd rfl (stands instant)

theorem run?_single (acted : fleet.act? action = some next) : fleet.run? [action] = some next := by
  rw [run?, List.foldlM_cons, acted]
  rfl

theorem run?_addressed {of : Nat → FleetAction} (found : fleet.replicas[id]? = some replica)
    (acts : replica.key = key → (fleet.excerpt rename key).act?
      (of (Seats.seat fleet.keys key id)) = some (next.excerpt rename key))
    (apart : replica.key ≠ key → next.excerpt rename key = fleet.excerpt rename key) :
    (fleet.excerpt rename key).run? (excerptOf.addressed fleet key id of) =
      some (next.excerpt rename key) := by
  unfold excerptOf.addressed
  by_cases named : replica.key = key
  · rw [Seats.addressed_of_concerned (concerned_of_found found named)]
    exact run?_single (acts named)
  · rw [Seats.addressed_of_unconcerned (unconcerned_of_found found named), apart named]
    rfl

theorem run?_of_added (assignment : Assignment) (seated : fleet.Seated) :
    (fleet.excerpt rename key).run? (fleet.excerptOf rename key (.add assignment)) =
      some ((fleet.add assignment).excerpt rename key) := by
  by_cases here : assignment.candidacy.key = key
  · rw [excerptOf, if_pos here, add_excerpt seated here]
    exact run?_single rfl
  · rw [excerptOf, if_neg here, add_excerpt_of_ne seated here]
    rfl

theorem run?_of_proceeded {branch : Branch} {candidate : CandidateName} {duration : Nat}
    (acted : fleet.act? (.proceed id branch candidate duration) = some next)
    (placed : fleet.contest.Seated) (aware : fleet.Aware) :
    (fleet.excerpt rename key).run?
        (fleet.excerptOf rename key (.proceed id branch candidate duration)) =
      some (next.excerpt rename key) := by
  simp only [act?] at acted
  split at acted
  · rename_i able
    cases acted
    cases found : fleet.replicas[id]? with
    | none =>
        rw [found] at able
        cases able
    | some replica =>
        apply run?_addressed found
        · intro named
          have there := @found_excerpt fleet rename key id replica found named
          have same := @branches_excerpt fleet rename key id replica aware found named
          rw [found, Option.any_some, ← same] at able
          rw [act?, there, Option.any_some, if_pos able, proceed_excerpt aware placed found named]
        · exact proceed_excerpt_of_ne aware placed found
  · cases acted

theorem run?_of_aborted (aware : fleet.Aware) :
    (fleet.excerpt rename key).run? (fleet.excerptOf rename key (.abort id)) =
      some ((fleet.abort id).excerpt rename key) := by
  cases found : fleet.replicas[id]? with
  | none =>
      have idle : fleet.abort id = fleet := by
        rw [abort, found]
      rw [excerptOf, excerptOf.addressed,
        Seats.addressed_of_unconcerned (unconcerned_of_missing found), idle]
      rfl
  | some replica =>
      apply run?_addressed found
      · intro named
        exact congrArg some (abort_excerpt aware found named).symm
      · exact abort_excerpt_of_ne aware found

/-- What is left of an action does to the excerpt what the action does. -/
theorem run?_excerptOf (acted : fleet.act? action = some next) (calm : fleet.contest.Calm)
    (fits : ∀ other, action.among? = some other → fleet.contest.Fits rename key other)
    (placed : fleet.contest.Seated) (seated : fleet.Seated) (aware : fleet.Aware) :
    (fleet.excerpt rename key).run? (fleet.excerptOf rename key action) =
      some (next.excerpt rename key) := by
  cases action with
  | add assignment =>
      cases acted
      exact run?_of_added assignment seated
  | spawn settings context =>
      cases acted
      exact adds_excerpt (assignmentFor settings context) (fun _ => rfl) _ seated
  | proceed id branch candidate duration => exact run?_of_proceeded acted placed aware
  | abort id =>
      cases acted
      exact run?_of_aborted aware
  | among other =>
      obtain ⟨contest, stands, happened, rfl⟩ := among_of_act? acted
      have ran := Contest.run?_excerptOf happened calm (fits other rfl) placed
      have turn := Contest.turn_of_act? happened
      rw [excerptOf, excerpt_contest aware turn.keys_eq]
      exact @run?_among (fleet.excerpt rename key) _ _ ran (stands_of_excerptOf stands)
  | passTo instant => exact run?_single (passTo?_excerpt aware acted)

end Fleet

end Leasehold
