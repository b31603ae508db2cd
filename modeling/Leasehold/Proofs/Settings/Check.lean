import Leasehold.Settings.Check
import Leasehold.Proofs.Scaling.Isolation
import Leasehold.Proofs.Scaling.Shutdown

set_option autoImplicit false

/-!
The check of the settings agrees with what happens when they are used.

The check tries the timing of elections once, for a sample key. Whether an election can be held does
not depend on its key or on the name of the candidate, as long as there is one of each, so the sample
stands for the leader keys of all functions.
-/

namespace Leasehold

theorem CandidateName.generated_ne_empty (bits : Nat) :
    (CandidateName.generated bits).text ≠ "" := by
  intro empty
  have none := congrArg String.toList empty
  simp [generated] at none

theorem leaderKey_ne_empty (function : String) : leaderKey function ≠ "" := by
  intro empty
  have suffix : leaderKey function = function ++ "-leader" := rfl
  rw [suffix, String.append_eq_empty_iff] at empty
  exact absurd empty.2 (by decide)

namespace Settings

variable {settings : Settings} {key other function : String} {candidate rival : CandidateName}

/-- What the check demands apart from the timing of elections. -/
structure Sensible (settings : Settings) : Prop where
  named : settings.bucket.name ≠ ""
  lasting : 0 < settings.bucket.ttlMs
  paced : 0 < settings.scaler.scaleIntervalMs
  listed : settings.scaler.functions ≠ []
  titled : ∀ function ∈ settings.scaler.functions, function ≠ ""
  distinct : settings.scaler.functions.Nodup

def electionFor (settings : Settings) (function : String) (bits : Nat) : Except ElectionError Unit :=
  (settings.candidacy (leaderKey function) (.generated bits)).accept settings.bucketTerms

/-! ### The names of functions -/

theorem ite_some_eq_none_iff {guard : Prop} [Decidable guard] {error : SettingsError}
    {rest : Option SettingsError} :
    (if guard then some error else rest) = none ↔ ¬guard ∧ rest = none := by
  split
  · rename_i objectionable
    exact iff_of_false (fun never => nomatch never) fun ⟨sound, _⟩ => sound objectionable
  · rename_i sound
    exact (and_iff_right sound).symm

theorem nameObjection?_eq_none_iff (accepted functions : List String) :
    nameObjection? accepted functions = none ↔
      (∀ function ∈ functions, function ≠ "" ∧ function ∉ accepted) ∧ functions.Nodup := by
  induction functions generalizing accepted with
  | nil => simp [nameObjection?]
  | cons function rest ih =>
      simp only [nameObjection?, ite_some_eq_none_iff, ih, List.nodup_cons, List.mem_cons]
      constructor
      · rintro ⟨named, unknown, good, nodup⟩
        refine ⟨?_, fun again => (good function again).2 (Or.inl rfl), nodup⟩
        rintro name (rfl | later)
        · exact ⟨named, unknown⟩
        · exact ⟨(good name later).1, fun early => (good name later).2 (Or.inr early)⟩
      · rintro ⟨good, fresh, nodup⟩
        obtain ⟨named, unknown⟩ := good function (Or.inl rfl)
        refine ⟨named, unknown, fun name later => ⟨(good name (Or.inr later)).1, ?_⟩, nodup⟩
        rintro (rfl | early)
        · exact fresh later
        · exact (good name (Or.inr later)).2 early

/-! ### The timing of elections -/

/-- The timing decides, whatever the key and the name. -/
theorem accept_candidacy (keyed : key ≠ "") (likewise : other ≠ "") (named : candidate.text ≠ "")
    (alike : rival.text ≠ "") (terms : BucketTerms) :
    (settings.candidacy key candidate).accept terms =
      (settings.candidacy other rival).accept terms :=
  @Candidacy.accept_renamed (settings.candidacy key candidate) terms key other candidate rival
    (iff_of_false keyed likewise) (iff_of_false named alike)

theorem ttl?_of_lasting (lasting : 0 < settings.bucket.ttlMs) :
    settings.bucketTerms.ttl? = some settings.bucketTerms.ttl := by
  refine if_neg (Nat.ne_of_gt ?_)
  show 0 < Duration.ofMillis settings.bucket.ttlMs
  unfold Duration.ofMillis
  omega

/-- What the check tries is what every election of the settings will find. -/
theorem electionFor_eq_sample (lasting : 0 < settings.bucket.ttlMs) (function : String) (bits : Nat) :
    settings.electionFor function bits =
      (settings.candidacy sampleKey (.generated 0)).validate settings.bucketTerms.ttl := by
  rw [electionFor, accept_candidacy (leaderKey_ne_empty function) (leaderKey_ne_empty "validate")
    (CandidateName.generated_ne_empty bits) (CandidateName.generated_ne_empty 0), Candidacy.accept,
    ttl?_of_lasting lasting]
  rfl

/-- The verdict of the check is in two parts. -/
theorem objection?_of_sensible (sensible : settings.Sensible) :
    settings.objection? = settings.timingObjection? := by
  have names : nameObjection? [] settings.scaler.functions = none := by
    refine (nameObjection?_eq_none_iff [] _).mpr ⟨fun function listed => ?_, sensible.distinct⟩
    exact ⟨sensible.titled function listed, List.not_mem_nil⟩
  rw [objection?, if_neg sensible.named, if_neg (Nat.ne_of_gt sensible.lasting),
    if_neg (Nat.ne_of_gt sensible.paced), if_neg sensible.listed, names]
  rfl

theorem sensible_of_objection? (unobjected : settings.objection? = none) :
    settings.Sensible ∧ settings.timingObjection? = none := by
  simp only [objection?, ite_some_eq_none_iff, Option.orElse_eq_orElse, Option.orElse_eq_or,
    Option.or_eq_none_iff, nameObjection?_eq_none_iff] at unobjected
  obtain ⟨named, lasting, paced, listed, ⟨titled, distinct⟩, timely⟩ := unobjected
  exact ⟨⟨named, Nat.pos_of_ne_zero lasting, Nat.pos_of_ne_zero paced, listed,
    fun function present => (titled function present).1, distinct⟩, timely⟩

theorem validate_eq_ok_iff : settings.validate = .ok () ↔ settings.objection? = none := by
  unfold validate
  cases settings.objection? with
  | none => exact iff_of_true rfl rfl
  | some error => exact iff_of_false (fun never => (nomatch never)) fun never => (nomatch never)

theorem timingObjection?_of_election {bits : Nat} {error : ElectionError}
    (lasting : 0 < settings.bucket.ttlMs) (fails : settings.electionFor function bits = .error error) :
    settings.timingObjection? = some (.invalid "election" settings.election.shown error.message) := by
  rw [electionFor_eq_sample lasting] at fails
  rw [timingObjection?, fails]

theorem electionFor_of_timingObjection? (lasting : 0 < settings.bucket.ttlMs)
    (unobjected : settings.timingObjection? = none) (function : String) (bits : Nat) :
    settings.electionFor function bits = .ok () := by
  cases stands : settings.electionFor function bits with
  | ok => rfl
  | error error =>
      rw [timingObjection?_of_election lasting stands] at unobjected
      cases unobjected

theorem validate_eq_ok_iff_sensible : settings.validate = .ok () ↔
    settings.Sensible ∧ ∀ function ∈ settings.scaler.functions, ∀ bits,
      settings.electionFor function bits = .ok () := by
  rw [validate_eq_ok_iff]
  constructor
  · intro unobjected
    obtain ⟨sensible, timely⟩ := sensible_of_objection? unobjected
    exact ⟨sensible, fun function _ bits =>
      electionFor_of_timingObjection? sensible.lasting timely function bits⟩
  · rintro ⟨sensible, electable⟩
    rw [objection?_of_sensible sensible]
    obtain ⟨function, listed⟩ := List.exists_mem_of_ne_nil _ sensible.listed
    have stands := electable function listed 0
    rw [electionFor_eq_sample sensible.lasting] at stands
    rw [timingObjection?, stands]

/-! ### The settings in use -/

/-- A replica of a crew stands for election on the terms that have been checked. -/
theorem accept_of_assigned {settings : Settings} {context : String} {bits : Nat}
    (named : candidate.text ≠ "")
    (stands : settings.electionFor function bits = .ok ()) :
    ((Fleet.assignmentFor settings context function).standing candidate).accept
      settings.bucketTerms = .ok () := by
  rw [← stands]
  exact accept_candidacy (leaderKey_ne_empty function) (leaderKey_ne_empty function) named
    (CandidateName.generated_ne_empty bits) settings.bucketTerms

structure Agrees (settings : Settings) : Prop where
  validates : settings.validate = .ok () ↔
    settings.Sensible ∧ ∀ function ∈ settings.scaler.functions, ∀ bits,
      settings.electionFor function bits = .ok ()
  reason : settings.Sensible → ∀ function ∈ settings.scaler.functions, ∀ bits error,
    settings.electionFor function bits = .error error →
      settings.validate = .error (.invalid "election" settings.election.shown error.message)
  keys : settings.validate = .ok () → (settings.scaler.functions.map leaderKey).Nodup ∧
    "" ∉ settings.scaler.functions.map leaderKey
  /-- No replica of a crew is refused, whatever happens to it. -/
  runs : settings.validate = .ok () → ∀ before earlier context later fleet,
    (Fleet.opening settings.bucketTerms).steps? before = some earlier →
    (Fleet.opening settings.bucketTerms).steps?
      (before ++ .act (.spawn settings context) :: later) = some fleet →
    ∀ place function, settings.scaler.functions[place]? = some function →
      ∃ replica, fleet.replicas[earlier.replicas.length + place]? = some replica ∧
        replica.assignment.function = function ∧ replica.key = leaderKey function ∧
        ∀ error, replica.activity = .done (.error error) → ∃ cause, error.cause = .store cause

theorem check_agrees (settings : Settings) : settings.Agrees where
  validates := validate_eq_ok_iff_sensible
  reason := by
    intro sensible function _ bits error fails
    rw [validate, objection?_of_sensible sensible,
      timingObjection?_of_election sensible.lasting fails]
  keys := by
    intro valid
    have sensible := (validate_eq_ok_iff_sensible.mp valid).1
    refine ⟨sensible.distinct.map fun _ _ same => Fleet.leaderKey_injective same, ?_⟩
    intro empty
    obtain ⟨function, _, none⟩ := List.mem_map.mp empty
    exact leaderKey_ne_empty function none
  runs := by
    intro valid before earlier context later fleet ran run place function listed
    have onward := Fleet.split_of_run run ran (Fleet.step?_spawn earlier settings context)
    obtain ⟨replica, found, assigned⟩ := Fleet.enlisted_of_spawn onward listed
    refine ⟨replica, found, by rw [assigned]; rfl, by rw [Replica.key, assigned]; rfl, ?_⟩
    intro error returned
    have career := (Fleet.careers_of_run run).career _ replica found
    obtain ⟨_, ⟨_, candidate, named, refused⟩ | ⟨cause, _, _, store, _⟩⟩ :=
      Fleet.error_cases career returned
    · have stands := (validate_eq_ok_iff_sensible.mp valid).2 function
        (List.mem_of_getElem? listed) 0
      rw [Fleet.terms_of_steps run, assigned] at refused
      cases refused.symm.trans (accept_of_assigned named stands)
    · exact ⟨cause, store⟩

end Settings

end Leasehold
