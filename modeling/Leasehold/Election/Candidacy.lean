import Leasehold.Time
import Leasehold.Store.Bucket
import Leasehold.Election.Error

set_option autoImplicit false

/-!
The terms on which a candidate stands: the key, the name it writes there, how often it renews as
leader and looks as follower, and how long it waits for one store call.

Both intervals have to be shorter than the time-to-live: a leader that renews too slowly evicts
itself, and a follower that looks too rarely leaves the key vacant.
-/

namespace Leasehold

structure CandidateName where
  text : String
  deriving DecidableEq, Repr

namespace CandidateName

def bytes (candidate : CandidateName) : Bytes := Text.encode candidate.text

/-! ### Generated names

A generated name is a version 4 UUID: 122 free bits, written as 32 hexadecimal digits around the
fixed version digit and the two fixed bits of the variant. -/

def hexDigit (value : Nat) : Char :=
  if value % 16 < 10 then Char.ofNat ('0'.toNat + value % 16)
  else Char.ofNat ('a'.toNat + (value % 16 - 10))

def hexDigits : Nat → Nat → List Char
  | 0, _ => []
  | count + 1, value => hexDigits count (value / 16) ++ [hexDigit value]

/-- The name that carries the lowest 122 bits of a number. -/
def generated (bits : Nat) : CandidateName :=
  let node := hexDigits 12 bits
  let clock := hexDigits 3 (bits >>> 48)
  let variant := [hexDigit (8 + bits >>> 60 % 4)]
  let high := hexDigits 3 (bits >>> 62)
  let mid := hexDigits 4 (bits >>> 74)
  let low := hexDigits 8 (bits >>> 90)
  ⟨String.ofList (low ++ '-' :: mid ++ '-' :: '4' :: high ++ '-' :: variant ++ clock ++ '-' :: node)⟩

def isHexDigit (character : Char) : Bool :=
  character.isDigit || ('a' ≤ character && character ≤ 'f') || ('A' ≤ character && character ≤ 'F')

/-- The form of a name: free digits are shown as x and the digit of the variant as v, while the
version digit stays. -/
def shape (candidate : CandidateName) : String :=
  String.ofList <| candidate.text.toList.zipIdx.map fun (character, place) =>
    if place = 14 then character
    else if place = 19 && "89ab".contains character then 'v'
    else if isHexDigit character then 'x'
    else character

end CandidateName

structure Candidacy where
  key : String
  candidate : CandidateName
  renewEveryMs : Nat
  pollEveryMs : Nat
  callLimitMs : Option Nat := none
  deriving DecidableEq, Repr

namespace Candidacy

def renewEvery (candidacy : Candidacy) : Nat := Duration.ofMillis candidacy.renewEveryMs

def pollEvery (candidacy : Candidacy) : Nat := Duration.ofMillis candidacy.pollEveryMs

def callLimit? (candidacy : Candidacy) : Option Nat := candidacy.callLimitMs.map Duration.ofMillis

def settableMillis (ttl : Nat) : Nat := min (Duration.wholeMillis ttl) maxMillis

/-- Renew after three quarters of the time-to-live and look after each quarter. The product stops at
the largest setting, and no interval is zero. -/
def derived (key : String) (candidate : CandidateName) (ttl : Nat) : Candidacy where
  key
  candidate
  renewEveryMs := max 1 (min (settableMillis ttl * 3) maxMillis / 4)
  pollEveryMs := max 1 (settableMillis ttl / 4)

def objection? (candidacy : Candidacy) (ttl : Nat) : Option String :=
  if candidacy.key = "" then
    some "key must not be empty"
  else if candidacy.candidate.text = "" then
    some "candidate id must not be empty"
  else if candidacy.renewEveryMs = 0 ∨ candidacy.pollEveryMs = 0 then
    some "intervals must be positive"
  else if ttl ≤ candidacy.renewEvery then
    some (tooSlow "update" candidacy.renewEveryMs)
  else if ttl ≤ candidacy.pollEvery then
    some (tooSlow "poll" candidacy.pollEveryMs)
  else if candidacy.callLimitMs = some 0 then
    some "op timeout must be positive"
  else none
where
  tooSlow (activity : String) (intervalMs : Nat) : String :=
    s!"{activity} interval {intervalMs}ms must be shorter than TTL {Duration.wholeMillis ttl}ms"

def validate (candidacy : Candidacy) (ttl : Nat) : Except ElectionError Unit :=
  match candidacy.objection? ttl with
  | some reason => .error (.invalidConfig reason)
  | none => .ok ()

/-- Stand for election in a bucket, which needs a time-to-live for a dead leader to be replaced. -/
def accept (candidacy : Candidacy) (bucket : BucketTerms) : Except ElectionError Unit :=
  match bucket.ttl? with
  | none => .error (.missingTtl bucket.name)
  | some ttl => candidacy.validate ttl

end Candidacy

def leaderKey (function : String) : String := s!"{function}-leader"

end Leasehold
