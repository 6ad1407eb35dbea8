import BetterAuthBridge.JwksDocument
import BetterAuthBridge.Library.Tasks

namespace BetterAuthBridge.JwksClient

open Library Library.Tasks Values Errors Models RemoteResponse JwksDocument

variable {ι κ : Type}

def maxRememberedMisses : Nat := 256

structure Client (κ : Type) extends Reader κ where
  cacheTtl : Seconds
  negativeTtl : Seconds
  refetchInterval : Seconds

structure Shared (ι κ : Type) where
  clock : Seconds
  keys : Option (KeySet κ)
  fetchedAt : Option Seconds
  attemptedAt : Option Seconds
  missing : Ordered.Table Str Seconds
  lock : Option ι

def Shared.initial (clock : Seconds) : Shared ι κ := ⟨clock, none, none, none, [], none⟩

inductive Ending (κ : Type)
  | key (jwk : Jwk κ)
  | absent
  | raised (exc : Exn)
  | cancelled

inductive Phase
  | idle
  | waiting (kid : Str)
  | granted (kid : Str)
  | fetching (kid : Str) (previous : Option Seconds)
  | finished

inductive Event
  | start (kid : Str)
  | lockAcquired
  | lockResumed
  | answered (answer : Answer)
  | cancelled

inductive Effect (κ : Type)
  | fetchSent (uri : String)
  | fetchSettled (keys : Option (KeySet κ))
  | fetchCancelled
  | ended (kid : Str) (ending : Ending κ)

abbrev Turn (ι κ : Type) := Shared ι κ × Phase × List (Effect κ)

def finish (kid : Str) (ending : Ending κ) : Phase × List (Effect κ) :=
  (.finished, [.ended kid ending])

def unlocked (s : Shared ι κ) : Shared ι κ := { s with lock := none }

namespace Client

variable (c : Client κ)

def isFresh (s : Shared ι κ) : Bool :=
  match s.fetchedAt with
  | none => false
  | some stamp => s.clock - stamp < c.cacheTtl

def freshHit (kid : Str) (s : Shared ι κ) : Option (Jwk κ) :=
  match s.keys with
  | none => none
  | some keys => if c.isFresh s then Ordered.get keys kid else none

def mayFetch (s : Shared ι κ) : Bool :=
  match s.attemptedAt with
  | none => true
  | some attempted => c.refetchInterval ≤ s.clock - attempted

/-- Whether a kid is remembered as absent, and the memory after a lapsed one was dropped. -/
def isRemembered (kid : Str) (s : Shared ι κ) : Bool × Shared ι κ :=
  match Ordered.get s.missing kid with
  | none => (false, s)
  | some stamp =>
    if c.negativeTtl ≤ s.clock - stamp then
      (false, { s with missing := Ordered.erase s.missing kid })
    else (true, s)

def remember (kid : Str) (s : Shared ι κ) : Shared ι κ :=
  { s with missing := Ordered.set (Ordered.evicted maxRememberedMisses s.missing) kid s.clock }

def unconfirmed (kid : Str) : Exn :=
  authServiceUnavailable s!"no fresh key set for {c.uri}; kid={safeLabel kid} unconfirmed"

def answer (kid : Str) (s : Shared ι κ) : Turn ι κ :=
  match s.keys.bind fun keys => Ordered.get keys kid with
  | some found => (unlocked s, finish kid (.key found))
  | none =>
    if s.keys.isSome && c.isFresh s then (unlocked (remember kid s), finish kid .absent)
    else (unlocked s, finish kid (.raised (c.unconfirmed kid)))

def opened (kid : Str) (s : Shared ι κ) : Turn ι κ :=
  match c.freshHit kid s with
  | some hit => (s, finish kid (.key hit))
  | none => (s, .waiting kid, [])

def locked (kid : Str) (s : Shared ι κ) : Turn ι κ :=
  match c.freshHit kid s with
  | some hit => (unlocked s, finish kid (.key hit))
  | none =>
    if c.mayFetch s then
      ({ s with attemptedAt := some s.clock }, .fetching kid s.attemptedAt, [.fetchSent c.uri])
    else
      let remembered := c.isRemembered kid s
      if remembered.1 then (unlocked remembered.2, finish kid .absent)
      else c.answer kid remembered.2

variable (R : Runtime)

def refreshed (kid : Str) (answer : Answer) (s : Shared ι κ) : Turn ι κ :=
  match c.fetched R answer with
  | .ok keys =>
    let turn := c.answer kid { s with keys := some keys, fetchedAt := some s.clock, missing := [] }
    (turn.1, turn.2.1, .fetchSettled (some keys) :: turn.2.2)
  | .error exc =>
    if exc.isUnavailable && s.keys.isSome then
      let turn := c.answer kid s
      (turn.1, turn.2.1, .fetchSettled none :: turn.2.2)
    else (unlocked s, .finished, [.fetchSettled none, .ended kid (.raised exc)])

def abandoned (s : Shared ι κ) : Phase → Option (Turn ι κ)
  | .waiting kid => some (s, finish kid .cancelled)
  | .granted kid => some (unlocked s, finish kid .cancelled)
  | .fetching kid previous =>
    some (unlocked { s with attemptedAt := previous }, .finished,
      [.fetchCancelled, .ended kid .cancelled])
  | .idle | .finished => none

/-- One section of a call, from one suspension to the next. -/
def act (i : ι) (event : Event) (s : Shared ι κ) (phase : Phase) : Option (Turn ι κ) :=
  match event, phase with
  | .start kid, .idle => some (c.opened kid s)
  | .lockAcquired, .waiting kid =>
    if s.lock.isNone then some ({ s with lock := some i }, .granted kid, []) else none
  | .lockResumed, .granted kid => some (c.locked kid s)
  | .answered answer, .fetching kid _ => some (c.refreshed R kid answer s)
  | .cancelled, phase => abandoned s phase
  | _, _ => none

def program : Program ι (Shared ι κ) Phase Event Seconds (Effect κ) where
  act := c.act R
  drift now s := if s.clock ≤ now then some { s with clock := now } else none

variable [DecidableEq ι]

abbrev machine : Runs.Machine (World ι (Shared ι κ) Phase) (Happening ι Event Seconds) (Effect κ) :=
  (c.program R).machine

def start (clock : Seconds) : World ι (Shared ι κ) Phase :=
  ⟨Shared.initial clock, fun _ => .idle⟩

end Client

end BetterAuthBridge.JwksClient
