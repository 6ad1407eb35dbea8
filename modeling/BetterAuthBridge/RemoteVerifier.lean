import BetterAuthBridge.Library.Floats
import BetterAuthBridge.Library.Procedure
import BetterAuthBridge.Library.Tasks
import BetterAuthBridge.RemoteGates
import BetterAuthBridge.RemoteProbe
import BetterAuthBridge.Signing

namespace BetterAuthBridge.RemoteVerifier

open Library Library.Text Library.Floats Library.Procedure Library.Tasks Values Errors
open SessionDocument Models Csrf CookieParsing Signing RemoteResponse RemoteGates RemoteProbe

variable {ι υ : Type}

def maxTokenBytes : Nat := 4096

def probeRetryInterval : Seconds := 10

structure Verifier where
  names : CookieNames
  secrets : List SharedSecret
  csrf : CsrfPolicy
  uri : String
  transportName : String
  negativeTtl : Seconds
  maxRemembered : Nat
  concurrency : Nat
  queueTimeout : Number
  queueTimeoutShown : String
  maxBytes : Nat
  refuseUnsignedBearer : Bool

structure Shared (ι : Type) where
  clock : Seconds
  entries : Entries
  blockedUntil : Option Seconds
  probeLock : Option ι
  probedOk : Bool
  contractFailure : Option String
  probeAttemptedAt : Option Seconds
  borrowers : List ι

def Shared.initial (clock : Seconds) : Shared ι := ⟨clock, [], none, none, false, none, none, []⟩

structure Pending (υ : Type) where
  name : Text
  material : Text
  token : Text
  marker : String
  verified : Bool
  userModel : UserModel υ

inductive Call (υ : Type)
  | prepare
  | verify (credential : Credential) (userModel : UserModel υ)

inductive Caller (υ : Type)
  | prepare
  | verify (pending : Pending υ)

inductive Ending (υ : Type)
  | session (found : Session υ)
  | prepared
  | raised (exc : Exn)
  | cancelled

inductive Phase (υ : Type)
  | idle
  | waitingLock (caller : Caller υ)
  | lockGranted (caller : Caller υ)
  | probing (caller : Caller υ) (previous : Option Seconds)
  | advising (caller : Caller υ) (previous : Option Seconds)
  | waitingSlot (pending : Pending υ)
  | slotGranted (pending : Pending υ)
  | fetching (pending : Pending υ)
  | finished

inductive Event (υ : Type)
  | start (call : Call υ)
  | lockAcquired
  | lockResumed
  | probeAnswered (answer : Answer)
  | advised (answer : Answer)
  | slotAcquired
  | queueTimedOut
  | slotResumed
  | answered (answer : Answer) (now : Readings)
  | cancelled

inductive Effect (υ : Type)
  | probeSent (uri : String)
  | bearerSent (uri : String)
  | probeSettled (passed : Bool)
  | probeCancelled
  | getSessionSent (uri : String) (headers : List (String × Text))
  | ended (ending : Ending υ)

abbrev Turn (ι υ : Type) := Shared ι × Phase υ × List (Effect υ)

def rungOne (R : Runtime) (material : Text) : Except Exn Text :=
  let marker := fingerprint R material
  if maxCookieBytes < material.length then
    throw (invalidCredential s!"cookie value is {material.length} bytes, over the cap [{marker}]")
  else
    match unquotedStrictly material with
    | none =>
      throw (invalidCredential s!"cookie value is not valid percent-encoded UTF-8 [{marker}]")
    | some decoded =>
      match rcut '.' decoded with
      | none => throw (invalidCredential s!"cookie value carries no signature separator [{marker}]")
      | some (token, signature) =>
        if token = [] then
          throw (invalidCredential s!"cookie value has an empty token [{marker}]")
        else if signature = [] then
          throw (invalidCredential s!"cookie value has an empty signature [{marker}]")
        else if maxTokenBytes < token.length then
          throw (invalidCredential s!"token is {token.length} bytes, over the cap [{marker}]")
        else pure token

def checkExpiry : StoredSession → Readings → String → Except Exn Unit :=
  expiryChecked "the session upstream returned"

def checkBan : StoredUser → Readings → String → Except Exn Unit := banChecked

def buildSession : StoredSession → StoredUser → Text → UserModel υ → Except Exn (Session υ) :=
  sessionBuilt

def finish (ending : Ending υ) : Phase υ × List (Effect υ) := (.finished, [.ended ending])

namespace Verifier

variable (R : Runtime) (v : Verifier)

def extract (connection : Connection) : Option Credential :=
  (snapshotOf v.names v.csrf connection).map .remote

def rungTwo (material : Text) (marker : String) : Except Exn Bool := do
  if v.secrets = [] then return false
  let parsed ← parseSignedValue R material
  verifySignature R v.secrets parsed.token parsed.signature marker
  return true

def outbound (name value : Text) : List (String × Text) :=
  [("cookie", name ++ '=' :: value), ("accept", "application/json".toList)]

def cacheHolds (material : Text) : Proc Exn (Shared ι) Bool := do
  let s ← get
  let answer := holds R v.negativeTtl s.clock material s.entries
  set { s with entries := answer.2 }
  return answer.1

def backoffLatched : Proc Exn (Shared ι) Bool := do
  let s ← get
  let answer := latched s.clock s.blockedUntil
  set { s with blockedUntil := answer.2 }
  return answer.1

/-- The part of `verify` that reads nothing but the credential and the configuration. -/
def admitted (credential : Credential) (userModel : UserModel υ) : Except Exn (Pending υ) :=
  match credential with
  | .remote snapshot => do
    let (name, material) ← resolveNamedCookie R snapshot.pairs v.names.base
    let token ← rungOne R material
    let marker := fingerprint R token
    enforcePolicy v.csrf snapshot.facts token
    let verified ← v.rungTwo R material marker
    return ⟨name, material, token, marker, verified, userModel⟩
  | _ => throw (invalidCredential "remote credential snapshot is not this verifier's")

def opening (credential : Credential) (userModel : UserModel υ) :
    Proc Exn (Shared ι) (Pending υ) := do
  let pending ← check (v.admitted R credential userModel)
  if ← v.cacheHolds R pending.material then throw (nullOutcome pending.verified pending.marker)
  if ← backoffLatched then throw (authServiceUnavailable
    s!"get-session is backing off after a recent rate-limit (429) [{pending.marker}]")
  return pending

def fetchTranslated (answer : Answer) : Except Exn TransportResponse :=
  fetched s!"get-session timed out [{v.uri}]"
    s!"get-session body exceeded the {v.maxBytes}-byte cap"
    "get-session applied a content encoding after identity was requested"
    (fun name => s!"get-session fetch failed [{name}] {v.uri}") answer

def document (response : TransportResponse) (pending : Pending υ) :
    Proc Exn (Shared ι) StoredSession := do
  if isCacheableNull R response then
    modify fun s => { s with
      entries := remember R v.negativeTtl v.maxRemembered s.clock pending.material s.entries }
  check (sessionDocumentFrom R response v.uri pending.marker pending.verified)

def session (record : StoredSession) (pending : Pending υ) (now : Readings) :
    Except Exn (Session υ) :=
  if encodeUtf8 record.token ≠ encodeUtf8 pending.token then throw (invalidCredential
    s!"upstream answered a session naming a different token [{pending.marker}]")
  else do
    checkExpiry record now pending.marker
    match record.user with
    | none => throw (.other "AttributeError")
    | some stored => do
      checkBan stored now pending.marker
      buildSession record stored pending.token pending.userModel

def closing (pending : Pending υ) (answer : Answer) (now : Readings) :
    Proc Exn (Shared ι) (Session υ) := do
  let response ← check (v.fetchTranslated answer)
  modify fun s => { s with blockedUntil := observe s.clock response s.blockedUntil }
  let record ← v.document R response pending
  check (session record pending now)

def startupFailure (caller : Caller υ) (exc : Exn) : Exn :=
  match caller, exc with
  | .prepare, .session .authServiceUnavailable _ reason _ => configurationError
    (s!"RemoteVerifier could not reach get-session at {v.uri} during startup: {reason}. An auth"
      ++ " service unreachable at boot is a deployment that should not take traffic. Fix"
      ++ " reachability, or omit startup()/lifespan to let the probe run lazily on the first"
      ++ " request instead.")
  | _, exc => exc

def refused (caller : Caller υ) (exc : Exn) : Phase υ × List (Effect υ) :=
  finish (.raised (v.startupFailure caller exc))

def passed : Caller υ → Phase υ × List (Effect υ)
  | .prepare => finish .prepared
  | .verify pending => (.waitingSlot pending, [])

def gate (caller : Caller υ) (s : Shared ι) : Turn ι υ :=
  if s.probedOk then (s, passed caller)
  else
    match s.contractFailure with
    | some message => (s, v.refused caller (configurationError message))
    | none => (s, .waitingLock caller, [])

def mayProbe (s : Shared ι) : Bool :=
  match s.probeAttemptedAt with
  | none => true
  | some attempted => probeRetryInterval ≤ s.clock - attempted

def unlocked (s : Shared ι) : Shared ι := { s with probeLock := none }

def locked (caller : Caller υ) (s : Shared ι) : Turn ι υ :=
  if s.probedOk then (unlocked s, passed caller)
  else
    match s.contractFailure with
    | some message => (unlocked s, v.refused caller (configurationError message))
    | none =>
      if mayProbe s then
        ({ s with probeAttemptedAt := some s.clock }, .probing caller s.probeAttemptedAt,
          [.probeSent v.uri])
      else (unlocked s, v.refused caller (authServiceUnavailable
        "get-session readiness has not been confirmed; the boot probe is retrying"))

/-- A contract failure is remembered; any other failure of the probe is not. -/
def noted (exc : Exn) (s : Shared ι) : Shared ι :=
  match exc with
  | .betterAuth .configuration _ message _ => { s with contractFailure := some message }
  | _ => s

def probeFailed (caller : Caller υ) (exc : Exn) (s : Shared ι) : Turn ι υ :=
  let (phase, effects) := v.refused caller exc
  (unlocked (noted exc s), phase, .probeSettled false :: effects)

def firstRung (caller : Caller υ) (previous : Option Seconds) (answer : Answer) (s : Shared ι) :
    Turn ι υ :=
  match probed R v.uri v.transportName v.maxBytes answer with
  | .ok _ => (s, .advising caller previous, [.bearerSent v.uri])
  | .error exc => v.probeFailed caller exc s

def lastRung (caller : Caller υ) (answer : Answer) (s : Shared ι) : Turn ι υ :=
  match advise v.uri v.maxBytes v.refuseUnsignedBearer answer with
  | .ok _ =>
    let (phase, effects) := passed caller
    (unlocked { s with probedOk := true }, phase, .probeSettled true :: effects)
  | .error exc => v.probeFailed caller exc s

def opened (call : Call υ) (s : Shared ι) : Turn ι υ :=
  match call with
  | .prepare => v.gate .prepare s
  | .verify credential userModel =>
    match exec (v.opening R credential userModel) s with
    | (.ok pending, t) => v.gate (.verify pending) t
    | (.error exc, t) => (t, finish (.raised exc))

variable [DecidableEq ι]

def released (i : ι) (s : Shared ι) : Shared ι := { s with borrowers := s.borrowers.erase i }

def closed (i : ι) (pending : Pending υ) (answer : Answer) (now : Readings) (s : Shared ι) :
    Turn ι υ :=
  match exec (v.closing R pending answer now) (released i s) with
  | (.ok found, t) => (t, finish (.session found))
  | (.error exc, t) => (t, finish (.raised exc))

def abandoned (i : ι) (s : Shared ι) : Phase υ → Option (Turn ι υ)
  | .waitingLock _ | .waitingSlot _ => some (s, finish .cancelled)
  | .lockGranted _ => some (unlocked s, finish .cancelled)
  | .probing _ previous | .advising _ previous =>
    some (unlocked { s with probeAttemptedAt := previous }, .finished,
      [.probeCancelled, .ended .cancelled])
  | .slotGranted _ | .fetching _ => some (released i s, finish .cancelled)
  | .idle | .finished => none

def queueSaturated : Exn :=
  authServiceUnavailable s!"get-session outbound queue saturated after {v.queueTimeoutShown}s"

/-- One section of a call, from one suspension to the next. -/
def act (i : ι) (event : Event υ) (s : Shared ι) (phase : Phase υ) : Option (Turn ι υ) :=
  match event, phase with
  | .start call, .idle => some (v.opened R call s)
  | .lockAcquired, .waitingLock caller =>
    if s.probeLock = none then some ({ s with probeLock := some i }, .lockGranted caller, [])
    else none
  | .lockResumed, .lockGranted caller => some (v.locked caller s)
  | .probeAnswered answer, .probing caller previous => some (v.firstRung R caller previous answer s)
  | .advised answer, .advising caller _ => some (v.lastRung caller answer s)
  | .slotAcquired, .waitingSlot pending =>
    if s.borrowers.length < v.concurrency then
      some ({ s with borrowers := i :: s.borrowers }, .slotGranted pending, [])
    else none
  | .queueTimedOut, .waitingSlot _ => some (s, finish (.raised v.queueSaturated))
  | .slotResumed, .slotGranted pending =>
    some (s, .fetching pending, [.getSessionSent v.uri (outbound pending.name pending.material)])
  | .answered answer now, .fetching pending => some (v.closed R i pending answer now s)
  | .cancelled, phase => abandoned i s phase
  | _, _ => none

def program : Program ι (Shared ι) (Phase υ) (Event υ) Seconds (Effect υ) where
  act := v.act R
  drift now s := if s.clock ≤ now then some { s with clock := now } else none

abbrev machine : Runs.Machine (World ι (Shared ι) (Phase υ)) (Happening ι (Event υ) Seconds)
    (Effect υ) := (v.program R).machine

def start (clock : Seconds) : World ι (Shared ι) (Phase υ) :=
  ⟨Shared.initial clock, fun _ => .idle⟩

end Verifier

end BetterAuthBridge.RemoteVerifier
