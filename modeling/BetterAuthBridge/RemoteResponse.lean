import BetterAuthBridge.Models

namespace BetterAuthBridge.RemoteResponse

open Values Errors SessionDocument Models

/-- One HTTP response; header names are lowercased on construction. -/
structure TransportResponse where
  statusCode : Int
  headers : List (Text × Text)
  content : Bytes

def TransportResponse.header (response : TransportResponse) (name : String) : Option Text :=
  response.headers.lookup name.toList

inductive Answer
  | response (r : TransportResponse)
  | raised (exc : Exn)

/-- The response of a fetch. A failure that is not the library's own becomes a reachability
failure, worded by its kind. -/
def fetched (timedOut tooLarge encoded : String) (unreachable : String → String) :
    Answer → Except Exn TransportResponse
  | .response r => pure r
  | .raised exc =>
    if exc.isLibrary then throw exc
    else throw (authServiceUnavailable (match exc with
      | .timeout _ => timedOut
      | .responseTooLarge _ => tooLarge
      | .contentEncodingRejected _ => encoded
      | other => unreachable other.className))

def jsonMediaType : Text := "application/json".toList

def defaultBackoff : Int := 5

def minBackoff : Int := 1

def maxBackoff : Int := 60

def rateLimited : Int := 429

def routingStatus (status : Int) : Bool := status == 404 || status == 405 || status == 415

variable (R : Runtime)

def mediaType (response : TransportResponse) : Text :=
  let declared := (response.header "content-type").getD []
  lower (strip ((declared.splitOn ';').headD []))

def maxIntDigits : Nat := 4300

def signed : Text → Int × Text
  | '-' :: digits => (-1, digits)
  | '+' :: digits => (1, digits)
  | digits => (1, digits)

def decimalZeros : List Nat :=
  [0x30, 0x660, 0x6f0, 0x7c0, 0x966, 0x9e6, 0xa66, 0xae6, 0xb66, 0xbe6, 0xc66, 0xce6, 0xd66,
   0xde6, 0xe50, 0xed0, 0xf20, 0x1040, 0x1090, 0x17e0, 0x1810, 0x1946, 0x19d0, 0x1a80, 0x1a90,
   0x1b50, 0x1bb0, 0x1c40, 0x1c50, 0xa620, 0xa8d0, 0xa900, 0xa9d0, 0xa9f0, 0xaa50, 0xabf0, 0xff10,
   0x104a0, 0x10d30, 0x11066, 0x110f0, 0x11136, 0x111d0, 0x112f0, 0x11450, 0x114d0, 0x11650,
   0x116c0, 0x11730, 0x118e0, 0x11950, 0x11c50, 0x11d50, 0x11da0, 0x11f50, 0x16a60, 0x16ac0,
   0x16b50, 0x1d7ce, 0x1d7d8, 0x1d7e2, 0x1d7ec, 0x1d7f6, 0x1e140, 0x1e2f0, 0x1e4f0, 0x1e950,
   0x1fbf0]

def decimal (c : Char) : Option Nat :=
  (decimalZeros.find? fun first => first ≤ c.toNat && c.toNat < first + 10).map (c.toNat - ·)

/-- `int(raw.strip())`: a sign, then decimal digits that single underscores may group. -/
def parseInt (raw : Text) : Option Int :=
  let (sign, rest) := signed (strip raw)
  let groups := rest.splitOn '_'
  if groups.all (· ≠ []) && groups.flatten.length ≤ maxIntDigits then
    (groups.flatten.mapM decimal).map fun digits =>
      sign * (digits.foldl (fun value digit => 10 * value + digit) 0 : Nat)
  else none

def retryAfterSeconds (response : TransportResponse) : Int :=
  match ["retry-after", "x-retry-after"].findSome? fun name =>
      (response.header name).bind parseInt with
  | some value => max minBackoff (min maxBackoff value)
  | none => defaultBackoff

def statusFailure (response : TransportResponse) (uri : String) : Exn :=
  let status := response.statusCode
  if status = rateLimited then
    authServiceUnavailable (s!"get-session is rate-limited upstream (429);"
      ++ s!" backing off {retryAfterSeconds response}s")
  else if routingStatus status then
    authServiceUnavailable s!"get-session answered {status} at {uri}; check base_path="
  else if 300 ≤ status ∧ status < 400 then authServiceUnavailable
    s!"get-session answered {status} from {uri}; redirects are never followed"
  else authServiceUnavailable s!"get-session answered {status} from {uri}"

/-- The refusal a `200 + null` maps to, for a live answer and for a remembered one. -/
def nullOutcome (signatureVerified : Bool) (marker : String) : Exn :=
  if signatureVerified then
    sessionRevoked s!"upstream reports the signed session is gone [{marker}]"
  else invalidCredential s!"upstream reports no session for this cookie [{marker}]"

def sessionDocumentFrom (response : TransportResponse) (uri marker : String)
    (signatureVerified : Bool) : Except Exn StoredSession :=
  if response.statusCode ≠ 200 then throw (statusFailure response uri)
  else if mediaType response ≠ jsonMediaType then throw (authServiceUnavailable
    s!"get-session at {uri} is served as {safeLabel (ofText (mediaType response))}, not JSON")
  else
    match R.loads (.bytes response.content) with
    | none => throw (authServiceUnavailable s!"get-session at {uri} is unusable: it is not JSON")
    | some .none => throw (nullOutcome signatureVerified marker)
    | some (.dict document) =>
      match parseSessionDocument R document with
      | none => throw (authServiceUnavailable
          s!"get-session at {uri} answered a document this bridge cannot read [{marker}]")
      | some record => pure record
    | some _ => throw (authServiceUnavailable
        s!"get-session at {uri} is unusable: it is not a JSON object")

/-- The one answer that is remembered: `200`, JSON, literally `null`. -/
def isCacheableNull (response : TransportResponse) : Bool :=
  response.statusCode == 200 && mediaType response == jsonMediaType &&
    match R.loads (.bytes response.content) with
    | some .none => true
    | _ => false

theorem fetched_raised {timedOut tooLarge encoded : String} {unreachable : String → String}
    {raised exc : Exn}
    (h : fetched timedOut tooLarge encoded unreachable (.raised raised) = .error exc)
    (hc : exc.isConfiguration = true) : raised = exc := by
  by_cases hl : raised.isLibrary
  · simpa only [fetched, hl, if_true, throw_eq_error, Except.error.injEq] using h
  · simp only [fetched, hl, throw_eq_error, if_false, Bool.false_eq_true, Except.error.injEq] at h
    subst h
    cases hc

theorem sessionDocumentFrom_ok {R : Runtime} {response : TransportResponse} {uri marker : String}
    {verified : Bool} {record : StoredSession} :
    sessionDocumentFrom R response uri marker verified = .ok record ↔
      response.statusCode = 200 ∧ mediaType response = jsonMediaType ∧
        ∃ document, R.loads (.bytes response.content) = some (.dict document) ∧
          parseSessionDocument R document = some record := by
  unfold sessionDocumentFrom
  by_cases hs : response.statusCode = 200
  · by_cases hm : mediaType response = jsonMediaType
    · cases hl : R.loads (.bytes response.content) with
      | none => simp [hs, hm]
      | some value =>
        cases value with
        | dict document =>
          cases hp : parseSessionDocument R document <;> simp [hs, hm, hp]
        | _ => simp [hs, hm]
    · simp [hs, hm]
  · simp [hs]

end BetterAuthBridge.RemoteResponse
