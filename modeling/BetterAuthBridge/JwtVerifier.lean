import BetterAuthBridge.JwksClient
import BetterAuthBridge.Library.Floats
import BetterAuthBridge.Urls

namespace BetterAuthBridge.JwtVerifier

open Library Library.Floats Library.Tasks Values Errors Models SessionDocument JwksDocument
open Urls (Setting UrlLibrary normalizeBaseUrl)

variable {ι κ υ : Type}

def requiredClaims : List String := ["exp", "iat", "iss", "aud", "sub"]

def scheme : Text := "bearer".toList

def defaultLifetime : ℚ := 900

def maxLeeway : ℚ := 60

def maxLifetime : ℚ := 86400

def maxTokenBytes : Nat := 8192

def dotSeparators : Nat := 2

def jwksPath : String := "/api/auth/jwks"

def maxKeys : Nat := 32

def minCacheTtl : ℚ := 60

def negativeTtl : Seconds := 60

def refetchInterval : Seconds := 10

def supportedAlgorithms : List Str := loaders.map fun l => ofString l.1

/-- How a call of PyJWT fails: with the error of an expired signature, with another of the errors
the verifier answers for, or with anything else. -/
inductive JwtFailure
  | expired
  | rejected (name : String)
  | escaped (exc : Exn)

structure Decoding (κ : Type) where
  token : Str
  key : κ
  algorithms : List Str
  require : List String
  issuer : Text
  audience : Text
  leeway : ℚ

/-- PyJWT; a decode reads the wall clock. -/
structure JwtLibrary (κ : Type) where
  getUnverifiedHeader : Str → Except JwtFailure Payload
  decode : Decoding κ → ℚ → Except JwtFailure Payload

section Configuration

/-- What an operator passes for the algorithms: a sequence, or an object of a type that is none or
that is text. -/
inductive AlgorithmSetting
  | sequence (entries : List Setting)
  | other (typeName : String)

inductive NumberSetting
  | int (n : Int)
  | float (number : Number) (rendered : String)
  | other (typeName : String)

def NumberSetting.rendered : NumberSetting → String
  | int n => toString n
  | float _ rendered => rendered
  | other typeName => typeName

/-- The value of a setting as `math.isfinite` and the comparisons after it see it, `none` where it
is not finite; an integer that is too large for a `float` raises. -/
def finiteValue : NumberSetting → Except Exn (Option ℚ)
  | .int n =>
    match binary64.ofInt n with
    | some _ => pure (some n)
    | none => throw (.other "OverflowError")
  | .float (.finite q) _ => pure (some q)
  | .float .negativeZero _ => pure (some 0)
  | _ => pure none

abbrev Algorithms := { algorithms : List Str // ∀ a ∈ algorithms, a ∈ supportedAlgorithms }

variable (R : Runtime)

def acceptedAlgorithms : String :=
  "[" ++ ", ".intercalate (loaders.map fun l => R.repr l.1.toList) ++ "]"

/-- One entry of the allowlist, which keeps its first mention. -/
def checkedAlgorithm (checked : Algorithms) (entry : Setting) : Except Exn Algorithms :=
  let refusal := configurationError
    (s!"algorithms lists {entry.rendered R}, which this library will not verify. Accepted:"
      ++ s!" {acceptedAlgorithms R} - asymmetric only, and spelled exactly as JWA spells them. An"
      ++ " HS* entry would let a key set's *public* key be used as a signing secret, and 'none' is"
      ++ " not an algorithm.")
  match entry with
  | .text name =>
    if h : ofText name ∈ supportedAlgorithms then
      if ofText name ∈ checked.1 then pure checked
      else pure ⟨checked.1 ++ [ofText name], by
        intro a ha
        obtain ha | ha := List.mem_append.mp ha
        · exact checked.2 a ha
        · rw [List.mem_singleton.mp ha]
          exact h⟩
    else throw refusal
  | .other .. => throw refusal

def validatedAlgorithms : AlgorithmSetting → Except Exn Algorithms
  | .other typeName => throw (configurationError
      ("algorithms must be a sequence of algorithm names, such as ('EdDSA',); got"
        ++ s!" {typeName}. A bare string is a sequence of its own letters."))
  | .sequence entries =>
    if entries = [] then throw (configurationError
      ("algorithms is empty, so no signature could ever verify. Pass at least one of"
        ++ s!" {acceptedAlgorithms R}."))
    else entries.foldlM (checkedAlgorithm R) ⟨[], nofun⟩

abbrev Leeway := { q : ℚ // 0 ≤ q ∧ q ≤ maxLeeway }

def validatedLeeway (leeway : NumberSetting) : Except Exn Leeway :=
  match leeway with
  | .other typeName =>
    throw (configurationError s!"leeway must be a number of seconds; got {typeName}.")
  | leeway => do
    let refusal := configurationError
      (s!"leeway must be between 0 and 60 seconds; got {leeway.rendered}. It is there for clock"
        ++ " skew, and every second of it is a second of extra session life for an expired token. If"
        ++ " you need more, verify the token yourself.")
    match ← finiteValue leeway with
    | none => throw refusal
    | some q => if h : 0 ≤ q ∧ q ≤ maxLeeway then pure ⟨q, h⟩ else throw refusal

abbrev Lifetime := { q : ℚ // 0 < q ∧ q ≤ maxLifetime }

/-- `DEFAULT_LIFETIME + leeway`. -/
def defaultCeiling (leeway : Leeway) : Lifetime :=
  ⟨binary64.rounded (defaultLifetime + leeway.1), by
    obtain ⟨hlow, hhigh⟩ := leeway.2
    unfold maxLeeway at hhigh
    unfold maxLifetime defaultLifetime
    have hpow : (2 : ℚ) ^ (10 : ℤ) ≤ 86400 := by norm_num
    constructor
    · have hge : (2 : ℚ) ^ (9 : ℤ) ≤ 900 + leeway.1 := by
        norm_num
        linarith
      exact lt_of_lt_of_le (by norm_num) (Format.pow_le_rounded (by norm_num) hge)
    · have hle : 900 + leeway.1 ≤ (2 : ℚ) ^ (10 : ℤ) := by
        norm_num
        linarith
      exact (Format.rounded_le_pow (by norm_num) (by linarith) hle).trans hpow⟩

def validatedLifetime (maxTokenLifetime : Option NumberSetting) (leeway : Leeway) :
    Except Exn Lifetime :=
  match maxTokenLifetime with
  | none => pure (defaultCeiling leeway)
  | some (.other typeName) =>
    throw (configurationError s!"max_token_lifetime must be a number of seconds; got {typeName}.")
  | some setting => do
    let refusal := configurationError
      (s!"max_token_lifetime must be above 0 and at most 86400 seconds; got {setting.rendered}. It"
        ++ " is the ceiling that catches a Node side minting long-lived tokens, so a ceiling of a day"
        ++ " already accepts far more than upstream issues.")
    match ← finiteValue setting with
    | none => throw refusal
    | some q => if h : 0 < q ∧ q ≤ maxLifetime then pure ⟨q, h⟩ else throw refusal

def validatedTtl (cacheTtl : NumberSetting) : Except Exn Seconds :=
  match cacheTtl with
  | .other typeName =>
    throw (configurationError s!"cache_ttl must be a number of seconds; got {typeName}.")
  | cacheTtl => do
    let refusal := configurationError
      (s!"cache_ttl must be at least 60 seconds; got {cacheTtl.rendered}. Below that a key set is"
        ++ " refetched often enough to be a fetch per request wearing a cache's name, and"
        ++ " upstream's rate limit is then part of your auth path.")
    match ← finiteValue cacheTtl with
    | none => throw refusal
    | some q => if q < minCacheTtl then throw refusal else pure (binary64.round q).value

end Configuration

structure Verifier (κ : Type) where
  origin : Text
  algorithms : Algorithms
  leeway : Leeway
  maxTokenLifetime : Lifetime
  cacheTtl : Seconds
  keyLibrary : KeyLibrary κ
  jwt : JwtLibrary κ

namespace Verifier

/-- `JwtVerifier(..)`, given a transport. -/
def init (R : Runtime) (U : UrlLibrary) (keyLibrary : KeyLibrary κ) (jwt : JwtLibrary κ)
    (baseUrl : Setting) (algorithms : AlgorithmSetting) (leeway : NumberSetting)
    (maxTokenLifetime : Option NumberSetting) (cacheTtl : NumberSetting) :
    Except Exn (Verifier κ) := do
  let origin ← normalizeBaseUrl R U baseUrl "base_url"
  let algorithms ← validatedAlgorithms R algorithms
  let leeway ← validatedLeeway leeway
  let maxTokenLifetime ← validatedLifetime maxTokenLifetime leeway
  let cacheTtl ← validatedTtl cacheTtl
  return ⟨origin, algorithms, leeway, maxTokenLifetime, cacheTtl, keyLibrary, jwt⟩

variable (v : Verifier κ)

def keys : JwksClient.Client κ where
  uri := String.ofList v.origin ++ jwksPath
  algorithms := v.algorithms.1
  maxKeys := maxKeys
  library := v.keyLibrary
  cacheTtl := v.cacheTtl
  negativeTtl := negativeTtl
  refetchInterval := refetchInterval

def decoding (token : Str) (key : Jwk κ) : Decoding κ where
  token := token
  key := key.key
  algorithms := v.algorithms.1
  require := requiredClaims
  issuer := v.origin
  audience := v.origin
  leeway := v.leeway.1

end Verifier

/-- What `verify` is handed: a token, the marker for more than one header, or anything else. -/
inductive Credential
  | token (t : Str)
  | ambiguousBearer
  | other (typeName : String)
  deriving DecidableEq

def extract : List Text → Option Credential
  | [] => none
  | [header] =>
    match Text.cut ' ' header with
    | none => none
    | some (name, rest) =>
      if lower name ≠ scheme then none
      else if strip rest = [] then none else some (.token (ofText (strip rest)))
  | _ => some .ambiguousBearer

section Admission

/-- `credential.encode("utf-8", "replace")`, as text. -/
def replaced (s : Str) : Text := s.map fun | .char c => c | .surrogate _ => '?'

def safeValue : Value → String
  | .str s => safeLabel s
  | _ => redacted

variable (R : Runtime)

def checkedShape : Credential → Except Exn (Str × String)
  | .token token =>
    if token = [] then throw (invalidCredential "credential is not a token: str")
    else
      let marker := fingerprint R (replaced token)
      if maxTokenBytes < token.length then throw (invalidCredential
        s!"token is {token.length} bytes, over the cap {marker}")
      else if token.count (.char '.') ≠ dotSeparators then throw (invalidCredential
        s!"token is not three dot-separated segments {marker}")
      else pure (token, marker)
  | .ambiguousBearer =>
    throw (invalidCredential "credential is not a token: _AmbiguousBearer")
  | .other typeName => throw (invalidCredential s!"credential is not a token: {typeName}")

def unverifiedHeader (jwt : JwtLibrary κ) (token : Str) (marker : String) : Except Exn Payload :=
  let unreadable (failure : String) := invalidCredential
    s!"unreadable token header [{failure}] {marker}"
  match jwt.getUnverifiedHeader token with
  | .ok header => pure header
  | .error .expired => throw (unreadable "ExpiredSignatureError")
  | .error (.rejected name) => throw (unreadable name)
  | .error (.escaped exc) => throw exc

def noCriticalExtensions (header : Payload) (marker : String) : Except Exn Unit :=
  if (header.lookup (ofString "crit")).isSome then throw (invalidCredential
    s!"token declares critical header extensions; none are supported {marker}")
  else pure ()

def usableKid (header : Payload) (marker : String) : Except Exn Str :=
  let refusal := invalidCredential s!"token names no key id {marker}"
  match header.get "kid" with
  | .str kid => if kid.blank then throw refusal else pure kid
  | _ => throw refusal

def allowedAlgorithm (header : Payload) (allowed : List Str) (marker : String) : Except Exn Str :=
  let refusal (value : Value) := invalidCredential s!"alg={safeValue value} is not allowed {marker}"
  match header.get "alg" with
  | .str algorithm =>
    if algorithm ∈ allowed then pure algorithm else throw (refusal (.str algorithm))
  | value => throw (refusal value)

structure Pending (υ : Type) where
  token : Str
  marker : String
  kid : Str
  algorithm : Str
  userModel : UserModel υ

def admitted (v : Verifier κ) (credential : Credential) (userModel : UserModel υ) :
    Except Exn (Pending υ) := do
  if credential = .ambiguousBearer then throw (invalidCredential
    ("more than one Authorization header on one request; a bearer credential is carried by exactly"
      ++ " one"))
  let (token, marker) ← checkedShape R credential
  let header ← unverifiedHeader v.jwt token marker
  noCriticalExtensions header marker
  let kid ← usableKid header marker
  let algorithm ← allowedAlgorithm header v.algorithms.1 marker
  return ⟨token, marker, kid, algorithm, userModel⟩

def keyFound (found : Option (Jwk κ)) (kid algorithm : Str) (marker : String) :
    Except Exn (Jwk κ) :=
  match found with
  | none => throw (invalidCredential s!"no published key for kid={safeLabel kid} {marker}")
  | some found =>
    if found.algorithm ≠ algorithm then throw (invalidCredential
      (s!"header says alg={String.ofList (replaced algorithm)}, key {safeLabel kid} is"
        ++ s!" {safeLabel found.algorithm} {marker}"))
    else pure found

def decoded (v : Verifier κ) (token : Str) (key : Jwk κ) (marker : String) (now : ℚ) :
    Except Exn Payload :=
  match v.jwt.decode (v.decoding token key) now with
  | .ok claims => pure claims
  | .error .expired =>
    throw (sessionExpired s!"token expired [ExpiredSignatureError] {marker}")
  | .error (.rejected name) => throw (invalidCredential s!"token rejected [{name}] {marker}")
  | .error (.escaped exc) => throw exc

end Admission

section Claims

def checkSubject (claims : Payload) (marker : String) : Except Exn Unit :=
  let refusal := invalidCredential s!"sub identifies nobody {marker}"
  match claims.get "sub" with
  | .str subject => if subject.blank then throw refusal else pure ()
  | _ => throw refusal

def asNumber : Value → Except Exn (Option Number)
  | .int n =>
    match binary64.ofInt n with
    | some number => pure (some number)
    | none => throw (.other "OverflowError")
  | .float bits => pure (some (Number.ofBits bits))
  | _ => pure none

def checkLifetime (claims : Payload) (ceiling : ℚ) (marker : String) : Except Exn Unit := do
  let issued ← asNumber (claims.get "iat")
  let expires ← asNumber (claims.get "exp")
  match issued, expires with
  | some issued, some expires =>
    let lifetime := Number.sub binary64 expires issued
    if lifetime.le (.finite 0) then throw (invalidCredential
      s!"token lifetime {lifetime.formatted}s is not positive {marker}")
    else if Number.lt (.finite ceiling) lifetime then throw (invalidCredential
      (s!"token lifetime {lifetime.formatted}s exceeds the {(Number.finite ceiling).formatted}s"
        ++ s!" ceiling {marker}"))
    else pure ()
  | _, _ => throw (invalidCredential s!"iat or exp is not a number {marker}")

def datetimeRange : Int × Int := (-62135596800, 253402300799)

def gmtimeRange : Int × Int := (-67768040609740800, 67768036191676799)

def timeRange : Int × Int := (-2 ^ 63, 2 ^ 63 - 1)

def within (range : Int × Int) (seconds : Int) : Bool := range.1 ≤ seconds && seconds ≤ range.2

/-- A timestamp in microseconds: its whole seconds, and the rest rounded. -/
def microseconds (q : ℚ) : Int :=
  let whole := if q < 0 then ⌈q⌉ else ⌊q⌋
  whole * 10 ^ 6 + roundEven (binary64.round ((q - whole) * 10 ^ 6)).value

def fromtimestamp : Number → Except Exn Moment
  | .nan => throw (.other "ValueError")
  | .infinite _ => throw (.other "OverflowError")
  | number =>
    let micros := microseconds number.value
    let seconds := micros / 10 ^ 6
    if within timeRange seconds = false then throw (.other "OverflowError")
    else if within gmtimeRange seconds = false then throw (.other "OSError")
    else if within datetimeRange seconds = false then throw (.other "ValueError")
    else pure ⟨micros, 0⟩

def expiry (claims : Payload) : Except Exn Moment := do
  match ← asNumber (claims.get "exp") with
  | some expires => fromtimestamp expires
  | none => throw (.other "AssertionError")

def identified (claims : Payload) : Payload :=
  if (claims.get "id").isNone then Ordered.set claims (ofString "id") (claims.get "sub") else claims

def session (claims : Payload) (userModel : UserModel υ) : Except Exn (Session υ) := do
  let user ← parseUser userModel (identified claims)
  let expiresAt ← expiry claims
  return ⟨user, some expiresAt, none, none, claims⟩

/-- The checks that `verify` makes of decoded claims, in their order. -/
def checkedClaims (claims : Payload) (ceiling : ℚ) (userModel : UserModel υ) (marker : String) :
    Except Exn (Session υ) := do
  checkSubject claims marker
  checkLifetime claims ceiling marker
  session claims userModel

end Claims

inductive Ending (υ : Type)
  | session (found : Session υ)
  | raised (exc : Exn)
  | cancelled

inductive Phase (υ : Type)
  | idle
  | looking (pending : Pending υ) (lookup : JwksClient.Phase)
  | finished

/-- What a call is started with, or what its lookup goes on with; and the wall clock, should the
call come to its decode. -/
inductive Event (υ : Type)
  | start (credential : Credential) (userModel : UserModel υ) (now : ℚ)
  | lookup (event : JwksClient.Event) (now : ℚ)

inductive Effect (κ υ : Type)
  | keyAsked (kid : Str)
  | keys (effect : JwksClient.Effect κ)
  | decodeCalled (decoding : Decoding κ)
  | ended (ending : Ending υ)

abbrev Turn (ι κ υ : Type) := JwksClient.Shared ι κ × Phase υ × List (Effect κ υ)

def lookupEnding (effects : List (JwksClient.Effect κ)) : Option (JwksClient.Ending κ) :=
  effects.findSome? fun
    | .ended _ ending => some ending
    | _ => none

def Ending.of : Except Exn (Session υ) → Ending υ
  | .ok found => .session found
  | .error exc => .raised exc

namespace Verifier

variable (v : Verifier κ)

def proved (pending : Pending υ) (key : Jwk κ) (now : ℚ) : Except Exn (Session υ) := do
  let claims ← decoded v pending.token key pending.marker now
  checkedClaims claims v.maxTokenLifetime.1 pending.userModel pending.marker

def closed (pending : Pending υ) (now : ℚ) (found : Option (Jwk κ)) : List (Effect κ υ) :=
  match keyFound found pending.kid pending.algorithm pending.marker with
  | .error exc => [.ended (.raised exc)]
  | .ok key =>
    [.decodeCalled (v.decoding pending.token key), .ended (.of (v.proved pending key now))]

def concluded (pending : Pending υ) (now : ℚ) : JwksClient.Ending κ → List (Effect κ υ)
  | .key jwk => v.closed pending now (some jwk)
  | .absent => v.closed pending now none
  | .raised exc => [.ended (.raised exc)]
  | .cancelled => [.ended .cancelled]

def resumed (pending : Pending υ) (now : ℚ) (turn : JwksClient.Turn ι κ) : Turn ι κ υ :=
  match lookupEnding turn.2.2 with
  | none => (turn.1, .looking pending turn.2.1, turn.2.2.map .keys)
  | some ending => (turn.1, .finished, turn.2.2.map .keys ++ v.concluded pending now ending)

variable (R : Runtime)

def act (i : ι) (event : Event υ) (s : JwksClient.Shared ι κ) (phase : Phase υ) :
    Option (Turn ι κ υ) :=
  match event, phase with
  | .start credential userModel now, .idle =>
    match admitted R v credential userModel with
    | .error exc => some (s, .finished, [.ended (.raised exc)])
    | .ok pending => (v.keys.act R i (.start pending.kid) s .idle).map fun turn =>
      let turn := v.resumed pending now turn
      (turn.1, turn.2.1, .keyAsked pending.kid :: turn.2.2)
  | .lookup event now, .looking pending lookup =>
    (v.keys.act R i event s lookup).map (v.resumed pending now)
  | _, _ => none

def program : Program ι (JwksClient.Shared ι κ) (Phase υ) (Event υ) Seconds (Effect κ υ) where
  act := v.act R
  drift := (v.keys.program R).drift

variable [DecidableEq ι]

abbrev machine : Runs.Machine (World ι (JwksClient.Shared ι κ) (Phase υ))
    (Happening ι (Event υ) Seconds) (Effect κ υ) :=
  (v.program R).machine

def start (clock : Seconds) : World ι (JwksClient.Shared ι κ) (Phase υ) :=
  ⟨JwksClient.Shared.initial clock, fun _ => .idle⟩

end Verifier

end BetterAuthBridge.JwtVerifier
