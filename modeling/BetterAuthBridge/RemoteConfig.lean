import BetterAuthBridge.CsrfPolicies
import BetterAuthBridge.JwtVerifier
import BetterAuthBridge.Library.Failure
import BetterAuthBridge.RemoteVerifier

namespace BetterAuthBridge.RemoteConfig

open Library Library.Failure Library.Floats Values Errors CookieParsing
open Csrf (CsrfPolicy)
open Signing (SharedSecret)
open Urls (Setting UrlLibrary normalizeBaseUrl isControl)
open JwtVerifier (NumberSetting finiteValue)
open CsrfPolicies (SecretSetting optionalHeader)

def minConcurrency : Int := 1

def maxConcurrency : Int := 256

def minQueueTimeout : ℚ := binary64.rounded (1 / 10)

def minNegativeTtl : ℚ := 0

def maxNegativeTtl : ℚ := 300

def minRemembered : Int := 1

def maxRemembered : Int := 65536

def verifierName : String := "RemoteVerifier"

def getSessionPath : Text := "/get-session".toList

def getSessionQuery : Text := "?disableCookieCache=true&disableRefresh=true".toList

/-- What is passed for a whole number; a bool is none. -/
inductive CountSetting
  | int (n : Int)
  | other (rendered : String)

def CountSetting.rendered : CountSetting → String
  | int n => toString n
  | other rendered => rendered

def CountSetting.unwritable : CountSetting → Bool
  | int n => 10 ^ maxStrDigits ≤ n.natAbs
  | other _ => false

/-- `repr` in a message; of too many digits it makes an error. -/
def CountSetting.written (setting : CountSetting) : Except Exn String :=
  if setting.unwritable then throw (.other "ValueError") else pure setting.rendered

inductive FlagSetting
  | flag (b : Bool)
  | other (typeName : String)

/-- What is passed for `csrf`: nothing, a policy whose `check` can be called or not, with the header
it requires, or anything else. -/
inductive PolicySetting
  | none
  | policy (policy : CsrfPolicy) (callable : Except Exn Bool)
      (requiredHeader : Except Exn (Option Setting))
  | other (typeName : String)

/-- What is passed for `transport`: an object of a type, with the two methods and callable or not. -/
structure TransportObject where
  typeName : String
  isTransport : Except Exn Bool
  getCallable : Except Exn Bool
  postCallable : Except Exn Bool

inductive KeyringSetting
  | sequence (entries : List (Except Exn SecretSetting))
  | other (typeName : String)

inductive ClockSetting
  | callable
  | other (typeName : String)

/-- What is passed, as looking at it shows it: the class checks, attributes and renderings that its
validator asks for may raise instead. -/
structure Settings where
  baseUrl : Except Exn Setting
  csrf : Except Exn PolicySetting
  transport : Option TransportObject
  secret : Option (Except Exn SecretSetting)
  secrets : Option (Except Exn KeyringSetting)
  cookieName : Except Exn Setting
  securePrefix : Except Exn Setting
  secureCookies : Except Exn FlagSetting
  basePath : Except Exn Setting
  concurrency : Except Exn CountSetting
  queueTimeout : Except Exn NumberSetting
  negativeTtl : Except Exn NumberSetting
  maxRemembered : Except Exn CountSetting
  maxBytes : Except Exn CountSetting
  refuseUnsignedBearer : Except Exn FlagSetting
  clock : ClockSetting

variable (R : Runtime)

def validatedPolicy (policy : PolicySetting) (place : String) : Except Exn CsrfPolicy :=
  match policy with
  | .none => throw (configurationError (s!"{place} is required and has no default: a"
      ++ " cookie-authenticated mode with no CSRF answer is a cross-site request forgery hole, so"
      ++ " None is not a value here. Pass OriginCheck(allowed_origins=[...]),"
      ++ " SignedDoubleSubmit(secret=..., allowed_origins=[...]), or - deliberately, in the"
      ++ " source - CsrfDisabled(reason='...')."))
  | .other typeName => throw (configurationError (s!"{place} is a {typeName}, which does not"
      ++ " implement the CsrfPolicy protocol: it needs a `required_header` attribute and a"
      ++ " check(facts, session_token) method."))
  | .policy policy callable requiredHeader => do
    if (← callable) = false then
      throw (configurationError s!"{place} has a check that is not callable.")
    let _ ← optionalHeader R (← requiredHeader) s!"{place} required_header"
    return policy

def defaultTransport (httpx : Bool) (verifier : String) : Except Exn String :=
  if httpx then pure "HttpxTransport"
  else throw (configurationError (s!"{verifier} was given no transport=, so it builds its default"
    ++ " HttpxTransport at construction - on purpose: a missing HTTP client stops the application"
    ++ " from starting instead of failing its first request - and the httpx package is not"
    ++ " installed. Install it with: pip install \"fastapi-better-auth-bridge[httpx]\", or pass"
    ++ " transport=Httpx2Transport() and install that extra instead: pip install"
    ++ " \"fastapi-better-auth-bridge[httpx2]\"."))

def validatedTransport (httpx : Bool) : Option TransportObject → Except Exn String
  | none => defaultTransport httpx verifierName
  | some transport => do
    if (← transport.isTransport) = false then throw (configurationError
      (s!"RemoteVerifier(transport=...) is a {transport.typeName}, which does not implement the"
        ++ " Transport protocol: it needs async get(url, *, headers, max_bytes) and post(...)"
        ++ " methods. Pass HttpxTransport(), Httpx2Transport(), or an adapter of your own."))
    if (← transport.getCallable) = false then throw (configurationError
      "RemoteVerifier(transport=...) has a get that is not callable.")
    if (← transport.postCallable) = false then throw (configurationError
      "RemoteVerifier(transport=...) has a post that is not callable.")
    return transport.typeName

def sharedSecret (entry : Except Exn SecretSetting) : Except Exn SharedSecret := do
  match ← entry with
  | .shared secret => pure secret
  | .other typeName => throw (configurationError ("RemoteVerifier signs nothing, but it pre-checks"
      ++ s!" with SharedSecret, not {typeName}: SharedSecret is what refuses a weak or placeholder"
      ++ " value at boot and keeps it out of every rendering. Write"
      ++ " SharedSecret(os.environ['BETTER_AUTH_SECRET'])."))

def validatedKeyring : KeyringSetting → Except Exn (List SharedSecret)
  | .other typeName => throw (configurationError ("RemoteVerifier(secrets=...) takes"
      ++ s!" a sequence of SharedSecret; got {typeName}. A bare string would be iterated one"
      ++ " character at a time."))
  | .sequence [] => throw (configurationError ("RemoteVerifier(secrets=...) is empty,"
      ++ " so no signature could ever be pre-checked. Pass at least one SharedSecret, or neither"
      ++ " secret= nor secrets= to skip the local pre-check entirely."))
  | .sequence entries => entries.mapM sharedSecret

def validatedOptionalKeyring : Option (Except Exn SecretSetting) →
    Option (Except Exn KeyringSetting) → Except Exn (List SharedSecret)
  | some _, some _ => throw (configurationError ("RemoteVerifier takes at most one of secret= or"
      ++ " secrets=. Both configure the same optional local signature pre-check; passing both"
      ++ " leaves it undecided which keyring is authoritative."))
  | none, none => pure []
  | some secret, none => [secret].mapM sharedSecret
  | none, some secrets => do validatedKeyring (← secrets)

abbrev CookieName := { name : Text // blank name = false ∧ name.any illegalInACookieName = false }

def validatedCookieName (cookieName : Setting) : Except Exn CookieName :=
  let unusable := configurationError (s!"RemoteVerifier(cookie_name=...) must be a non-empty"
    ++ s!" string, such as 'better-auth.session_token'; got {cookieName.rendered R}.")
  match cookieName with
  | .other .. => throw unusable
  | .text name =>
    if hb : blank name = true then throw unusable
    else if hi : name.any illegalInACookieName = true then throw (configurationError
      ("RemoteVerifier(cookie_name=...) must be a bare cookie name with no whitespace, ';', '=' or"
        ++ s!" ','; got {R.repr name}."))
    else pure ⟨name, eq_false_of_ne_true hb, eq_false_of_ne_true hi⟩

abbrev Prefix := { securePrefix : Text // securePrefix.any illegalInACookieName = false }

def validatedPrefix (securePrefix : Setting) : Except Exn Prefix :=
  match securePrefix with
  | .other typeName _ => throw (configurationError ("RemoteVerifier(secure_prefix=...) must be a"
      ++ s!" string, empty to read only the plain cookie name; got {typeName}."))
  | .text given =>
    if hi : given.any illegalInACookieName = true then throw (configurationError
      ("RemoteVerifier(secure_prefix=...) must carry no whitespace, ';', '=' or ','; got"
        ++ s!" {R.repr given}."))
    else pure ⟨given, eq_false_of_ne_true hi⟩

def validatedFlag (refusal : String → String) : FlagSetting → Except Exn Bool
  | .flag b => pure b
  | .other typeName => throw (configurationError (refusal typeName))

def validatedSecureCookies : FlagSetting → Except Exn Bool :=
  validatedFlag fun typeName => "RemoteVerifier(secure_cookies=...) must be a bool: True to read"
    ++ s!" only the secure-prefixed cookie name, False to read only the plain one; got {typeName}."

def validatedRefuseUnsignedBearer : FlagSetting → Except Exn Bool :=
  validatedFlag fun typeName => "RemoteVerifier(refuse_unsigned_bearer=...) must be a bool: True to"
    ++ " make the boot probe's advisory bearer check refuse a server whose bearer plugin is at its"
    ++ " default requireSignature: false, False to log one advisory warning and serve; got"
    ++ s!" {typeName}."

def basePathError (got : Text) : Exn :=
  configurationError ("RemoteVerifier(base_path=...) must be the path Better Auth is mounted at,"
    ++ " starting with '/' and with no trailing slash, query or fragment - '/api/auth' by default,"
    ++ s!" or '' for a server mounted at the root; got {R.repr got}.")

def malformed (basePath : Text) : Bool :=
  basePath.head? != some '/' || basePath.getLast? == some '/' || basePath.any isControl ||
    basePath.contains '?' || basePath.contains '#' || decide ("..".toList <:+: basePath)

abbrev BasePath := { basePath : Text // basePath = [] ∨ malformed basePath = false }

def validatedBasePath (basePath : Setting) : Except Exn BasePath :=
  match basePath with
  | .other typeName _ => throw (basePathError R typeName.toList)
  | .text given =>
    if hg : given = [] then pure ⟨given, .inl hg⟩
    else if hm : malformed given = true then throw (basePathError R given)
    else pure ⟨given, .inr (eq_false_of_ne_true hm)⟩

def validatedCount (p : Int → Prop) [DecidablePred p] (refusal : String → String)
    (setting : CountSetting) : Except Exn { n : Int // p n } :=
  match setting with
  | .other rendered => throw (configurationError (refusal rendered))
  | .int n =>
    if h : p n then pure ⟨n, h⟩
    else do throw (configurationError (refusal (← setting.written)))

abbrev Cap := { n : Int // 1 ≤ n }

def validatedCap : CountSetting → Except Exn Cap :=
  validatedCount _ fun rendered => "RemoteVerifier(max_bytes=...) must be a positive integer number"
    ++ s!" of bytes; got {rendered}. It bounds the get-session body this verifier will read."

abbrev Concurrency := { n : Int // minConcurrency ≤ n ∧ n ≤ maxConcurrency }

def validatedConcurrency : CountSetting → Except Exn Concurrency :=
  validatedCount _ fun rendered => s!"RemoteVerifier(concurrency=...) must be between"
    ++ s!" {minConcurrency} and {maxConcurrency} outbound get-session calls; got {rendered}. It"
    ++ " bounds how much of this process one stalled auth service can occupy, not how fast upstream"
    ++ " is asked."

def validatedSeconds (p : ℚ → Prop) [DecidablePred p] (place : String) (refusal : String → String)
    (setting : NumberSetting) : Except Exn { q : ℚ // p q } :=
  match setting with
  | .other typeName =>
    throw (configurationError s!"{place} must be a number of seconds; got {typeName}.")
  | setting => do
    match ← finiteValue setting with
    | none => throw (configurationError (refusal setting.rendered))
    | some q =>
      if h : p q then pure ⟨q, h⟩ else throw (configurationError (refusal setting.rendered))

abbrev QueueTimeout := { q : ℚ // minQueueTimeout ≤ q }

def validatedQueueTimeout : NumberSetting → Except Exn QueueTimeout :=
  validatedSeconds _ "RemoteVerifier(queue_timeout=...)" fun rendered =>
    s!"RemoteVerifier(queue_timeout=...) must be at least 0.1 seconds; got {rendered}. Below that a"
      ++ " saturated moment refuses every request that arrives during it."

abbrev NegativeTtl := { q : ℚ // minNegativeTtl ≤ q ∧ q ≤ maxNegativeTtl }

def validatedNegativeTtl : NumberSetting → Except Exn NegativeTtl :=
  validatedSeconds _ "RemoteVerifier(negative_ttl=...)" fun rendered =>
    "RemoteVerifier(negative_ttl=...) must be between 0 and 300 seconds; 0 disables the cache, which"
      ++ " costs one upstream call per forged cookie and is safe, never a bypass. Got"
      ++ s!" {rendered}."

abbrev Remembered := { n : Int // minRemembered ≤ n ∧ n ≤ maxRemembered }

def validatedMaxRemembered : CountSetting → Except Exn Remembered :=
  validatedCount _ fun rendered => "RemoteVerifier(max_remembered=...) must be a positive number of"
    ++ s!" remembered refusals, at most {maxRemembered}; got {rendered}. A garbage-cookie space is"
    ++ " the attacker's imagination, so remembering it is bounded."

def validatedClock : ClockSetting → Except Exn Unit
  | .callable => pure ()
  | .other typeName => throw (configurationError ("RemoteVerifier(clock=...) must be a callable"
      ++ s!" returning monotonic seconds, such as time.monotonic; got {typeName}."))

/-- `RemoteVerifier(..)`: whether `httpx` is there, and how a float is written, are the
environment's. -/
def init (U : UrlLibrary) (httpx : Bool) (shown : Number → String) (settings : Settings) :
    Except Exn RemoteVerifier.Verifier := do
  let origin ← normalizeBaseUrl R U (← settings.baseUrl) "base_url"
  let csrf ← validatedPolicy R (← settings.csrf) "RemoteVerifier(csrf=...)"
  let transportName ← validatedTransport httpx settings.transport
  let secrets ← validatedOptionalKeyring settings.secret settings.secrets
  let cookieName ← validatedCookieName R (← settings.cookieName)
  let securePrefix ← validatedPrefix R (← settings.securePrefix)
  let secureCookies ← validatedSecureCookies (← settings.secureCookies)
  let basePath ← validatedBasePath R (← settings.basePath)
  let concurrency ← validatedConcurrency (← settings.concurrency)
  let queueTimeout ← validatedQueueTimeout (← settings.queueTimeout)
  let maxBytes ← validatedCap (← settings.maxBytes)
  let refuseUnsignedBearer ← validatedRefuseUnsignedBearer (← settings.refuseUnsignedBearer)
  validatedClock settings.clock
  let negativeTtl ← validatedNegativeTtl (← settings.negativeTtl)
  let maxRemembered ← validatedMaxRemembered (← settings.maxRemembered)
  return {
    names := ⟨cookieName.1, securePrefix.1, secureCookies, cookieName.2, securePrefix.2⟩
    secrets, csrf, transportName, refuseUnsignedBearer
    uri := String.ofList (origin ++ basePath.1 ++ getSessionPath ++ getSessionQuery)
    negativeTtl := (binary64.round negativeTtl.1).value
    maxRemembered := maxRemembered.1.toNat
    concurrency := concurrency.1.toNat
    queueTimeout := binary64.round queueTimeout.1
    queueTimeoutShown := shown (binary64.round queueTimeout.1)
    maxBytes := maxBytes.1.toNat }

def tooLarge : NumberSetting → Bool
  | .int n => (binary64.ofInt n).isNone
  | _ => false

inductive Raises (settings : Settings) (exc : Exn) : Prop
  | baseUrl : settings.baseUrl = .error exc → Raises settings exc
  | csrf : settings.csrf = .error exc → Raises settings exc
  | check {policy : CsrfPolicy} {requiredHeader : Except Exn (Option Setting)} :
      settings.csrf = .ok (.policy policy (.error exc) requiredHeader) → Raises settings exc
  | requiredHeader {policy : CsrfPolicy} {callable : Except Exn Bool} :
      settings.csrf = .ok (.policy policy callable (.error exc)) → Raises settings exc
  | transport {transport : TransportObject} : settings.transport = some transport →
      transport.isTransport = .error exc ∨ transport.getCallable = .error exc ∨
        transport.postCallable = .error exc → Raises settings exc
  | secret : settings.secret = some (.error exc) → Raises settings exc
  | secrets : settings.secrets = some (.error exc) → Raises settings exc
  | entry {entries : List (Except Exn SecretSetting)} :
      settings.secrets = some (.ok (.sequence entries)) → .error exc ∈ entries →
      Raises settings exc
  | cookieName : settings.cookieName = .error exc → Raises settings exc
  | securePrefix : settings.securePrefix = .error exc → Raises settings exc
  | secureCookies : settings.secureCookies = .error exc → Raises settings exc
  | basePath : settings.basePath = .error exc → Raises settings exc
  | concurrency : settings.concurrency = .error exc → Raises settings exc
  | queueTimeout : settings.queueTimeout = .error exc → Raises settings exc
  | negativeTtl : settings.negativeTtl = .error exc → Raises settings exc
  | maxRemembered : settings.maxRemembered = .error exc → Raises settings exc
  | maxBytes : settings.maxBytes = .error exc → Raises settings exc
  | refuseUnsignedBearer : settings.refuseUnsignedBearer = .error exc → Raises settings exc

abbrev Refuses {α : Type} (x : Except Exn α) : Prop := Fails (fun exc => exc.isConfiguration = true) x

variable {R} {U : UrlLibrary} {httpx : Bool} {shown : Number → String} {settings : Settings}

theorem refuses (message : String) {α : Type} :
    Refuses (throw (configurationError message) : Except Exn α) := .error rfl

end BetterAuthBridge.RemoteConfig
