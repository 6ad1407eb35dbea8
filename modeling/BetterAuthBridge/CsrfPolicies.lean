import BetterAuthBridge.Csrf
import BetterAuthBridge.Signing
import BetterAuthBridge.Urls

namespace BetterAuthBridge.CsrfPolicies

open Values Errors Models Csrf Signing Urls

def crossSite : Text := "cross-site".toList

def csrfDomainLabel : Text := "fba-csrf-v1:".toList

def safeMethods : List Text := ["GET".toList, "HEAD".toList, "OPTIONS".toList]

/-- What a browser sets by itself, or sends across sites without a preflight. -/
def browserHeaders : List Text :=
  ["accept", "accept-encoding", "accept-language", "connection", "content-language",
    "content-length", "content-type", "cookie", "host", "origin", "range", "referer",
    "sec-fetch-dest", "sec-fetch-mode", "sec-fetch-site", "sec-fetch-user", "upgrade",
    "user-agent"].map String.toList

def headerChar (c : Char) : Bool := isAscii c && (c.isAlphanum || "!#$%&'*+.^_`|~-".toList.contains c)

def originChar (c : Char) : Bool := isAscii c && (c.isAlphanum || "_.:/[]+-".toList.contains c)

def safeOrigin (value : Text) : String := sanitized originChar 128 (ofText value)

def csrfFailure (reason : String) : Exn := .session .csrfFailure "CsrfFailure" reason []

/-- Every WebSocket handshake has to pass a policy, and every method that is not a safe one. -/
def requiresCheck (facts : CsrfFacts) : Bool :=
  facts.websocket ||
    match facts.method with
    | some method => upper method.toList ∉ safeMethods
    | none => true

variable (R : Runtime) (U : UrlLibrary)

/-- The message is the label before the token. -/
def digest (secret : SharedSecret) (sessionToken : Text) : Text :=
  (R.hmacSha256 (encodeUtf8 secret.value)
    (encodeUtf8 csrfDomainLabel ++ encodeUtf8 sessionToken)).val.flatMap hexByte

def encoded (origins : List Text) : List Bytes := origins.map encodeUtf8

def noOrigin : Exn :=
  csrfFailure ("no Origin header on an unsafe request. Browsers send one on every unsafe"
    ++ " method and on every WebSocket handshake; a client that does not is refused"
    ++ " rather than exempted")

def rejectBadOrigin (facts : CsrfFacts) (allowed : List Bytes) : Except Exn Unit :=
  if facts.secFetchSite.any fun site => casefold (strip site) = crossSite then
    throw (csrfFailure ("Sec-Fetch-Site is cross-site: the browser reported that this unsafe"
      ++ " request was initiated from another site"))
  else
    match facts.origin with
    | none => throw noOrigin
    | some origin =>
      if blank origin then throw noOrigin
      else if 1 < facts.originCount then throw (csrfFailure
        "more than one Origin header on an unsafe request; a browser sends exactly one")
      else if allowed.foldl (fun matched c => matched || encodeUtf8 origin == c) false then pure ()
      else throw (csrfFailure s!"Origin {safeOrigin origin} is not in allowed_origins")

def presentedHeader (facts : CsrfFacts) (name : Text) : Except Exn Text :=
  if facts.headerName ≠ some (String.ofList name) then
    let captured := facts.headerName.elim redacted fun header => safeLabel (ofString header)
    throw (csrfFailure (s!"these request facts were captured for header {captured}, not the"
      ++ s!" {R.repr name} this policy requires, so its header was never read"))
  else
    match facts.headerValue with
    | some value =>
      if blank value then
        throw (csrfFailure s!"the required {R.repr name} header is absent or blank")
      else pure value
    | none => throw (csrfFailure s!"the required {R.repr name} header is absent or blank")

def rejectForgedToken (secret : SharedSecret) (sessionToken presented name : Text) :
    Except Exn Unit :=
  if encodeUtf8 (digest R secret sessionToken) = encodeUtf8 presented then pure ()
  else throw (csrfFailure (s!"the {R.repr name} header does not carry the CSRF token bound to"
    ++ s!" session {fingerprint R sessionToken}"))

/-- What is passed for `allowed_origins`: a sequence, or anything else, a string among it. -/
inductive Origins
  | sequence (entries : List Setting)
  | other (typeName : String)

def collected (place : String) (index : Nat) (normalized : List Text) :
    List Setting → Except Exn (List Text)
  | [] => pure normalized
  | entry :: entries => do
    let origin ← normalizeBaseUrl R U entry s!"{place}[{index}]"
    if origin ∈ normalized then
      throw (configurationError (s!"{place} lists {R.repr origin} twice: entry {index}"
        ++ " canonicalizes onto an earlier one. Two spellings of one origin are one origin; keep a"
        ++ " single entry."))
    collected place (index + 1) (normalized ++ [origin]) entries

def validatedOrigins (value : Origins) (place : String) : Except Exn (List Text) :=
  match value with
  | .other typeName => throw (configurationError (s!"{place} takes a sequence of origins, such as"
      ++ s!" ['https://app.example.com']; got {typeName}. A bare string would be iterated one"
      ++ " character at a time, and the application would start looking configured."))
  | .sequence [] => throw (configurationError (s!"{place} is empty. An allowlist with no origins"
      ++ " refuses every unsafe request, which is an outage wearing a security control's clothes."
      ++ " Name the origins your front end is served from."))
  | .sequence entries => collected R U place 0 [] entries

def unusableHeader (value : Setting) (place : String) : Exn :=
  configurationError (s!"{place} must be one HTTP header name - letters, digits and token"
    ++ " punctuation, with no spaces, colons or control characters; got"
    ++ s!" {value.rendered R}.")

def validatedHeader (value : Setting) (place : String) : Except Exn Text :=
  match value with
  | .other .. => throw (unusableHeader R value place)
  | .text given =>
    if fullmatch headerChar 64 (strip given) = false then throw (unusableHeader R value place)
    else
      let name := lower (strip given)
      if name ∈ browserHeaders then throw (configurationError
        (s!"{place}={R.repr name} is a header the browser sets itself, or one a cross-site form"
          ++ " POST may carry without a CORS preflight, so requiring it enforces nothing. Name"
          ++ " a header only your own front end sends, such as 'x-csrf-token'."))
      else pure name

def optionalHeader (value : Option Setting) (place : String) : Except Exn (Option Text) :=
  match value with
  | none => pure none
  | some value => some <$> validatedHeader R value place

inductive SecretSetting
  | shared (secret : SharedSecret)
  | other (typeName : String)

def validatedSecret (value : SecretSetting) (place : String) : Except Exn SharedSecret :=
  match value with
  | .shared secret => pure secret
  | .other typeName => throw (configurationError (s!"{place} must be a SharedSecret, not a"
      ++ s!" {typeName}. SharedSecret is what refuses a weak or placeholder value at boot and"
      ++ " keeps it out of every rendering; a bare string skips all of it. Write"
      ++ " SharedSecret(os.environ['BETTER_AUTH_SECRET'])."))

def answerOf : Except Exn Unit → PolicyAnswer
  | .ok _ => .none
  | .error exc => .raised exc

structure OriginCheck where
  allowed : List Text
  header : Option Text

namespace OriginCheck

def init (allowedOrigins : Origins) (requireHeader : Option Setting) : Except Exn OriginCheck := do
  let allowed ← validatedOrigins R U allowedOrigins "OriginCheck(allowed_origins=...)"
  let header ← optionalHeader R requireHeader "OriginCheck(require_header=...)"
  return ⟨allowed, header⟩

variable (policy : OriginCheck)

def check (facts : CsrfFacts) : Except Exn Unit := do
  if requiresCheck facts then
    rejectBadOrigin facts (encoded policy.allowed)
    match policy.header with
    | some name => discard (presentedHeader R facts name)
    | none => pure ()

def toPolicy : CsrfPolicy where
  name := "OriginCheck"
  requiredHeader := policy.header.map String.ofList
  check facts _ := answerOf (policy.check R facts)

end OriginCheck

structure SignedDoubleSubmit where
  secret : SharedSecret
  allowed : List Text
  header : Text

namespace SignedDoubleSubmit

def init (secret : SecretSetting) (allowedOrigins : Origins) (header : Setting) :
    Except Exn SignedDoubleSubmit := do
  let secret ← validatedSecret secret "SignedDoubleSubmit(secret=...)"
  let allowed ← validatedOrigins R U allowedOrigins "SignedDoubleSubmit(allowed_origins=...)"
  let header ← validatedHeader R header "SignedDoubleSubmit(header=...)"
  return ⟨secret, allowed, header⟩

variable (policy : SignedDoubleSubmit)

def tokenFor (sessionToken : Text) : Text := digest R policy.secret sessionToken

def check (facts : CsrfFacts) (sessionToken : Text) : Except Exn Unit := do
  if requiresCheck facts then
    rejectBadOrigin facts (encoded policy.allowed)
    let presented ← presentedHeader R facts policy.header
    rejectForgedToken R policy.secret sessionToken presented policy.header

def toPolicy : CsrfPolicy where
  name := "SignedDoubleSubmit"
  requiredHeader := some (String.ofList policy.header)
  check facts sessionToken := answerOf (policy.check R facts sessionToken)

end SignedDoubleSubmit

def minDisabledReason : Nat := 16

/-- Protection is only turned off with a reason long enough to be one. -/
structure CsrfDisabled where
  reason : Text
  explained : minDisabledReason ≤ (strip reason).length

namespace CsrfDisabled

def unexplained (value : Setting) : Exn :=
  configurationError (s!"CsrfDisabled(reason=...) needs a reason of at least {minDisabledReason}"
    ++ " characters saying why this deployment does not need the check - something the next reader"
    ++ s!" can evaluate; got {value.rendered R}. Turning CSRF protection off is meant to cost a"
    ++ " sentence.")

def init (value : Setting) : Except Exn CsrfDisabled :=
  match value with
  | .text given =>
    if h : minDisabledReason ≤ (strip given).length then pure ⟨given, h⟩
    else throw (unexplained R value)
  | .other .. => throw (unexplained R value)

def toPolicy (_ : CsrfDisabled) : CsrfPolicy where
  name := "CsrfDisabled"
  requiredHeader := none
  check _ _ := .none

end CsrfDisabled

inductive Shipped (R : Runtime) : CsrfPolicy → Prop
  | originCheck (policy : OriginCheck) : Shipped R (policy.toPolicy R)
  | signedDoubleSubmit (policy : SignedDoubleSubmit) : Shipped R (policy.toPolicy R)
  | csrfDisabled (policy : CsrfDisabled) : Shipped R policy.toPolicy

end BetterAuthBridge.CsrfPolicies
