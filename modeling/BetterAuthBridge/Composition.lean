import BetterAuthBridge.CookieVerifier
import BetterAuthBridge.Labels
import BetterAuthBridge.RemoteVerifier
import BetterAuthBridge.Urls

namespace BetterAuthBridge.Composition

open Library Library.Text Values Errors CookieParsing CookieResolution Labels Urls

/-- What an object shows of itself to the check made at construction. -/
structure Declared where
  typeName : String
  implements : Bool
  extractCallable : Bool
  verifyCallable : Bool
  credentialSource : Setting
  asyncExtract : Bool

/-- What may stand in a list of verifiers: a shipped verifier that reads a cookie, or any other
object. -/
inductive Candidate
  | cookie (v : CookieVerifier.Verifier)
  | remote (v : RemoteVerifier.Verifier)
  | other (declared : Declared)

namespace Candidate

def declared : Candidate → Declared
  | cookie v => ⟨"CookieVerifier", true, true, true, .text (cookieSource v.names.base), false⟩
  | remote v => ⟨"RemoteVerifier", true, true, true, .text (cookieSource v.names.base), false⟩
  | other declared => declared

def reads : Candidate → Option CookieNames
  | cookie v => some v.names
  | remote v => some v.names
  | other _ => none

end Candidate

/-- An entry of the list, and which object it is. -/
structure Entry where
  identity : Nat
  candidate : Candidate

structure Checked where
  entry : Entry
  source : Text

def Checked.typeName (c : Checked) : String := c.entry.candidate.declared.typeName

inductive Verifiers
  | sequence (entries : List Entry)
  | other (typeName : String)

variable (F : CaseFolding) (R : Runtime)

def validateSource (source : Setting) (place : String) : Except Exn Text :=
  let unusable := configurationError (s!"{place} must declare a non-empty string credential_source"
    ++ " naming where its credential comes from, such as 'cookie:better-auth.session_token'. It is"
    ++ " how two verifiers reading one credential are caught here rather than by every request"
    ++ s!" being ambiguous; got {source.rendered R}.")
  match source with
  | .other .. => throw unusable
  | .text source => if blank source then throw unusable else pure source

def refuse (wrong : Bool) (message : String) : Except Exn Unit :=
  if wrong then throw (configurationError message) else pure ()

def validateVerifier (declared : Declared) (index : Nat) : Except Exn Text := do
  let place := s!"BetterAuth(verifiers=...)[{index}]"
  refuse (!declared.implements)
    (s!"{place} is a {declared.typeName}, which does not implement the Verifier protocol: it needs a"
      ++ " synchronous extract(connection) and an async verify(credential, user_model).")
  refuse (!declared.extractCallable) s!"{place} has a extract that is not callable."
  refuse (!declared.verifyCallable) s!"{place} has a verify that is not callable."
  let source ← validateSource R declared.credentialSource place
  refuse declared.asyncExtract
    (s!"{place} declares extract() as async. extract() is a synchronous presence check; an async one"
      ++ " returns a coroutine object, which is never None, so this verifier would claim every"
      ++ " request and every request would be ambiguous.")
  return source

def rejectCollision (verifier : Checked) (seen : List Checked) : Except Exn Unit :=
  match seen.find? fun s => collisionKey F s.source = collisionKey F verifier.source with
  | none => pure ()
  | some clash => throw (configurationError
      ("BetterAuth(verifiers=...) has two verifiers on one credential:"
        ++ s!" {clash.typeName} declares credential_source={R.repr clash.source} and"
        ++ s!" {verifier.typeName} declares credential_source={R.repr verifier.source}."
        ++ " Both would find it (a cookie and its __Secure- or __Host- form count as one), so"
        ++ " every request carrying it would be ambiguous."))

def checkedFrom (index : Nat) (seen : List Checked) : List Entry → Except Exn (List Checked)
  | [] => pure seen
  | entry :: entries => do
    let source ← validateVerifier R entry.candidate.declared index
    refuse (seen.any fun earlier => earlier.entry.identity == entry.identity)
      (s!"BetterAuth(verifiers=...) lists the same {entry.candidate.declared.typeName} twice."
        ++ " Both copies would find the same credential, so every request carrying it would be"
        ++ " ambiguous.")
    rejectCollision F R ⟨entry, source⟩ seen
    checkedFrom (index + 1) (seen ++ [⟨entry, source⟩]) entries

def validated (verifiers : Verifiers) : Except Exn (List Checked) :=
  match verifiers with
  | .other typeName => throw (configurationError
      ("BetterAuth(verifiers=...) takes a sequence of verifiers, in the order their"
        ++ s!" credentials should be looked for; got {typeName}."))
  | .sequence [] => throw (configurationError
      ("BetterAuth(verifiers=...) needs at least one verifier: with none configured,"
        ++ " every request would be answered as unauthenticated."))
  | .sequence entries => checkedFrom F R 0 [] entries

def bearerSchemeName : Text := "BetterAuthBearer".toList

def cookieSchemeName : Text := "BetterAuthCookie".toList

def schemeChar (c : Char) : Bool := isAscii c && (c.isAlphanum || c == '.' || c == '_' || c == '-')

def cookieScheme (cookie : Text) (sole : Bool) : Text :=
  if sole then cookieSchemeName
  else cookieSchemeName ++ '-' :: cookie.map fun c => if schemeChar c then c else '-'

def schemeFor (source : Text) (soleCookie : Bool) : Option Text :=
  if F.casefold (strip source) = bearerSource then some bearerSchemeName
  else (cookieNamed F source).map fun cookie => cookieScheme cookie soleCookie

def published (soleCookie : Bool) (names : List Text) : List Checked → Except Exn (List Text)
  | [] => pure names
  | verifier :: rest =>
    match schemeFor F verifier.source soleCookie with
    | none => published soleCookie names rest
    | some name =>
      if name ∈ names then throw (configurationError
        ("BetterAuth(verifiers=...) has two verifiers that would both be published as"
          ++ s!" {R.repr name}: {verifier.typeName} declares"
          ++ s!" credential_source={R.repr verifier.source}, and an earlier verifier's label"
          ++ " sanitizes onto the same OpenAPI name. One definition would silently replace the"
          ++ " other, so /docs would name a credential nothing reads."))
      else published soleCookie (names ++ [name]) rest

def schemesFor (verifiers : List Checked) : Except Exn (List Text) :=
  let cookies := verifiers.filter fun verifier => (cookieNamed F verifier.source).isSome
  published F R (cookies.length == 1) [] verifiers

/-- `BetterAuth(verifiers=...)`, as far as it may refuse. -/
def init (verifiers : Verifiers) : Except Exn (List Entry) := do
  let ordered ← validated F R verifiers
  discard (schemesFor F R ordered)
  return ordered.map Checked.entry

end BetterAuthBridge.Composition
