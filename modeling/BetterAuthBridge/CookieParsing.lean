import BetterAuthBridge.Csrf
import BetterAuthBridge.Library.Base64
import BetterAuthBridge.Models
import Mathlib.Data.List.Perm.Basic

namespace BetterAuthBridge.CookieParsing

open Library.Text Values Errors Models Csrf

variable (R : Runtime)

abbrev Pair := Text × Text

def signatureLength : Nat := 44

def hmacBytes : Nat := 32

def maxCookieBytes : Nat := 8192

def maxChunks : Nat := 100

def maxCookieHeaderBytes : Nat := 16384

def maxCookiePairs : Nat := 512

def cookiePair (fragment : Text) : Option Pair :=
  (cut '=' (strip fragment)).map fun r => (strip r.1, strip r.2)

def cookiePairs (header : Text) : List Pair := (header.splitOn ';').filterMap cookiePair

def decimal (n : Nat) : Text := Nat.toDigits 10 n

def chunkName (base : Text) (index : Nat) : Text := base ++ '.' :: decimal index

def acceptableNames (base : Text) : List Text :=
  base :: (List.range maxChunks).map (chunkName base)

/-- `int(text)` of a run of ASCII digits. -/
def number (digits : Text) : Nat := Nat.ofDigitChars 10 digits 0

def chunkSuffix (name base : Text) : Text := name.drop (base.length + 1)

def isChunk (name base : Text) : Bool :=
  (base ++ ['.']).isPrefixOf name &&
    let suffix := chunkSuffix name base
    suffix ≠ [] && suffix.all Char.isDigit && number suffix < maxChunks

def reassembled (chunks : List (Nat × Text)) (base : Text) : Except Exn Text :=
  let ordered := chunks.insertionSort byNumber
  let indices := ordered.map Prod.fst
  if indices ≠ List.range indices.length then
    throw (invalidCredential (s!"the {R.repr base} cookie chunks are not a contiguous run from 0;"
      ++ " a gap, a repeat or a missing first chunk is refused"))
  else
    let value := (ordered.map Prod.snd).flatten
    if maxCookieBytes < value.length then
      throw (invalidCredential
        s!"the reassembled {R.repr base} cookie is {value.length} bytes, over the cap")
    else pure value

def wholeValues (pairs : List Pair) (base : Text) : List Text :=
  (pairs.filter fun p => p.1 = base).map Prod.snd

def chunkValues (pairs : List Pair) (base : Text) : List (Nat × Text) :=
  (pairs.filter fun p => isChunk p.1 base).map fun p => (number (chunkSuffix p.1 base), p.2)

def valueForBase (pairs : List Pair) (base : Text) : Except Exn (Option Text) :=
  match wholeValues pairs base, chunkValues pairs base with
  | [], [] => pure none
  | _ :: _, _ :: _ => throw (invalidCredential
      s!"the {R.repr base} cookie arrived both whole and chunked; a server sends one or the other")
  | value :: rest, [] =>
    if rest ≠ [] then throw (invalidCredential
      s!"the {R.repr base} cookie name appears more than once on one request")
    else pure (some value)
  | [], chunks => some <$> reassembled R chunks base

def resolveNamedCookie (pairs : List Pair) (base : Text) : Except Exn (Text × Text) := do
  match ← valueForBase R pairs base with
  | some value => pure (base, value)
  | none => throw (invalidCredential "no session cookie material after resolution")

def resolveCookieValue (pairs : List Pair) (base : Text) : Except Exn Text :=
  Prod.snd <$> resolveNamedCookie R pairs base

def hexDigit (c : Char) : Option Nat :=
  if '0' ≤ c ∧ c ≤ '9' then some (c.toNat - 48)
  else if 'a' ≤ c ∧ c ≤ 'f' then some (c.toNat - 87)
  else if 'A' ≤ c ∧ c ≤ 'F' then some (c.toNat - 55)
  else none

/-- `urllib.parse.unquote_to_bytes` of ASCII text. -/
def unquoteToBytes : Text → Bytes
  | '%' :: a :: b :: rest =>
    match hexDigit a, hexDigit b with
    | some high, some low => UInt8.ofNat (16 * high + low) :: unquoteToBytes rest
    | _, _ => 0x25 :: unquoteToBytes (a :: b :: rest)
  | c :: rest => UInt8.ofNat c.toNat :: unquoteToBytes rest
  | [] => []

def unquotedPart (part : Text) : Option Text :=
  if part.all isAscii then decodeUtf8 (unquoteToBytes part) else some part

/-- `urllib.parse.unquote(material, errors="strict")`: ASCII runs are decoded each by itself. -/
def unquotedStrictly (material : Text) : Option Text :=
  if '%' ∈ material then
    ((material.splitBy fun a b => isAscii a == isAscii b).mapM unquotedPart).map List.flatten
  else some material

structure ParsedCookie where
  token : Text
  signature : Text

def standardBase64 (signature : Text) : Option Bytes := Library.Base64.decode signature

def parseSignedValue (material : Text) : Except Exn ParsedCookie :=
  let marker := fingerprint R material
  if maxCookieBytes < material.length then
    throw (invalidCredential s!"cookie value is {material.length} bytes, over the cap [{marker}]")
  else
    match unquotedStrictly material with
    | none =>
      throw (invalidCredential s!"cookie value is not valid percent-encoded UTF-8 [{marker}]")
    | some decoded =>
      match rcut '.' decoded with
      | none => throw (invalidCredential s!"cookie value carries no signature separator [{marker}]")
      | some (token, signature) =>
        if token = [] then
          throw (invalidCredential s!"cookie value has an empty token [{marker}]")
        else if signature.length ≠ signatureLength then
          throw (invalidCredential
            s!"signature is {signature.length} characters, not {signatureLength} [{marker}]")
        else
          match standardBase64 signature with
          | none => throw (invalidCredential s!"signature is not standard base64 [{marker}]")
          | some digest =>
            if digest.length ≠ hmacBytes then throw (invalidCredential
              s!"signature does not decode to {hmacBytes} bytes [{marker}]")
            else pure ⟨token, signature⟩

def illegalInACookieName (c : Char) : Bool := c ∈ " \t\r\n;=,".toList

/-- The one cookie a verifier was configured to read. -/
structure CookieNames where
  cookieName : Text
  securePrefix : Text
  secureCookies : Bool
  named : blank cookieName = false ∧ cookieName.any illegalInACookieName = false
  prefixed : securePrefix.any illegalInACookieName = false

def CookieNames.base (names : CookieNames) : Text :=
  if names.secureCookies then names.securePrefix ++ names.cookieName else names.cookieName

def defaultCookieName : Text := "better-auth.session_token".toList

def defaultSecurePrefix : Text := "__Secure-".toList

def joinedCookieHeader (connection : Connection) : Text :=
  "; ".toList.intercalate (connection.getlist "cookie")

def matchedPairs (base : Text) (pairs : List Pair) : List Pair :=
  pairs.filter fun p => p.1 ∈ acceptableNames base && !blank p.2

def presented (base header : Text) : Option (List Pair) :=
  if maxCookieHeaderBytes < header.length then none
  else
    let pairs := cookiePairs header
    if maxCookiePairs < pairs.length then none
    else
      let matched := matchedPairs base pairs
      if matched = [] then none else some matched

/-- What `extract` hands `verify`: the matched pairs and the facts a CSRF policy decides on. -/
structure Snapshot where
  pairs : List Pair
  facts : CsrfFacts

/-- What dispatch hands a `verify`: a `CookieCredential`, a `RemoteCredential`, or anything else. -/
inductive Credential
  | cookie (snapshot : Snapshot)
  | remote (snapshot : Snapshot)
  | foreign

def snapshotOf (names : CookieNames) (csrf : CsrfPolicy) (connection : Connection) :
    Option Snapshot :=
  (presented names.base (joinedCookieHeader connection)).map fun pairs =>
    ⟨pairs, CsrfFacts.fromConnection connection csrf⟩

end BetterAuthBridge.CookieParsing
