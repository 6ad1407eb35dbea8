import BetterAuthBridge.CsrfAcceptance
import BetterAuthBridge.RemoteSoundness

namespace BetterAuthBridge.MacDomains

open Library Values Errors Models CookieParsing Signing CsrfPolicies CsrfAcceptance

variable {R : Runtime} {secret : SharedSecret} {csrfSession cookieSession : Text} {marker : String}

def csrfMessage (sessionToken : Text) : Bytes :=
  encodeUtf8 csrfDomainLabel ++ encodeUtf8 sessionToken

def cookieMessage (sessionToken : Text) : Bytes := encodeUtf8 sessionToken

def mac (R : Runtime) (secret : SharedSecret) (message : Bytes) : Bytes :=
  (R.hmacSha256 (encodeUtf8 secret.value) message).val

def asSignature (csrfToken : Text) : Option Text := (fromHex csrfToken).map Base64.encode

def asCsrfToken (signature : Text) : Option Text :=
  (standardBase64 signature).map fun digest => digest.flatMap hexByte

theorem digest_eq (sessionToken : Text) :
    digest R secret sessionToken = (mac R secret (csrfMessage sessionToken)).flatMap hexByte := rfl

theorem expected_eq (sessionToken : Text) :
    expected R secret sessionToken = Base64.encode (mac R secret (cookieMessage sessionToken)) := rfl

theorem asSignature_digest (sessionToken : Text) :
    asSignature (digest R secret sessionToken) =
      some (Base64.encode (mac R secret (csrfMessage sessionToken))) := by
  rw [asSignature, digest_eq, fromHex_hex, Option.map_some]

theorem asCsrfToken_expected (sessionToken : Text) :
    asCsrfToken (expected R secret sessionToken) =
      some ((mac R secret (cookieMessage sessionToken)).flatMap hexByte) := by
  rw [asCsrfToken, standardBase64, expected_eq, Base64.decode_encode, Option.map_some]

theorem encode_injective : Function.Injective Base64.encode := by
  intro a b h
  have hd := congrArg Base64.decode h
  simpa only [Base64.decode_encode, Option.some.injEq] using hd

/-- A CSRF token is a cookie signature exactly when the two MACs are one. -/
theorem verifies_iff :
    (∃ signature, asSignature (digest R secret csrfSession) = some signature ∧
        verifySignature R [secret] cookieSession signature marker = .ok ()) ↔
      mac R secret (csrfMessage csrfSession) = mac R secret (cookieMessage cookieSession) := by
  simp only [asSignature_digest, Option.some.injEq, exists_eq_left', verifySignature_ok,
    List.mem_singleton, exists_eq_left, expected_eq, encode_injective.eq_iff]

theorem forges_iff {name : Text} :
    (∃ presented, asCsrfToken (expected R secret cookieSession) = some presented ∧
        rejectForgedToken R secret csrfSession presented name = .ok ()) ↔
      mac R secret (csrfMessage csrfSession) = mac R secret (cookieMessage cookieSession) := by
  simp only [asCsrfToken_expected, Option.some.injEq, exists_eq_left', rejectForgedToken_ok,
    digest_eq]
  exact ⟨fun h => (hex_injective h).symm, fun h => by rw [h]⟩

theorem csrfMessage_eq (sessionToken : Text) :
    csrfMessage sessionToken = cookieMessage (csrfDomainLabel ++ sessionToken) := by
  rw [csrfMessage, cookieMessage, encodeUtf8, encodeUtf8, encodeUtf8, List.flatMap_append]

theorem messages_eq_iff : csrfMessage csrfSession = cookieMessage cookieSession ↔
    cookieSession = csrfDomainLabel ++ csrfSession := by
  rw [csrfMessage_eq, cookieMessage, cookieMessage, encodeUtf8_injective.eq_iff, eq_comm]

/-- The HMAC does not confuse two messages. -/
def TellsApart (R : Runtime) (secret : SharedSecret) (m m' : Bytes) : Prop :=
  mac R secret m = mac R secret m' → m = m'

/-- The MACs of two sessions are about different messages, and, where the HMAC tells these apart,
neither passes for the other. -/
structure Separated (R : Runtime) (secret : SharedSecret) (csrfSession cookieSession : Text) :
    Prop where
  messages : csrfMessage csrfSession ≠ cookieMessage cookieSession
  signature : TellsApart R secret (csrfMessage csrfSession) (cookieMessage cookieSession) →
    ∀ signature marker, asSignature (digest R secret csrfSession) = some signature →
      verifySignature R [secret] cookieSession signature marker ≠ .ok ()
  csrfToken : TellsApart R secret (csrfMessage csrfSession) (cookieMessage cookieSession) →
    ∀ presented name, asCsrfToken (expected R secret cookieSession) = some presented →
      rejectForgedToken R secret csrfSession presented name ≠ .ok ()

/-- The label separates the two MACs except where it begins the token of the cookie. -/
theorem separated_iff (R : Runtime) (secret : SharedSecret) (csrfSession cookieSession : Text) :
    Separated R secret csrfSession cookieSession ↔
      cookieSession ≠ csrfDomainLabel ++ csrfSession := by
  rw [ne_eq, ← messages_eq_iff]
  constructor
  · exact fun h => h.messages
  · intro h
    refine ⟨h, fun ht signature marker hs hv => ?_, fun ht presented name hp hv => ?_⟩
    · exact h (ht (verifies_iff.mp ⟨signature, hs, hv⟩))
    · exact h (ht (forges_iff.mp ⟨presented, hp, hv⟩))

theorem labelled_token_confused : ¬ ∀ (R : Runtime) (secret : SharedSecret)
    (csrfSession cookieSession : Text), csrfSession ≠ [] → cookieSession ≠ [] →
      Separated R secret csrfSession cookieSession := by
  intro h
  have hs := h RemoteSoundness.sampleRuntime RemoteSoundness.sampleSecret
    "a".toList "fba-csrf-v1:a".toList (by decide) (by decide)
  exact hs.messages (by decide)

end BetterAuthBridge.MacDomains
