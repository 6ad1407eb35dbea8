import BetterAuthBridge.CookieResolution
import BetterAuthBridge.Library.Procedure
import BetterAuthBridge.Signing

namespace BetterAuthBridge.CookieVerifier

open Library.Procedure Values Errors SessionDocument Models Csrf CookieParsing CookieResolution
open Signing

variable {υ : Type}

structure SessionStore where
  fetchSessionByToken : Text → Except Exn (Option StoredSession)
  fetchUserById : Text → Except Exn (Option StoredUser)

inductive StoreCall
  | sessionByToken (token : Text)
  | userById (userId : Text)
  deriving DecidableEq

/-- A part of `verify`, with the calls made to the store written down. -/
abbrev Asking (α : Type) := Proc Exn (List StoreCall) α

structure Verifier where
  names : CookieNames
  secrets : List SharedSecret
  keyed : secrets ≠ []
  csrf : CsrfPolicy
  store : SessionStore

namespace Verifier

def extract (v : Verifier) (connection : Connection) : Option Credential :=
  (snapshotOf v.names v.csrf connection).map .cookie

end Verifier

def storeUnavailable (marker : String) : Exn :=
  authServiceUnavailable s!"session store lookup could not complete [{marker}]"

def checkExpiry : StoredSession → Readings → String → Except Exn Unit :=
  expiryChecked "the stored session"

def checkBan : StoredUser → Readings → String → Except Exn Unit := banChecked

def session : StoredSession → StoredUser → Text → UserModel υ → Except Exn (Session υ) :=
  sessionBuilt

/-- A lookup's own refusals pass; anything else it raises becomes the uniform one. -/
def answered {α : Type} (marker : String) : Except Exn α → Except Exn α
  | .ok found => .ok found
  | .error exc => .error (if exc.isLibrary then exc else storeUnavailable marker)

namespace Verifier

variable (R : Runtime) (v : Verifier)

def lookedUp (token : Text) (marker : String) : Asking (Option StoredSession) := do
  modify (· ++ [.sessionByToken token])
  check (answered marker (v.store.fetchSessionByToken token))

def lookedUpUser (userId : Text) (marker : String) : Asking (Option StoredUser) := do
  modify (· ++ [.userById userId])
  check (answered marker (v.store.fetchUserById userId))

def storedUser (record : StoredSession) (marker : String) : Asking StoredUser :=
  match record.user with
  | some stored => pure stored
  | none => do
    match ← v.lookedUpUser record.userId marker with
    | some stored => pure stored
    | none => throw (sessionRevoked s!"the session's user is absent [{marker}]")

def resolved (token : Text) (marker : String) (userModel : UserModel υ) (now : Readings) :
    Asking (Session υ) := do
  match ← v.lookedUp token marker with
  | none => throw (sessionRevoked s!"no stored session for this token [{marker}]")
  | some record =>
    check (checkExpiry record now marker)
    let stored ← v.storedUser record marker
    check (checkBan stored now marker)
    check (session record stored token userModel)

/-- Mode A: structure, CSRF, signature, store, expiry and ban, user. -/
def verify (credential : Credential) (userModel : UserModel υ) (now : Readings) :
    Asking (Session υ) :=
  match credential with
  | .cookie snapshot => do
    let material ← check (resolveCookieValue R snapshot.pairs v.names.base)
    let parsed ← check (parseSignedValue R material)
    let marker := fingerprint R parsed.token
    check (enforcePolicy v.csrf snapshot.facts parsed.token)
    check (verifySignature R v.secrets parsed.token parsed.signature marker)
    v.resolved parsed.token marker userModel now
  | _ => throw (invalidCredential "cookie credential snapshot is not this verifier's")

end Verifier

variable {R : Runtime} {v : Verifier} {token : Text} {marker : String} {userModel : UserModel υ}
  {now : Readings} {calls : List StoreCall} {found : Session υ}

def Owned (store : SessionStore) (record : StoredSession) (stored : StoredUser) : Prop :=
  record.user = some stored ∨
    (record.user = none ∧ store.fetchUserById record.userId = .ok (some stored))

theorem storedUser_ok {record : StoredSession} {stored : StoredUser} :
    (exec (v.storedUser record marker) calls).1 = .ok stored ↔ Owned v.store record stored := by
  cases hu : record.user with
  | some user => simp [Verifier.storedUser, Owned, hu]
  | none =>
    cases hf : v.store.fetchUserById record.userId with
    | ok answer =>
      cases answer <;>
        simp [Verifier.storedUser, Verifier.lookedUpUser, exec_bind, Owned, hu, hf, answered]
    | error exc =>
      simp [Verifier.storedUser, Verifier.lookedUpUser, exec_bind, Owned, hu, hf, answered]

def Vouched (store : SessionStore) (userModel : UserModel υ) (token : Text) (now : Readings)
    (found : Session υ) : Prop :=
  ∃ record stored parsed, store.fetchSessionByToken token = .ok (some record) ∧
    now.atExpiry < record.expiresAt.instant ∧ Owned store record stored ∧
    banned stored now.atBan = false ∧ userModel.modelValidate stored.payload = .valid parsed ∧
    found = ⟨parsed, some record.expiresAt, some token, record.impersonatedBy, record.payload⟩

theorem resolved_ok :
    (exec (v.resolved token marker userModel now) calls).1 = .ok found ↔
      Vouched v.store userModel token now found := by
  cases hf : v.store.fetchSessionByToken token with
  | error exc =>
    simp [Verifier.resolved, Verifier.lookedUp, exec_bind, hf, answered, Vouched]
  | ok answer =>
    cases answer with
    | none => simp [Verifier.resolved, Verifier.lookedUp, exec_bind, hf, answered, Vouched]
    | some record =>
      have hlook : exec (v.lookedUp token marker) calls =
          (.ok (some record), calls ++ [.sessionByToken token]) := by
        simp [Verifier.lookedUp, exec_bind, hf, answered]
      rw [Verifier.resolved, exec_bind, hlook]
      simp only [exec_bind_fst_ok, exec_check, storedUser_ok, checkExpiry, expiryChecked_ok,
        checkBan, banChecked_ok, session, sessionBuilt_ok]
      constructor
      · rintro ⟨-, he, stored, ho, -, hb, parsed, hp, hs⟩
        exact ⟨record, stored, parsed, hf, he, ho, hb, hp, hs⟩
      · rintro ⟨record', stored, parsed, hf', he, ho, hb, hp, hs⟩
        have hr : record = record' := by simpa [hf] using hf'
        subst hr
        exact ⟨(), he, stored, ho, (), hb, parsed, hp, hs⟩

/-- What one `verify` accepts: a value that a secret of the keyring signed, let through by the
policy, with a token the store vouches for. -/
theorem verify_ok {snapshot : Snapshot} :
    (exec (v.verify R (.cookie snapshot) userModel now) calls).1 = .ok found ↔
      ∃ material token, resolveCookieValue R snapshot.pairs v.names.base = .ok material ∧
        Signed R v.secrets material token ∧ v.csrf.check snapshot.facts token = .none ∧
        Vouched v.store userModel token now found := by
  simp only [Verifier.verify, exec_bind_fst_ok, exec_check, enforcePolicy_ok, resolved_ok]
  constructor
  · rintro ⟨material, hm, parsed, hp, _, hc, _, hv, hs⟩
    exact ⟨material, parsed.token, hm, (parsed_and_verified _).mp ⟨parsed, hp, rfl, hv⟩, hc, hs⟩
  · rintro ⟨material, token, hm, hsig, hc, hs⟩
    obtain ⟨parsed, hp, rfl, hv⟩ := (parsed_and_verified (fingerprint R token)).mpr hsig
    exact ⟨material, hm, parsed, hp, (), hc, (), hv, hs⟩

end BetterAuthBridge.CookieVerifier
