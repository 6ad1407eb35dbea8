import BetterAuthBridge.Legibility
import BetterAuthBridge.ModesAgree

namespace BetterAuthBridge.CookieLegibility

open Library.Procedure Library.Failure Library.Spelling Values Errors SessionDocument Models Csrf
open CsrfPolicies CookieParsing CookieResolution Signing CookieVerifier Legibility
open RemoteSoundness (sampleNames sampleSecret sampleSecret_keys sampleRuntime sampleSnapshot
  sampleUser)
open RemoteOutcomes (sampleDisabled)

variable {υ : Type} {A : Alphabet} {R : Runtime} {v : Verifier} {marker : String}
  {userModel : UserModel υ} {now : Readings} {calls : List StoreCall}

abbrev Answering {α : Type} (A : Alphabet) (x : Except Exn α) : Prop :=
  Fails (fun exc => exc.isLibrary = true → Legible A exc) x

/-- What an operator's settings and the store put into a refusal is written in the alphabet. -/
structure Configured (A : Alphabet) (R : Runtime) (v : Verifier) : Prop where
  cookie : A.Spells (R.repr v.names.base)
  csrf : Shipped R v.csrf
  header : ∀ header, v.csrf.requiredHeader = some header → A.Spells (R.repr header.toList)
  session : ∀ token, Answering A (v.store.fetchSessionByToken token)
  user : ∀ userId, Answering A (v.store.fetchUserById userId)

theorem answered_legible {α : Type} {x : Except Exn α} (hm : A.Spells marker)
    (h : Answering A x) : Legibly A (answered marker x) := by
  cases x with
  | ok found => exact .ok found
  | error exc =>
    by_cases hl : exc.isLibrary = true
    · simp only [answered, if_pos hl]
      exact .error (h exc rfl hl)
    · simp only [answered, if_neg hl]
      exact .error (authServiceUnavailable_legible (.framed (by decide) hm (by decide)))

theorem lookedUp_legible (hv : Configured A R v) (hm : A.Spells marker) (token : Text) :
    Legibly A (exec (v.lookedUp token marker) calls).1 :=
  .exec_bind (.ok _) fun _ _ _ => answered_legible hm (hv.session token)

theorem lookedUpUser_legible (hv : Configured A R v) (hm : A.Spells marker) (userId : Text) :
    Legibly A (exec (v.lookedUpUser userId marker) calls).1 :=
  .exec_bind (.ok _) fun _ _ _ => answered_legible hm (hv.user userId)

theorem storedUser_legible (hv : Configured A R v) (hm : A.Spells marker)
    (record : StoredSession) : Legibly A (exec (v.storedUser record marker) calls).1 := by
  unfold Verifier.storedUser
  cases record.user with
  | some stored => exact .ok _
  | none =>
    refine .exec_bind (lookedUpUser_legible hv hm record.userId) fun found _ _ => ?_
    cases found with
    | some stored => exact .ok _
    | none => exact .error (sessionRevoked_legible (.framed (by decide) hm (by decide)))

theorem resolved_legible (hv : Configured A R v) (hu : Reporting A userModel)
    (hm : A.Spells marker) (token : Text) :
    Legibly A (exec (v.resolved token marker userModel now) calls).1 := by
  refine .exec_bind (lookedUp_legible hv hm token) fun found _ _ => ?_
  cases found with
  | none => exact .error (sessionRevoked_legible (.framed (by decide) hm (by decide)))
  | some record =>
    refine .exec_bind (expiryChecked_legible (.literal (by decide)) hm) fun _ _ _ => ?_
    refine .exec_bind (storedUser_legible hv hm record) fun stored _ _ => ?_
    refine .exec_bind (banChecked_legible hm) fun _ _ _ => ?_
    exact sessionBuilt_legible hu token

section Redis

open RedisStore

theorem redis_answering {store : RedisSessionStore} (h : ∀ key, Answering A (store.client key))
    (token : Text) : Answering A (store.fetchSessionByToken R token) := by
  have hdocument : ∀ value, Answering A (store.document R value) := by
    intro value
    refine .bind ?_ fun size _ => ?_
    · unfold measured
      cases value with
      | str s =>
        dsimp only
        cases encodable s with
        | some t => exact .ok _
        | none =>
          refine .error fun hl => ?_
          cases hl
      | _ => exact .ok _
    · cases size with
      | none => exact .ok _
      | some size =>
        refine .ite (.ok _) ?_
        split <;> exact .ok _
  unfold RedisSessionStore.fetchSessionByToken
  refine .ite (.ok _) ((h _).bind fun value _ => ?_)
  cases value with
  | none => exact .ok _
  | _ =>
    refine (hdocument _).bind fun document _ => ?_
    cases document with
    | none => exact .ok _
    | some document => exact .ok _

end Redis

/-- Whatever a client presents and whatever a store holds, each refusal of `verify` can be written
to a log in an alphabet of printable ASCII and the operator's own letters. -/
theorem cookie_legible (A : Alphabet) (R : Runtime) (v : Verifier) (hv : Configured A R v)
    (hu : Reporting A userModel) (credential : Credential) (now : Readings)
    (calls : List StoreCall) :
    Legibly A (exec (v.verify R credential userModel now) calls).1 := by
  cases credential with
  | cookie snapshot =>
    have hresolved : Legibly A (resolveCookieValue R snapshot.pairs v.names.base) :=
      (resolveNamedCookie_legible hv.cookie snapshot.pairs).map Prod.snd
    refine .exec_bind hresolved fun material _ _ => ?_
    refine .exec_bind (parseSignedValue_legible material) fun parsed _ _ => ?_
    have hm := fingerprint_spelled (A := A) R parsed.token
    refine .exec_bind (enforcePolicy_legible hv.csrf hv.header _ _) fun _ _ _ => ?_
    refine .exec_bind (verifySignature_legible hm) fun _ _ _ => ?_
    exact resolved_legible hv hu hm parsed.token
  | _ => exact .error (invalidCredential_legible (.literal (by decide)))

section Sample

def silentStore : RedisStore.RedisSessionStore := ⟨[], 1048576, fun _ => .error (.timeout "T\n")⟩

def silentVerifier : Verifier :=
  ⟨sampleNames, [sampleSecret], sampleSecret_keys, sampleDisabled.toPolicy,
    ModesAgree.sessionStore sampleRuntime silentStore⟩

theorem silent_configured : Configured ascii sampleRuntime silentVerifier where
  cookie := .framed (by decide) (.literal (by decide)) (by decide)
  csrf := .csrfDisabled sampleDisabled
  header _ h := by cases h
  session token := by
    refine redis_answering (fun key => .error fun hl => ?_) token
    cases hl
  user userId := .ok _

theorem sampleUser_reporting : Reporting ascii sampleUser :=
  .of_valid (.literal (by decide)) fun payload => ⟨payload, rfl⟩

end Sample

/-- What the client of the store raised is not what the log says. -/
theorem cookie_legible_silent : ∃ exc,
    (exec (silentVerifier.verify sampleRuntime (.cookie sampleSnapshot) sampleUser ⟨0, 0⟩) []).1 =
      .error exc ∧
    said exc = "session store lookup could not complete [tok_fp=80b3ad2d]" ∧
    Legible ascii exc := by
  have hsaid : (match (exec (silentVerifier.verify sampleRuntime (.cookie sampleSnapshot) sampleUser
      ⟨0, 0⟩) []).1 with
    | .error exc => said exc == "session store lookup could not complete [tok_fp=80b3ad2d]"
    | .ok _ => false) = true := by
    decide +kernel
  have hl := cookie_legible ascii sampleRuntime silentVerifier silent_configured
    sampleUser_reporting (.cookie sampleSnapshot) ⟨0, 0⟩ []
  cases hx : (exec (silentVerifier.verify sampleRuntime (.cookie sampleSnapshot) sampleUser
      ⟨0, 0⟩) []).1 with
  | error exc =>
    rw [hx] at hsaid
    exact ⟨exc, rfl, eq_of_beq hsaid, hl exc hx⟩
  | ok found =>
    rw [hx] at hsaid
    cases hsaid

end BetterAuthBridge.CookieLegibility
