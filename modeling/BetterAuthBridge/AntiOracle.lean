import BetterAuthBridge.CookieVerifier
import BetterAuthBridge.RemoteSoundness

namespace BetterAuthBridge.AntiOracle

open Library.Text Library.Procedure Values Errors Models Csrf CookieParsing Signing RemoteVerifier
open CookieResolution RemoteSections RemoteSoundness

variable {ι υ : Type} [DecidableEq ι] {R : Runtime} {names : CookieNames} {csrf : CsrfPolicy}
  {secrets : List SharedSecret} {snapshot : Snapshot} {exc : Exn}

def Refused (R : Runtime) (names : CookieNames) (csrf : CsrfPolicy) (snapshot : Snapshot) : Prop :=
  ∀ token, tokenOf R names snapshot = some token → csrf.check snapshot.facts token ≠ .none

def Unsigned (R : Runtime) (names : CookieNames) (secrets : List SharedSecret)
    (snapshot : Snapshot) : Prop :=
  ∀ material token, resolveCookieValue R snapshot.pairs names.base = .ok material →
    ¬ Signed R secrets material token

def cookieScreened (R : Runtime) (names : CookieNames) (csrf : CsrfPolicy) (snapshot : Snapshot) :
    Except Exn ParsedCookie := do
  let material ← resolveCookieValue R snapshot.pairs names.base
  let parsed ← parseSignedValue R material
  enforcePolicy csrf snapshot.facts parsed.token
  return parsed

def remoteScreened (R : Runtime) (names : CookieNames) (csrf : CsrfPolicy) (snapshot : Snapshot) :
    Except Exn (Text × Text × Text) := do
  let (name, material) ← resolveNamedCookie R snapshot.pairs names.base
  let token ← rungOne R material
  enforcePolicy csrf snapshot.facts token
  return (name, material, token)

theorem exec_cookie_verify (v : CookieVerifier.Verifier) (userModel : UserModel υ) (now : Readings)
    (calls : List CookieVerifier.StoreCall) :
    exec (v.verify R (.cookie snapshot) userModel now) calls =
      match cookieScreened R v.names v.csrf snapshot >>= fun parsed => do
        verifySignature R v.secrets parsed.token parsed.signature (fingerprint R parsed.token)
        return parsed with
      | .error exc => (.error exc, calls)
      | .ok parsed =>
        exec (v.resolved parsed.token (fingerprint R parsed.token) userModel now) calls := by
  rw [CookieVerifier.Verifier.verify, exec_check_bind, cookieScreened]
  cases resolveCookieValue R snapshot.pairs v.names.base with
  | error exc => rfl
  | ok material =>
    dsimp only
    rw [exec_check_bind]
    cases hp : parseSignedValue R material with
    | error exc => simp [hp]
    | ok parsed =>
      dsimp only
      rw [exec_check_bind]
      cases hc : enforcePolicy v.csrf snapshot.facts parsed.token with
      | error exc => simp [hp, hc]
      | ok u =>
        dsimp only
        rw [exec_check_bind]
        cases hv : verifySignature R v.secrets parsed.token parsed.signature
          (fingerprint R parsed.token) <;> simp [hp, hc, hv]

theorem admitted_eq (v : Verifier) (userModel : UserModel υ) :
    v.admitted R (.remote snapshot) userModel =
      remoteScreened R v.names v.csrf snapshot >>= fun (name, material, token) => do
        let verified ← v.rungTwo R material (fingerprint R token)
        return ⟨name, material, token, fingerprint R token, verified, userModel⟩ := by
  rw [Verifier.admitted, remoteScreened]
  cases resolveNamedCookie R snapshot.pairs v.names.base with
  | error exc => rfl
  | ok r =>
    cases hr : rungOne R r.2 with
    | error exc => simp [hr]
    | ok token => cases hc : enforcePolicy v.csrf snapshot.facts token <;> simp [hr, hc]

theorem error_of_not_ok {α : Type} {x : Except Exn α} (h : ∀ a, x ≠ .ok a) :
    ∃ exc, x = .error exc := by
  cases x with
  | error exc => exact ⟨exc, rfl⟩
  | ok a => exact (h a rfl).elim

theorem cookieScreened_refused (h : Refused R names csrf snapshot) :
    ∃ exc, cookieScreened R names csrf snapshot = .error exc := by
  apply error_of_not_ok
  intro parsed hp
  obtain ⟨material, hm, parsed', hparse, u, hc, heq⟩ :
      ∃ material, resolveCookieValue R snapshot.pairs names.base = .ok material ∧
        ∃ parsed', parseSignedValue R material = .ok parsed' ∧
          ∃ u, enforcePolicy csrf snapshot.facts parsed'.token = .ok u ∧ parsed' = parsed := by
    simpa only [cookieScreened, bind_eq_ok, pure_eq_ok, Except.ok.injEq] using hp
  exact h _ (tokenOf_eq hm (parseSignedValue_ok.mp hparse).2.1) (enforcePolicy_ok.mp hc)

theorem remoteScreened_refused (h : Refused R names csrf snapshot) :
    ∃ exc, remoteScreened R names csrf snapshot = .error exc := by
  apply error_of_not_ok
  intro r hr
  obtain ⟨name, material, hm, token, hrung, u, hc, -⟩ :
      ∃ name material, resolveNamedCookie R snapshot.pairs names.base = .ok (name, material) ∧
        ∃ token, rungOne R material = .ok token ∧
          ∃ u, enforcePolicy csrf snapshot.facts token = .ok u ∧ (name, material, token) = r := by
    simpa only [remoteScreened, bind_eq_ok, pure_eq_ok, Except.ok.injEq, Prod.exists] using hr
  obtain ⟨-, -, -, signature, hcut, -⟩ := rungOne_ok.mp hrung
  exact h _ (tokenOf_eq (resolveNamedCookie_ok.mp hm).2 hcut) (enforcePolicy_ok.mp hc)

theorem cookieScreened_unsigned (csrf : CsrfPolicy) (h : Unsigned R names secrets snapshot) :
    ∃ exc, (cookieScreened R names csrf snapshot >>= fun parsed => do
      verifySignature R secrets parsed.token parsed.signature (fingerprint R parsed.token)
      return parsed) = .error exc := by
  apply error_of_not_ok
  intro parsed hp
  obtain ⟨parsed', hscreened, u, hv, -⟩ := by
    simpa only [bind_eq_ok, pure_eq_ok, Except.ok.injEq] using hp
  obtain ⟨material, hm, parsed'', hparse, u', -, rfl⟩ :
      ∃ material, resolveCookieValue R snapshot.pairs names.base = .ok material ∧
        ∃ parsed'', parseSignedValue R material = .ok parsed'' ∧
          ∃ u, enforcePolicy csrf snapshot.facts parsed''.token = .ok u ∧ parsed'' = parsed' := by
    simpa only [cookieScreened, bind_eq_ok, pure_eq_ok, Except.ok.injEq] using hscreened
  exact h material _ hm ((parsed_and_verified _).mp ⟨parsed'', hparse, rfl, hv⟩)

theorem admitted_refused (v : Verifier) (userModel : UserModel υ)
    (h : remoteScreened R v.names v.csrf snapshot = .error exc) :
    v.admitted R (.remote snapshot) userModel = .error exc := by
  rw [admitted_eq, h]
  rfl

theorem admitted_unsigned (v : Verifier) (userModel : UserModel υ) (hs : v.secrets ≠ [])
    (h : Unsigned R v.names v.secrets snapshot) :
    ∃ exc, v.admitted R (.remote snapshot) userModel = .error exc := by
  apply error_of_not_ok
  intro pending hp
  have hadm := admitted_ok.mp hp
  obtain ⟨snapshot', he, hm, -⟩ := hadm.snapshot
  cases he
  exact h _ _ hm (hadm.signed hs)

theorem admitted_congr {v₁ v₂ : Verifier} (hn : v₁.names = v₂.names) (hc : v₁.csrf = v₂.csrf)
    (hs : v₁.secrets = v₂.secrets) (credential : Credential) (userModel : UserModel υ) :
    v₁.admitted R credential userModel = v₂.admitted R credential userModel := by
  cases credential with
  | remote snapshot => simp only [admitted_eq, Verifier.rungTwo, hn, hc, hs]
  | _ => rfl

theorem act_refused {v : Verifier} {credential : Credential} {userModel : UserModel υ}
    (h : v.admitted R credential userModel = .error exc) (i : ι) (s : Shared ι) :
    v.act R i (.start (.verify credential userModel)) s .idle = some (s, finish (.raised exc)) := by
  rw [Verifier.act, Verifier.opened, exec_opening, h]

/-- A verification that stops at its policy or at its signature is one section that changes
nothing, asks nobody and ends alike whatever lies behind it: for the policy that is the keyring,
the store, the upstream, the cache, the latch, the probe state and the clock, for the signature
all of these but the keyring. -/
theorem anti_oracle (R : Runtime) (snapshot : Snapshot) (userModel : UserModel υ) :
    (∀ v₁ v₂ : CookieVerifier.Verifier, v₁.names = v₂.names → v₁.csrf = v₂.csrf →
      Refused R v₁.names v₁.csrf snapshot ∨
        v₁.secrets = v₂.secrets ∧ Unsigned R v₁.names v₁.secrets snapshot →
      ∀ now₁ now₂ calls₁ calls₂, ∃ exc,
        exec (v₁.verify R (.cookie snapshot) userModel now₁) calls₁ = (.error exc, calls₁) ∧
        exec (v₂.verify R (.cookie snapshot) userModel now₂) calls₂ = (.error exc, calls₂)) ∧
    ∀ v₁ v₂ : Verifier, v₁.names = v₂.names → v₁.csrf = v₂.csrf →
      Refused R v₁.names v₁.csrf snapshot ∨
        v₁.secrets = v₂.secrets ∧ v₁.secrets ≠ [] ∧ Unsigned R v₁.names v₁.secrets snapshot →
      ∀ (i₁ i₂ : ι) (s₁ s₂ : Shared ι), ∃ exc,
        v₁.act R i₁ (.start (.verify (.remote snapshot) userModel)) s₁ .idle =
          some (s₁, finish (.raised exc)) ∧
        v₂.act R i₂ (.start (.verify (.remote snapshot) userModel)) s₂ .idle =
          some (s₂, finish (.raised exc)) := by
  constructor
  · intro v₁ v₂ hn hc h now₁ now₂ calls₁ calls₂
    simp only [exec_cookie_verify, ← hn, ← hc]
    obtain h | ⟨hs, h⟩ := h
    · obtain ⟨exc, he⟩ := cookieScreened_refused h
      exact ⟨exc, by rw [he, error_bind], by rw [he, error_bind]⟩
    · obtain ⟨exc, he⟩ := cookieScreened_unsigned v₁.csrf h
      rw [← hs]
      exact ⟨exc, by rw [he], by rw [he]⟩
  · intro v₁ v₂ hn hc h i₁ i₂ s₁ s₂
    obtain h | ⟨hs, hne, h⟩ := h
    · obtain ⟨exc, he⟩ := remoteScreened_refused h
      exact ⟨exc, act_refused (admitted_refused v₁ userModel he) i₁ s₁,
        act_refused (admitted_refused v₂ userModel (by rw [← hn, ← hc, he])) i₂ s₂⟩
    · obtain ⟨exc, he⟩ := admitted_unsigned v₁ userModel hne h
      exact ⟨exc, act_refused he i₁ s₁, act_refused (admitted_congr hn hc hs _ _ ▸ he) i₂ s₂⟩

def denyingPolicy : CsrfPolicy :=
  ⟨"DenyingPolicy", none, fun _ _ => .raised (.session .csrfFailure "CsrfFailure" "denied" [])⟩

theorem denied : Refused R names denyingPolicy snapshot := fun _ _ h => by cases h

def emptyStore : CookieVerifier.SessionStore := ⟨fun _ => .ok none, fun _ => .ok none⟩

def cookieVerifier (csrf : CsrfPolicy) : CookieVerifier.Verifier :=
  ⟨sampleNames, [sampleSecret], sampleSecret_keys, csrf, emptyStore⟩

theorem anti_oracle_denied :
    (∃ exc, exec ((cookieVerifier denyingPolicy).verify sampleRuntime (.cookie sampleSnapshot)
        sampleUser ⟨0, 0⟩) [] = (.error exc, []) ∧
      exec
        ({ cookieVerifier denyingPolicy with secrets := [⟨"other".toList⟩], keyed := nofun }.verify
        sampleRuntime (.cookie sampleSnapshot) sampleUser ⟨1, 1⟩) [] = (.error exc, [])) ∧
    ∃ exc, { sampleVerifier with csrf := denyingPolicy }.act sampleRuntime (0 : Nat)
        (.start (.verify (.remote sampleSnapshot) sampleUser)) (Shared.initial 0) .idle =
          some (Shared.initial 0, finish (.raised exc)) ∧
      { sampleVerifier with csrf := denyingPolicy, secrets := [] }.act sampleRuntime (0 : Nat)
        (.start (.verify (.remote sampleSnapshot) sampleUser)) (Shared.initial 1) .idle =
          some (Shared.initial 1, finish (.raised exc)) :=
  ⟨(@anti_oracle Nat _ _ sampleRuntime sampleSnapshot sampleUser).1 _ _ rfl rfl
      (.inl denied) ⟨0, 0⟩ ⟨1, 1⟩ [] [],
    (anti_oracle sampleRuntime sampleSnapshot sampleUser).2 _ _ rfl rfl (.inl denied) 0 0
      (Shared.initial 0) (Shared.initial 1)⟩

end BetterAuthBridge.AntiOracle
