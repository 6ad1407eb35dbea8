import BetterAuthBridge.CookieResolution
import BetterAuthBridge.RemoteVerifier

namespace BetterAuthBridge.RemoteSections

open Library Library.Text Library.Procedure Library.Tasks Values Errors SessionDocument Models Csrf
open CookieParsing CookieResolution Signing RemoteResponse RemoteGates RemoteProbe RemoteVerifier

variable {ι υ : Type} {R : Runtime} {v : Verifier} {i : ι} {s t : Shared ι}
  {credential : Credential} {userModel : UserModel υ} {pending : Pending υ}

/-- What a call that got past its credential carries, and what it took to get there. -/
structure Admitted (R : Runtime) (v : Verifier) (credential : Credential) (userModel : UserModel υ)
    (pending : Pending υ) : Prop where
  name : pending.name = v.names.base
  token : rungOne R pending.material = .ok pending.token
  marker : pending.marker = fingerprint R pending.token
  verified : v.rungTwo R pending.material pending.marker = .ok pending.verified
  userModel : pending.userModel = userModel
  snapshot : ∃ snapshot, credential = .remote snapshot ∧
    resolveCookieValue R snapshot.pairs v.names.base = .ok pending.material ∧
    v.csrf.check snapshot.facts pending.token = .none

theorem admitted_ok : v.admitted R credential userModel = .ok pending ↔
    Admitted R v credential userModel pending := by
  cases credential with
  | remote snapshot =>
    simp only [Verifier.admitted, bind_eq_ok, pure_eq_ok, Except.ok.injEq, Prod.exists,
      resolveNamedCookie_ok, enforcePolicy_ok]
    constructor
    · rintro ⟨name, material, ⟨rfl, hm⟩, token, ht, u, hc, verified, hv, rfl⟩
      exact ⟨rfl, ht, rfl, hv, rfl, snapshot, rfl, hm, hc⟩
    · rintro ⟨hn, ht, hk, hv, hu, snapshot', he, hm, hc⟩
      cases he
      obtain ⟨name, material, token, marker, verified, model⟩ := pending
      dsimp only at hn ht hk hv hu hm hc
      subst hn hk hu
      exact ⟨_, material, ⟨rfl, hm⟩, token, ht, (), hc, verified, hv, rfl⟩
  | _ => exact ⟨nofun, fun h => by obtain ⟨_, he, -⟩ := h.snapshot; cases he⟩

theorem rungOne_ok {material token : Text} : rungOne R material = .ok token ↔
    material.length ≤ maxCookieBytes ∧ token ≠ [] ∧ token.length ≤ maxTokenBytes ∧
      ∃ signature, (unquotedStrictly material).bind (rcut '.') = some (token, signature) ∧
        signature ≠ [] := by
  constructor
  · intro h
    simp only [rungOne, throw_eq_error, pure_eq_ok] at h
    by_cases hlen : maxCookieBytes < material.length
    · simp [hlen] at h
    cases hu : unquotedStrictly material with
    | none => simp [hlen, hu] at h
    | some decoded =>
      cases hr : rcut '.' decoded with
      | none => simp [hlen, hu, hr] at h
      | some r =>
        by_cases ht : r.1 = []
        · simp [hlen, hu, hr, ht] at h
        by_cases hs : r.2 = []
        · simp [hlen, hu, hr, ht, hs] at h
        by_cases hl : maxTokenBytes < r.1.length
        · simp [hlen, hu, hr, ht, hs, hl] at h
        · simp only [hlen, hu, hr, ht, hs, hl, if_false, Except.ok.injEq] at h
          subst h
          exact ⟨not_lt.mp hlen, ht, not_lt.mp hl, r.2, hr, hs⟩
  · rintro ⟨hlen, ht, hl, signature, hr, hs⟩
    obtain ⟨decoded, hu, hr⟩ := Option.bind_eq_some_iff.mp hr
    simp [rungOne, not_lt.mpr hlen, hu, hr, ht, hs, not_lt.mpr hl]

/-- The second rung passes a value the first rung took apart when a secret signed its token, or
when there is no secret to ask. -/
theorem rungTwo_ok {material token : Text} {marker : String} {verified : Bool}
    (h1 : rungOne R material = .ok token) : v.rungTwo R material marker = .ok verified ↔
      v.secrets = [] ∧ verified = false ∨
        v.secrets ≠ [] ∧ verified = true ∧ Signed R v.secrets material token := by
  by_cases hs : v.secrets = []
  · simp [Verifier.rungTwo, hs, eq_comm]
  · simp only [Verifier.rungTwo, hs, if_false, bind_eq_ok, pure_eq_ok, Except.ok.injEq, false_and,
      false_or, ne_eq, not_false_eq_true, true_and, ← parsed_and_verified marker]
    obtain ⟨-, -, -, signature, hr, -⟩ := rungOne_ok.mp h1
    constructor
    · rintro ⟨parsed, hp, u, hv, rfl⟩
      have ht := (parseSignedValue_ok.mp hp).2.1
      rw [hr] at ht
      exact ⟨rfl, parsed, hp, (Prod.mk.inj (Option.some.inj ht)).1.symm, hv⟩
    · rintro ⟨rfl, parsed, hp, -, hv⟩
      exact ⟨parsed, hp, (), hv, rfl⟩

theorem Admitted.signed (h : Admitted R v credential userModel pending) (hs : v.secrets ≠ []) :
    Signed R v.secrets pending.material pending.token := by
  obtain ⟨hn, -⟩ | ⟨-, -, hsig⟩ := (rungTwo_ok h.token).mp h.verified
  · exact (hs hn).elim
  · exact hsig

def cacheAsked (R : Runtime) (v : Verifier) (material : Text) (s : Shared ι) : Shared ι :=
  { s with entries := (holds R v.negativeTtl s.clock material s.entries).2 }

def latchAsked (R : Runtime) (v : Verifier) (material : Text) (s : Shared ι) : Shared ι :=
  { cacheAsked R v material s with blockedUntil := (latched s.clock s.blockedUntil).2 }

theorem exec_opening (R : Runtime) (v : Verifier) (credential : Credential)
    (userModel : UserModel υ) (s : Shared ι) :
    exec (v.opening R credential userModel) s =
      match v.admitted R credential userModel with
      | .error exc => (.error exc, s)
      | .ok pending =>
        if (holds R v.negativeTtl s.clock pending.material s.entries).1 then
          (.error (nullOutcome pending.verified pending.marker), cacheAsked R v pending.material s)
        else if (latched s.clock s.blockedUntil).1 then
          (.error (authServiceUnavailable
            s!"get-session is backing off after a recent rate-limit (429) [{pending.marker}]"),
            latchAsked R v pending.material s)
        else (.ok pending, latchAsked R v pending.material s) := by
  rw [Verifier.opening, exec_check_bind]
  cases v.admitted R credential userModel with
  | error exc => rfl
  | ok pending =>
    have hc : exec (v.cacheHolds R pending.material) s =
        (.ok (holds R v.negativeTtl s.clock pending.material s.entries).1,
          cacheAsked R v pending.material s) := rfl
    have hl : exec Verifier.backoffLatched (cacheAsked R v pending.material s) =
        (.ok (latched s.clock s.blockedUntil).1, latchAsked R v pending.material s) := rfl
    by_cases hh : (holds R v.negativeTtl s.clock pending.material s.entries).1 = true
    · simp [exec_bind, hc, hh]
    · by_cases hb : (latched s.clock s.blockedUntil).1 = true
      · simp [exec_bind, hc, hl, hh, hb]
      · simp [exec_bind, hc, hl, hh, hb]

inductive Reaches (R : Runtime) (v : Verifier) (s : Shared ι) :
    Call υ → Caller υ → Shared ι → Prop
  | prepare : Reaches R v s .prepare .prepare s
  | verify {credential : Credential} {userModel : UserModel υ} {pending : Pending υ} :
      Admitted R v credential userModel pending →
      (holds R v.negativeTtl s.clock pending.material s.entries).1 = false →
      (latched s.clock s.blockedUntil).1 = false →
      Reaches R v s (.verify credential userModel) (.verify pending)
        (latchAsked R v pending.material s)

inductive TurnedAway (R : Runtime) (v : Verifier) (s : Shared ι) :
    Call υ → Exn → Shared ι → Prop
  | credential {credential : Credential} {userModel : UserModel υ} {exc : Exn} :
      v.admitted R credential userModel = .error exc →
      TurnedAway R v s (.verify credential userModel) exc s
  | remembered {credential : Credential} {userModel : UserModel υ} {pending : Pending υ} :
      Admitted R v credential userModel pending →
      (holds R v.negativeTtl s.clock pending.material s.entries).1 = true →
      TurnedAway R v s (.verify credential userModel)
        (nullOutcome pending.verified pending.marker) (cacheAsked R v pending.material s)
  | rateLimited {credential : Credential} {userModel : UserModel υ} {pending : Pending υ} :
      Admitted R v credential userModel pending →
      (latched s.clock s.blockedUntil).1 = true →
      TurnedAway R v s (.verify credential userModel) (authServiceUnavailable
        s!"get-session is backing off after a recent rate-limit (429) [{pending.marker}]")
        (latchAsked R v pending.material s)

def noticed (R : Runtime) (v : Verifier) (pending : Pending υ) (response : TransportResponse)
    (s : Shared ι) : Shared ι :=
  { s with
    blockedUntil := observe s.clock response s.blockedUntil
    entries := if isCacheableNull R response then
      remember R v.negativeTtl v.maxRemembered s.clock pending.material s.entries else s.entries }

theorem exec_closing (R : Runtime) (v : Verifier) (pending : Pending υ) (answer : Answer)
    (now : Readings) (s : Shared ι) :
    exec (v.closing R pending answer now) s =
      match v.fetchTranslated answer with
      | .error exc => (.error exc, s)
      | .ok response =>
        (sessionDocumentFrom R response v.uri pending.marker pending.verified >>= fun record =>
          Verifier.session record pending now, noticed R v pending response s) := by
  rw [Verifier.closing, exec_check_bind]
  cases v.fetchTranslated answer with
  | error exc => rfl
  | ok response =>
    dsimp only
    rw [exec_bind, exec_modify]
    dsimp only
    rw [exec_bind]
    unfold Verifier.document
    by_cases hn : isCacheableNull R response = true
    · cases sessionDocumentFrom R response v.uri pending.marker pending.verified <;>
        simp [exec_bind, hn, noticed]
    · cases sessionDocumentFrom R response v.uri pending.marker pending.verified <;>
        simp [hn, noticed]

theorem fetchTranslated_ok {answer : Answer} {response : TransportResponse} :
    v.fetchTranslated answer = .ok response ↔ answer = .response response := by
  cases answer with
  | response r => simp [Verifier.fetchTranslated, fetched]
  | raised exc => by_cases hl : exc.isLibrary <;> simp [Verifier.fetchTranslated, fetched, hl]

structure Attests (record : StoredSession) (pending : Pending υ) (now : Readings)
    (found : Session υ) (stored : StoredUser) : Prop where
  token : record.token = pending.token
  unexpired : now.atExpiry < record.expiresAt.instant
  user : record.user = some stored
  unbanned : banned stored now.atBan = false
  built : ∃ parsed, pending.userModel.modelValidate stored.payload = .valid parsed ∧
    found = ⟨parsed, some record.expiresAt, some pending.token, record.impersonatedBy,
      record.payload⟩

theorem session_ok {record : StoredSession} {now : Readings} {found : Session υ} :
    Verifier.session record pending now = .ok found ↔
      ∃ stored, Attests record pending now found stored := by
  unfold Verifier.session
  by_cases ht : record.token = pending.token
  · rw [if_neg (not_not.mpr (congrArg encodeUtf8 ht))]
    cases hu : record.user with
    | none =>
      refine ⟨fun h => ?_, fun ⟨stored, h⟩ => ?_⟩
      · obtain ⟨u, -, h⟩ := bind_eq_ok.mp h
        cases h
      · cases hu.symm.trans h.user
    | some stored =>
      simp only [bind_eq_ok, checkExpiry, expiryChecked_ok, checkBan, banChecked_ok, buildSession,
        sessionBuilt_ok]
      constructor
      · rintro ⟨u, he, u', hb, hf⟩
        exact ⟨stored, ht, he, hu, hb, hf⟩
      · rintro ⟨stored', -, he, hu', hb, hf⟩
        cases hu.symm.trans hu'
        exact ⟨(), he, (), hb, hf⟩
  · rw [if_pos (encodeUtf8_injective.ne_iff.mpr ht)]
    exact ⟨nofun, fun ⟨stored, h⟩ => (ht h.token).elim⟩

theorem closing_ok {answer : Answer} {now : Readings} {found : Session υ} :
    exec (v.closing R pending answer now) s = (.ok found, t) ↔
      ∃ response record stored, answer = .response response ∧
        sessionDocumentFrom R response v.uri pending.marker pending.verified = .ok record ∧
        Attests record pending now found stored ∧ t = noticed R v pending response s := by
  rw [exec_closing]
  cases hf : v.fetchTranslated answer with
  | error exc =>
    refine ⟨nofun, ?_⟩
    rintro ⟨response, record, stored, ha, -⟩
    rw [fetchTranslated_ok.mpr ha] at hf
    cases hf
  | ok response =>
    have ha := fetchTranslated_ok.mp hf
    simp only [Prod.mk.injEq, bind_eq_ok, session_ok, ha, Answer.response.injEq]
    constructor
    · rintro ⟨⟨record, hr, stored, hs⟩, rfl⟩
      exact ⟨response, record, stored, rfl, hr, hs, rfl⟩
    · rintro ⟨response', record, stored, rfl, hr, hs, rfl⟩
      exact ⟨⟨record, hr, stored, hs⟩, rfl⟩

/-- Only the negative cache and the latch may differ. -/
structure Aside (s t : Shared ι) : Prop where
  clock : t.clock = s.clock
  probeLock : t.probeLock = s.probeLock
  probedOk : t.probedOk = s.probedOk
  contractFailure : t.contractFailure = s.contractFailure
  probeAttemptedAt : t.probeAttemptedAt = s.probeAttemptedAt

theorem TurnedAway.aside {call : Call υ} {exc : Exn} (h : TurnedAway R v s call exc t) :
    Aside s t := by
  cases h <;> exact ⟨rfl, rfl, rfl, rfl, rfl⟩

theorem Reaches.aside {call : Call υ} {caller : Caller υ} (h : Reaches R v s call caller t) :
    Aside s t := by
  cases h <;> exact ⟨rfl, rfl, rfl, rfl, rfl⟩

theorem closing_aside [DecidableEq ι] {pending : Pending υ} {answer : Answer} {now : Readings}
    {result : Except Exn (Session υ)}
    (h : exec (v.closing R pending answer now) (Verifier.released i s) = (result, t)) :
    Aside s t := by
  rw [exec_closing] at h
  cases hf : v.fetchTranslated answer with
  | error exc =>
    rw [hf] at h
    cases h
    exact ⟨rfl, rfl, rfl, rfl, rfl⟩
  | ok response =>
    rw [hf] at h
    cases h
    exact ⟨rfl, rfl, rfl, rfl, rfl⟩

end BetterAuthBridge.RemoteSections
