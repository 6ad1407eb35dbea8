import BetterAuthBridge.Library.Uri
import BetterAuthBridge.Origins
import BetterAuthBridge.RemoteConfig
import BetterAuthBridge.RemoteSoundness

namespace BetterAuthBridge.PinnedUri

open Library Library.Failure Library.Floats Library.Runs Library.Tasks Values Errors Urls Origins
open CookieParsing RemoteVerifier RemoteSteps RemoteInvariants RemoteConfig
open JwtVerifier (NumberSetting finiteValue)

variable {ι υ : Type} [DecidableEq ι] {R : Runtime} {U : UrlLibrary} {httpx : Bool}
  {shown : Number → String} {settings settings' : Settings} {v v' : Verifier}
  {origin scheme host port path : Text}

def pinnedQuery : Text := getSessionQuery.tail

def target (scheme host port path : Text) : Uri :=
  ⟨scheme, host ++ port, path ++ getSessionPath, some pinnedQuery, none⟩

theorem getSessionQuery_eq : getSessionQuery = '?' :: pinnedQuery := rfl

theorem target_text (h : Shaped origin scheme host port) :
    (target scheme host port path).text = origin ++ path ++ getSessionPath ++ getSessionQuery := by
  rw [h.spelled, getSessionQuery_eq]
  simp only [target, Uri.text, Uri.introduced, List.append_nil, List.append_assoc]

theorem validatedBasePath_ok {basePath : BasePath} {setting : Setting}
    (h : validatedBasePath R setting = .ok basePath) : setting = .text basePath.1 := by
  cases setting with
  | other => cases h
  | text given =>
    unfold validatedBasePath at h
    dsimp only at h
    by_cases hg : given = []
    · rw [dif_pos hg] at h
      cases h
      rfl
    · rw [dif_neg hg] at h
      by_cases hm : malformed given = true
      · rw [dif_pos hm] at h
        cases h
      · rw [dif_neg hm] at h
        cases h
        rfl

structure Mounted (path : Text) : Prop where
  rooted : path = [] ∨ path.head? = some '/'
  plain : ∀ c ∈ path, isControl c = false ∧ c ∉ "?#".toList
  level : ¬ "..".toList <:+: path

theorem mounted (h : path = [] ∨ malformed path = false) : Mounted path := by
  obtain rfl | h := h
  · exact ⟨.inl rfl, nofun, by decide⟩
  · simp only [malformed, Bool.or_eq_false_iff, bne_eq_false_iff_eq, List.any_eq_false,
      decide_eq_false_iff_not] at h
    obtain ⟨⟨⟨⟨⟨hr, -⟩, hc⟩, hq⟩, hf⟩, hd⟩ := h
    refine ⟨.inr hr, fun c hm => ⟨eq_false_of_ne_true (hc c hm), ?_⟩, hd⟩
    have hne : ∀ {d}, path.contains d = false → c ≠ d := by
      rintro d hn rfl
      rw [List.contains_iff_mem.mpr hm] at hn
      cases hn
    simp [hne hq, hne hf]

theorem proper (hs : Shaped origin scheme host port) (hm : Mounted path) :
    (target scheme host port path).Proper := by
  have hscheme : ∀ t ∈ allowedSchemes, t ≠ [] ∧ ∀ c ∈ t, c ∉ ":/?#".toList := by
    simp [allowedSchemes]
  have hport : ∀ c ∈ port, c ∉ "/?#@".toList := by
    obtain rfl | ⟨n, -, -, -, rfl⟩ := hs.explicit
    · exact fun c hc => absurd hc List.not_mem_nil
    · intro c hc
      obtain rfl | hc := List.mem_cons.mp hc
      · decide
      · exact (plain_of_nameChar (plain_of_digits hc)).1.2
  have hsuffix : ∀ c ∈ getSessionPath, c ∉ "?#".toList := by
    unfold getSessionPath
    simp
  refine ⟨hscheme scheme hs.allowed, ?_, ?_, ?_, ?_⟩
  · intro c hc hmem
    have hmem' : c ∈ "/?#@".toList := List.mem_of_mem_take (i := 3) hmem
    obtain hc | hc := List.mem_append.mp hc
    · exact (hs.plain.2 c hc).2 hmem'
    · exact hport c hc hmem'
  · intro c hc
    obtain hc | hc := List.mem_append.mp hc
    · exact (hm.plain c hc).2
    · exact hsuffix c hc
  · right
    obtain rfl | hr := hm.rooted
    · rfl
    · rw [target, List.head?_append, hr]
      rfl
  · rintro q hq
    cases hq
    decide

structure Built (R : Runtime) (U : UrlLibrary) (settings : Settings) (v : Verifier)
    (origin path : Text) : Prop where
  based : (settings.baseUrl >>= fun baseUrl => normalizeBaseUrl R U baseUrl "base_url") = .ok origin
  given : settings.basePath = .ok (.text path)
  mounted : Mounted path
  uri : v.uri.toList = origin ++ path ++ getSessionPath ++ getSessionQuery
  concurrency : 1 ≤ v.concurrency ∧ v.concurrency ≤ 256
  queueTimeout : Number.le (.finite minQueueTimeout) v.queueTimeout = true
  negativeTtl : 0 ≤ v.negativeTtl ∧ v.negativeTtl ≤ 300
  maxRemembered : 1 ≤ v.maxRemembered ∧ v.maxRemembered ≤ 65536
  maxBytes : 1 ≤ v.maxBytes

theorem init_built (h : init R U httpx shown settings = .ok v) :
    ∃ origin path, Built R U settings v origin path := by
  simp only [init, bind_eq_ok] at h
  obtain ⟨baseUrl, hurl, origin, hbase, _, -, _, -, _, -, _, -, _, -, _, -, _, -, _, -, _, -, _, -,
    setting, hsetting, basePath, hpath, _, -, concurrency, -, _, -, timeout, -, _, -, cap, -, _, -,
    _, -, _, -, _, -, ttl, -, _, -, remembered, -, hv⟩ := h
  cases hv
  obtain rfl := validatedBasePath_ok hpath
  obtain ⟨clow, chigh⟩ := concurrency.2
  obtain ⟨tlow, thigh⟩ := ttl.2
  obtain ⟨rlow, rhigh⟩ := remembered.2
  have hcap := cap.2
  unfold minConcurrency at clow
  unfold maxConcurrency at chigh
  unfold minNegativeTtl at tlow
  unfold maxNegativeTtl at thigh
  unfold minRemembered at rlow
  unfold RemoteConfig.maxRemembered at rhigh
  have hfew : 300 < 2 ^ binary64.precision := by decide
  have hle : ttl.1 ≤ (300 : ℕ) := by exact_mod_cast thigh
  have hvalue := Format.value_round hfew tlow hle
  have htenth : 0 ≤ minQueueTimeout := Format.rounded_nonneg (by norm_num)
  have htimeout : Number.le (.finite minQueueTimeout) (binary64.round timeout.1) = true :=
    Number.le_round (htenth.trans timeout.2) timeout.2
  refine ⟨origin, basePath.1, bind_eq_ok.mpr ⟨baseUrl, hurl, hbase⟩, hsetting,
    PinnedUri.mounted basePath.2, ?_, ?_, htimeout, ?_, ?_, ?_⟩
  · exact String.toList_ofList
  · dsimp only
    omega
  · dsimp only
    rw [hvalue]
    exact ⟨Format.rounded_nonneg tlow, by exact_mod_cast Format.rounded_le_natCast hfew tlow hle⟩
  · dsimp only
    omega
  · dsimp only
    omega

/-- The URI of a verifier that was made is one of an origin in its parts. -/
theorem Built.target (laws : UrlLaws U) (h : Built R U settings v origin path) :
    ∃ scheme host port, Shaped origin scheme host port ∧
      v.uri.toList = (target scheme host port path).text ∧
      (PinnedUri.target scheme host port path).Proper := by
  obtain ⟨baseUrl, -, hb⟩ := bind_eq_ok.mp h.based
  obtain ⟨given, split, host, loopback, port, -, hn⟩ := normalizeBaseUrl_ok.mp hb
  have hs := shaped_of_normalizes laws hn
  exact ⟨_, host, port, hs, h.uri.trans (target_text hs).symm, proper hs h.mounted⟩

/-- A URI whose scheme and authority are the configured origin's, whose path is `/get-session` below
the configured base path, and whose query is the pinned one. -/
def Aims (R : Runtime) (U : UrlLibrary) (settings : Settings) (uri : String) : Prop :=
  ∃ origin path scheme host port,
    (settings.baseUrl >>= fun baseUrl => normalizeBaseUrl R U baseUrl "base_url") = .ok origin ∧
    settings.basePath = .ok (.text path) ∧ Shaped origin scheme host port ∧
    Uri.read uri.toList = some (target scheme host port path)

theorem Built.aims (laws : UrlLaws U) (h : Built R U settings v origin path) :
    Aims R U settings v.uri := by
  obtain ⟨scheme, host, port, hs, ht, hp⟩ := h.target laws
  refine ⟨origin, path, scheme, host, port, h.based, h.given, hs, ?_⟩
  rw [ht]
  exact Uri.read_text hp

/-- One URI is one origin and one base path. -/
theorem Built.uri_iff {origin' path' : Text} (laws : UrlLaws U)
    (h : Built R U settings v origin path) (h' : Built R U settings' v' origin' path') :
    v.uri = v'.uri ↔ origin = origin' ∧ path = path' := by
  constructor
  · intro he
    obtain ⟨scheme, host, port, hs, ht, hp⟩ := h.target laws
    obtain ⟨scheme', host', port', hs', ht', hp'⟩ := h'.target laws
    rw [he, ht'] at ht
    have hsame := Uri.text_injective hp' hp ht
    simp only [PinnedUri.target, Uri.mk.injEq, List.append_cancel_right_eq] at hsame
    obtain ⟨hscheme, hauth, hpath, -⟩ := hsame
    refine ⟨?_, hpath.symm⟩
    rw [hs.spelled, hs'.spelled, List.append_assoc, List.append_assoc _ host', hscheme, hauth]
  · rintro ⟨rfl, rfl⟩
    rw [← String.toList_inj, h.uri, h'.uri]

/-- Where an outbound request goes: a session's, a probe's, or that of its last rung. -/
def uriOf : Effect υ → Option String
  | .getSessionSent uri _ | .probeSent uri | .bearerSent uri => some uri
  | _ => none

theorem uri_of_moves {i : ι} {s t : Shared ι} {e : Event υ} {p q : Phase υ} {fs : List (Effect υ)}
    {f : Effect υ} {uri : String} (h : Moves R v i s e p t q fs) (hf : f ∈ fs)
    (hu : uriOf f = some uri) : uri = v.uri := by
  have hsent : ∀ {g : Effect υ}, uriOf g = some v.uri → [g] = fs → uri = v.uri := by
    rintro g hg rfl
    rw [List.mem_singleton.mp hf, hg] at hu
    exact (Option.some.inj hu).symm
  have hquiet : (∀ g ∈ fs, uriOf g = none) → uri = v.uri := by
    intro hn
    rw [hn f hf] at hu
    cases hu
  cases h with
  | probeStarted | rungPassed | sent => exact hsent rfl rfl
  | readyAtOnce _ _ hp | readyUnderLock _ hp | probePassed _ hp =>
    obtain ⟨-, -, rfl⟩ | ⟨_, -, -, rfl⟩ := passed_eq hp <;> exact hquiet (by simp [uriOf])
  | _ => exact hquiet (by simp [uriOf])

/-- The request is pinned when the verifier is made: it goes to the configured origin and path, two
verifiers have one URI only where they have one origin and one path, every number is in its range,
and in no run does a request go anywhere else. -/
structure Pinned (ι υ : Type) [DecidableEq ι] (R : Runtime) (U : UrlLibrary) (httpx : Bool)
    (shown : Number → String) : Prop where
  aimed : ∀ settings v, init R U httpx shown settings = .ok v →
    Aims R U settings v.uri ∧ ∃ origin path, Built R U settings v origin path
  apart : ∀ settings settings' v v' origin origin' path path',
    init R U httpx shown settings = .ok v → init R U httpx shown settings' = .ok v' →
    (settings.baseUrl >>= fun baseUrl => normalizeBaseUrl R U baseUrl "base_url") = .ok origin →
    (settings'.baseUrl >>= fun baseUrl => normalizeBaseUrl R U baseUrl "base_url") = .ok origin' →
    settings.basePath = .ok (.text path) → settings'.basePath = .ok (.text path') →
    (v.uri = v'.uri ↔ origin = origin' ∧ path = path')
  sent : ∀ settings v clock (tr : History ι υ) w, init R U httpx shown settings = .ok v →
    Run (v.machine R) (Verifier.start clock) tr w → ∀ x ∈ tr, ∀ i f uri,
      Did i f x → uriOf f = some uri → Aims R U settings uri

theorem pinned (R : Runtime) (U : UrlLibrary) (httpx : Bool) (shown : Number → String)
    (laws : UrlLaws U) : Pinned ι υ R U httpx shown where
  aimed settings v h := by
    obtain ⟨origin, path, hb⟩ := init_built h
    exact ⟨hb.aims laws, origin, path, hb⟩
  apart settings settings' v v' origin origin' path path' h h' ho ho' hp hp' := by
    obtain ⟨_, _, hb⟩ := init_built h
    obtain ⟨_, _, hb'⟩ := init_built h'
    cases hb.based.symm.trans ho
    cases hb'.based.symm.trans ho'
    cases hb.given.symm.trans hp
    cases hb'.given.symm.trans hp'
    exact hb.uri_iff laws hb'
  sent settings v clock tr w h hr x hx i f uri hd huri := by
    obtain ⟨origin, path, hb⟩ := init_built h
    obtain ⟨a, b, -, -, hu, -⟩ := hr.of_mem hx
    obtain ⟨-, hf⟩ := hd
    obtain ⟨_, _, -, hm⟩ := moves_of_effect hu hf
    obtain rfl := uri_of_moves hm hf huri
    exact hb.aims laws

def sampleSettings : Settings where
  baseUrl := .ok (.text "https://auth.example:8443/".toList)
  csrf := .ok (.policy RemoteSoundness.samplePolicy (.ok true) (.ok none))
  transport := none
  secret := none
  secrets := none
  cookieName := .ok (.text defaultCookieName)
  securePrefix := .ok (.text defaultSecurePrefix)
  secureCookies := .ok (.flag true)
  basePath := .ok (.text "/api/auth".toList)
  concurrency := .ok (.int 8)
  queueTimeout := .ok (.float (.finite 2) "2.0")
  negativeTtl := .ok (.float (.finite 30) "30.0")
  maxRemembered := .ok (.int 1024)
  maxBytes := .ok (.int 65536)
  refuseUnsignedBearer := .ok (.flag false)
  clock := .callable

theorem pinned_sample :
    (init sampleRuntime sampleLibrary true Number.formatted sampleSettings).toOption.map
        (fun v => v.uri) =
      some ("https://auth.example:8443/api/auth/get-session" ++
        "?disableCookieCache=true&disableRefresh=true") ∧
    Pinned Nat Unit sampleRuntime sampleLibrary true Number.formatted :=
  ⟨by decide +kernel, pinned sampleRuntime sampleLibrary true Number.formatted sample_laws⟩

end BetterAuthBridge.PinnedUri
