import BetterAuthBridge.JwtSelection
import BetterAuthBridge.Legibility

namespace BetterAuthBridge.JwtLegibility

open Library Library.Runs Library.Tasks Library.Failure Library.Spelling Library.Floats Values
open Errors SessionDocument Models RemoteResponse JwksDocument JwtVerifier JwtSelection Legibility
open JwksClient (Shared Client)

variable {ι κ υ : Type} {A : Alphabet} {R : Runtime} {r : Reader κ} {v : Verifier κ} {i : ι}
  {s t : Shared ι κ} {e : Event υ} {p q : Phase υ} {fs : List (Effect κ υ)} {exc : Exn}
  {pending : Pending υ} {answer : Answer} {marker : String} {claims : Payload}
  {userModel : UserModel υ} {now : ℚ}

/-- What PyJWT raises is legible; of what it was given nothing is said. -/
def Failing (A : Alphabet) : JwtFailure → Prop
  | .expired => True
  | .rejected name => A.Spells name
  | .escaped exc => Legible A exc

/-- What an operator's settings and PyJWT put into a refusal is written in the alphabet. -/
structure Configured (A : Alphabet) (v : Verifier κ) : Prop where
  origin : A.Spells (String.ofList v.origin)
  header : ∀ token failure, v.jwt.getUnverifiedHeader token = .error failure → Failing A failure
  decode : ∀ decoding now failure, v.jwt.decode decoding now = .error failure → Failing A failure

/-- What comes into a call from its own process is legible; what comes from outside of it, the
token and the response, is whatever it is. -/
def Incoming (A : Alphabet) : Event υ → Prop
  | .start credential userModel _ =>
    (∀ typeName, credential = .other typeName → A.Spells typeName) ∧ Reporting A userModel
  | .lookup event _ => ∀ answer, event = .answered answer → Raising A answer

structure Carries (A : Alphabet) (pending : Pending υ) : Prop where
  marker : A.Spells pending.marker
  algorithm : pending.algorithm ∈ supportedAlgorithms
  userModel : Reporting A pending.userModel

section KeySets

variable {why : String}

theorem unusable_legible (hu : A.Spells r.uri) (h : A.Spells why) : Legible A (r.unusable why) :=
  authServiceUnavailable_legible (.append (.framed (by decide) hu (by decide)) h)

theorem collect_legible (hu : A.Spells r.uri) (keys : KeySet κ) (entry : Value) :
    Legibly A (r.collect keys entry) := by
  have hkid : Legible A (r.unusable "one of its keys has no usable 'kid'") :=
    unusable_legible hu (.literal (by decide))
  have halg : ∀ kid, Legible A (r.unusable s!"key {safeLabel kid} declares no 'alg'") :=
    fun kid => unusable_legible hu (.framed (by decide) (safeLabel_spelled kid) (by decide))
  cases entry with
  | dict published =>
    cases hk : Payload.get published "kid" with
    | str kid =>
      cases ha : Payload.get published "alg" with
      | str algorithm =>
        simp only [Reader.collect, hk, ha]
        refine .ite (.error hkid) (.ite (.error (halg kid)) ?_)
        cases loaders.find? fun l => ofString l.1 = algorithm with
        | none => exact .ok _
        | some l =>
          refine .ite (.ok _) (.ite (.ok _) (.ite (.ok _) (.bind ?_ fun key _ => ?_)))
          on_goal 2 => exact .ite (.ok _) (.ok _)
          rw [Reader.loaded]
          cases r.library.fromJwk l.2 published with
          | none =>
            refine .error (unusable_legible hu ?_)
            exact .framed (by decide) (safeLabel_spelled kid) (by decide)
          | some key => exact .ok _
      | _ =>
        simp only [Reader.collect, hk, ha]
        exact .ite (.error hkid) (.error (halg kid))
    | _ =>
      simp only [Reader.collect, hk]
      exact .error hkid
  | _ => exact .error (unusable_legible hu (.literal (by decide)))

theorem parsed_legible (hu : A.Spells r.uri) (response : TransportResponse) :
    Legibly A (r.parsed R response) := by
  rw [Reader.parsed]
  refine .bind (.ite (.error (authServiceUnavailable_legible ?_))
    (.ite (.error (unusable_legible hu ?_)) (.ok _))) fun _ _ => .bind ?_ fun document _ => ?_
  · exact .append (.framed (by decide) (.int _) (by decide)) hu
  · exact .framed (by decide) (safeLabel_spelled _) (by decide)
  · rw [Reader.document]
    cases R.loads (.bytes response.content) with
    | none => exact .error (unusable_legible hu (.literal (by decide)))
    | some value =>
      cases value with
      | dict parsed => exact .ok _
      | _ => exact .error (unusable_legible hu (.literal (by decide)))
  · cases Payload.get document "keys" with
    | list entries =>
      refine .ite (.error (unusable_legible hu ?_)) (.foldlM (collect_legible hu) entries [])
      exact .append (.append (.framed (by decide) (.nat _) (by decide)) (.nat _))
        (.literal (by decide))
    | _ => exact .error (unusable_legible hu (.literal (by decide)))

theorem keysFetched_legible (hu : A.Spells r.uri) (h : Raising A answer) :
    Legibly A (r.fetched R answer) := by
  cases answer with
  | response response => exact parsed_legible hu response
  | raised exc =>
    refine .ite (.error (h exc rfl)) (.error (authServiceUnavailable_legible ?_))
    exact .append (.framed (by decide) (h exc rfl).className (by decide)) hu

theorem lookup_legible {c : Client κ} {event : JwksClient.Event} {k r : JwksClient.Phase}
    {gs : List (JwksClient.Effect κ)} {kid : Str} (hu : A.Spells c.uri)
    (ha : ∀ answer, event = .answered answer → Raising A answer)
    (h : JwksSteps.Moves c R i s event k t r gs) (hf : .ended kid (.raised exc) ∈ gs) :
    Legible A exc := by
  have hunconfirmed : ∀ kid, Legible A (c.unconfirmed kid) := by
    intro kid
    refine authServiceUnavailable_legible ?_
    exact .append (.append (.framed (by decide) hu (by decide)) (safeLabel_spelled kid))
      (.literal (by decide))
  have replied : ∀ {kid kid' : Str} {u u' : Shared ι κ} {ending : JwksClient.Ending κ},
      JwksSteps.Replies c kid u u' ending →
      JwksClient.Effect.ended kid' (.raised exc) = .ended kid ending → Legible A exc := by
    intro kid kid' u u' ending hr he
    cases hr with
    | unconfirmed =>
      cases he
      exact hunconfirmed kid
    | _ => cases he
  cases h with
  | replied _ hr => exact replied hr (List.mem_singleton.mp hf)
  | refreshed _ hr | refreshFailed _ hr =>
    obtain hf | hf := List.mem_cons.mp hf
    · cases hf
    · exact replied hr (List.mem_singleton.mp hf)
  | failed hfetched =>
    obtain hf | hf := List.mem_cons.mp hf
    · cases hf
    · cases List.mem_singleton.mp hf
      exact keysFetched_legible hu (ha _ rfl) _ hfetched
  | _ => simp at hf

end KeySets

section Admission

variable {algorithm : Str} {credential : Credential} {header : Payload}

theorem safeValue_spelled (value : Value) : A.Spells (safeValue value) := by
  cases value with
  | str s => exact safeLabel_spelled s
  | _ => exact redacted_spelled

theorem algorithm_spelled (h : algorithm ∈ supportedAlgorithms) :
    A.Spells (String.ofList (replaced algorithm)) := by
  have hall : (supportedAlgorithms.all fun a => (replaced a).all printable) = true := by decide
  exact .literal (List.all_eq_true.mp hall algorithm h)

theorem checkedShape_legible
    (h : ∀ typeName, credential = .other typeName → A.Spells typeName) :
    Legibly A (checkedShape R credential) := by
  cases credential with
  | token token =>
    have hm := fingerprint_spelled (A := A) R (replaced token)
    unfold checkedShape
    refine .ite (.error (invalidCredential_legible (.literal (by decide)))) ?_
    refine .ite (.error (invalidCredential_legible ?_)) ?_
    · exact .append (.framed (by decide) (.nat _) (by decide)) hm
    refine .ite (.error (invalidCredential_legible ?_)) (.ok _)
    exact .append (.literal (by decide)) hm
  | ambiguousBearer => exact .error (invalidCredential_legible (.literal (by decide)))
  | other typeName =>
    exact .error (invalidCredential_legible (.append (.literal (by decide)) (h typeName rfl)))

theorem unverifiedHeader_legible (h : Configured A v) (hm : A.Spells marker) (token : Str) :
    Legibly A (unverifiedHeader v.jwt token marker) := by
  have hunreadable : ∀ name, A.Spells name →
      Legible A (invalidCredential s!"unreadable token header [{name}] {marker}") := by
    intro name hn
    exact invalidCredential_legible (.append (.framed (by decide) hn (by decide)) hm)
  unfold unverifiedHeader
  cases hu : v.jwt.getUnverifiedHeader token with
  | ok header => exact .ok header
  | error failure =>
    have hf := h.header token failure hu
    cases failure with
    | expired => exact .error (hunreadable _ (.literal (by decide)))
    | rejected name => exact .error (hunreadable name hf)
    | escaped exc => exact .error hf

theorem usableKid_legible (hm : A.Spells marker) : Legibly A (usableKid header marker) := by
  have hrefusal : Legible A (invalidCredential s!"token names no key id {marker}") :=
    invalidCredential_legible (.append (.literal (by decide)) hm)
  unfold usableKid
  cases header.get "kid" with
  | str kid => exact .ite (.error hrefusal) (.ok kid)
  | _ => exact .error hrefusal

theorem allowedAlgorithm_legible (hm : A.Spells marker) (allowed : List Str) :
    Legibly A (allowedAlgorithm header allowed marker) := by
  have hrefusal : ∀ value,
      Legible A (invalidCredential s!"alg={safeValue value} is not allowed {marker}") := by
    intro value
    refine invalidCredential_legible ?_
    exact .append (.framed (by decide) (safeValue_spelled value) (by decide)) hm
  unfold allowedAlgorithm
  cases header.get "alg" with
  | str algorithm => exact .ite (.ok algorithm) (.error (hrefusal _))
  | _ => exact .error (hrefusal _)

theorem admitted_legible (h : Configured A v)
    (hc : ∀ typeName, credential = .other typeName → A.Spells typeName) :
    Legibly A (admitted R v credential userModel) := by
  refine .ite (.error (invalidCredential_legible ?_)) ?_
  · exact .append (.literal (by decide)) (.literal (by decide))
  refine (checkedShape_legible hc).bind fun shape hs => ?_
  have hm : A.Spells shape.2 := by
    rw [(checkedShape_ok.mp hs).2.2.2]
    exact fingerprint_spelled R _
  refine (unverifiedHeader_legible h hm shape.1).bind fun header _ => ?_
  refine .bind (.ite (.error (invalidCredential_legible ?_)) (.ok _)) fun _ _ => ?_
  · exact .append (.literal (by decide)) hm
  refine (usableKid_legible hm).bind fun kid _ => ?_
  exact (allowedAlgorithm_legible hm v.algorithms.1).bind fun _ _ => .ok _

theorem carries_of_admitted (h : admitted R v credential userModel = .ok pending)
    (hu : Reporting A userModel) : Carries A pending := by
  obtain ⟨header, -, ha, hm, hmodel⟩ := admitted_ok.mp h
  refine ⟨?_, ha.supported, ?_⟩
  · rw [hm]
    exact fingerprint_spelled R _
  · rw [hmodel]
    exact hu

theorem keyFound_legible (ha : algorithm ∈ supportedAlgorithms) (hm : A.Spells marker)
    (found : Option (Jwk κ)) (kid : Str) : Legibly A (keyFound found kid algorithm marker) := by
  cases found with
  | none =>
    refine .error (invalidCredential_legible ?_)
    exact .append (.framed (by decide) (safeLabel_spelled kid) (by decide)) hm
  | some found =>
    refine .ite (.error (invalidCredential_legible (.append ?_ ?_))) (.ok _)
    · exact .append (.append (.framed (by decide) (algorithm_spelled ha) (by decide))
        (safeLabel_spelled kid)) (.literal (by decide))
    · exact .append (.framed (by decide) (safeLabel_spelled _) (by decide)) hm

end Admission

section Claims

theorem formatted_spelled (number : Number) : A.Spells number.formatted := by
  cases number with
  | nan | negativeZero => exact .literal (by decide)
  | infinite sign => cases sign <;> exact .literal (by decide)
  | finite q =>
    refine .append ?_ (.int _)
    split <;> exact .literal (by decide)

theorem builtin_legible {name : String} (h : A.Spells name) : Legible A (.other name) :=
  ⟨h, .literal (by decide)⟩

theorem asNumber_legible (value : Value) : Legibly A (asNumber value) := by
  cases value with
  | int n =>
    unfold asNumber
    dsimp only
    cases binary64.ofInt n with
    | none => exact .error (builtin_legible (.literal (by decide)))
    | some number => exact .ok _
  | _ => exact .ok _

theorem checkSubject_legible (hm : A.Spells marker) : Legibly A (checkSubject claims marker) := by
  have hrefusal : Legible A (invalidCredential s!"sub identifies nobody {marker}") :=
    invalidCredential_legible (.append (.literal (by decide)) hm)
  unfold checkSubject
  cases claims.get "sub" with
  | str subject => exact .ite (.error hrefusal) (.ok _)
  | _ => exact .error hrefusal

theorem checkLifetime_legible (ceiling : ℚ) (hm : A.Spells marker) :
    Legibly A (checkLifetime claims ceiling marker) := by
  have hunusable : Legible A (invalidCredential s!"iat or exp is not a number {marker}") :=
    invalidCredential_legible (.append (.literal (by decide)) hm)
  refine (asNumber_legible _).bind fun issued _ => (asNumber_legible _).bind fun expires _ => ?_
  cases issued with
  | none => exact .error hunusable
  | some issued =>
    cases expires with
    | none => exact .error hunusable
    | some expires =>
      refine .ite (.error (invalidCredential_legible ?_)) (.ite
        (.error (invalidCredential_legible ?_)) (.ok _))
      · exact .append (.framed (by decide) (formatted_spelled _) (by decide)) hm
      · exact .append (.append (.append (.framed (by decide) (formatted_spelled _) (by decide))
          (formatted_spelled _)) (.literal (by decide))) (.append (.literal (by decide)) hm)

theorem fromtimestamp_legible (number : Number) : Legibly A (fromtimestamp number) := by
  have hmicros : ∀ micros : Int, Legibly A (if within timeRange (micros / 10 ^ 6) = false then
      .error (.other "OverflowError")
      else if within gmtimeRange (micros / 10 ^ 6) = false then .error (.other "OSError")
      else if within datetimeRange (micros / 10 ^ 6) = false then .error (.other "ValueError")
      else .ok (⟨micros, 0⟩ : Moment)) := by
    intro micros
    refine .ite ?_ (.ite ?_ (.ite ?_ (.ok _))) <;>
      exact .error (builtin_legible (.literal (by decide)))
  cases number with
  | nan | infinite sign => exact .error (builtin_legible (.literal (by decide)))
  | negativeZero | finite q => exact hmicros _

theorem expiry_legible (claims : Payload) : Legibly A (expiry claims) := by
  refine (asNumber_legible _).bind fun expires _ => ?_
  cases expires with
  | none => exact .error (builtin_legible (.literal (by decide)))
  | some expires => exact fromtimestamp_legible expires

theorem checkedClaims_legible (hu : Reporting A userModel) (hm : A.Spells marker)
    (claims : Payload) (ceiling : ℚ) :
    Legibly A (checkedClaims claims ceiling userModel marker) := by
  refine (checkSubject_legible hm).bind fun _ _ => (checkLifetime_legible ceiling hm).bind
    fun _ _ => (parseUser_legible hu _).bind fun user _ => ?_
  exact (expiry_legible claims).bind fun _ _ => .ok _

theorem proved_legible (h : Configured A v) (hp : Carries A pending) (key : Jwk κ) (now : ℚ) :
    Legibly A (v.proved pending key now) := by
  refine .bind ?_ fun claims _ => checkedClaims_legible hp.userModel hp.marker claims _
  unfold decoded
  cases hd : v.jwt.decode (v.decoding pending.token key) now with
  | ok claims => exact .ok claims
  | error failure =>
    have hf := h.decode _ now failure hd
    cases failure with
    | expired =>
      exact .error (sessionExpired_legible (.append (.literal (by decide)) hp.marker))
    | rejected name =>
      refine .error (invalidCredential_legible ?_)
      exact .append (.framed (by decide) hf (by decide)) hp.marker
    | escaped exc => exact .error hf

end Claims

section Sections

variable {ending : JwksClient.Ending κ}

theorem concluded_legible (h : Configured A v) (hp : Carries A pending)
    (he : ∀ exc, ending = .raised exc → Legible A exc)
    (hf : .ended (.raised exc) ∈ v.concluded pending now ending) : Legible A exc := by
  have closed : ∀ found, .ended (.raised exc) ∈ v.closed pending now found → Legible A exc := by
    intro found hf
    have hk := keyFound_legible hp.algorithm hp.marker found pending.kid
    unfold Verifier.closed at hf
    cases hfound : keyFound found pending.kid pending.algorithm pending.marker with
    | error e =>
      rw [hfound] at hf
      cases List.mem_singleton.mp hf
      exact hk _ hfound
    | ok key =>
      rw [hfound] at hf
      obtain hf | hf := List.mem_cons.mp hf
      · cases hf
      · cases hp' : v.proved pending key now with
        | ok found =>
          rw [hp'] at hf
          cases List.mem_singleton.mp hf
        | error e =>
          rw [hp'] at hf
          cases List.mem_singleton.mp hf
          exact proved_legible h hp key now _ hp'
  cases ending with
  | key jwk => exact closed (some jwk) hf
  | absent => exact closed none hf
  | raised e =>
    cases List.mem_singleton.mp hf
    exact he _ rfl
  | cancelled => cases List.mem_singleton.mp hf

theorem entered {event : JwksClient.Event} {r : JwksClient.Phase} {before : List (Effect κ υ)}
    (hin : Incoming A e) (hp : ∀ pending k, p = .looking pending k → Carries A pending)
    (h : Enters v R e p pending now event r before) :
    Carries A pending ∧ ∀ answer, event = .answered answer → Raising A answer := by
  cases h with
  | start ha => exact ⟨carries_of_admitted ha hin.2, fun _ he => by cases he⟩
  | lookup => exact ⟨hp _ _ rfl, hin⟩

theorem acts_legible (h : Configured A v) (hin : Incoming A e)
    (hp : ∀ pending k, p = .looking pending k → Carries A pending)
    (ha : Acts v R i s e p t q fs) (hf : .ended (.raised exc) ∈ fs) : Legible A exc := by
  have huri : A.Spells v.keys.uri := .append h.origin (.literal (by decide))
  have asked : ∀ {pending : Pending υ} {now event r before},
      Enters v R e p pending now event r before → .ended (.raised exc) ∉ before := by
    intro pending now event r before he hf
    cases he with
    | start => cases List.mem_singleton.mp hf
    | lookup => cases hf
  have looked : ∀ {gs : List (JwksClient.Effect κ)},
      .ended (.raised exc) ∉ (gs.map .keys : List (Effect κ υ)) := by
    intro gs hf
    obtain ⟨g, -, he⟩ := List.mem_map.mp hf
    cases he
  cases ha with
  | refused ha =>
    cases List.mem_singleton.mp hf
    exact admitted_legible h hin.1 _ ha
  | waits he =>
    obtain hf | hf := List.mem_append.mp hf
    · exact (asked he hf).elim
    · exact (looked hf).elim
  | ends he hk hl =>
    obtain hf | hf := List.mem_append.mp hf
    · exact (asked he hf).elim
    · obtain hf | hf := List.mem_append.mp hf
      · exact (looked hf).elim
      · obtain ⟨hcarries, hraising⟩ := entered hin hp he
        refine concluded_legible h hcarries (fun e hending => ?_) hf
        subst hending
        obtain ⟨kid, hended⟩ := ended_of_lookupEnding hl
        exact lookup_legible huri hraising (JwksSteps.act_moves hk) hended

theorem carries_of_acts (hin : Incoming A e)
    (hp : ∀ pending k, p = .looking pending k → Carries A pending)
    (ha : Acts v R i s e p t q fs) : ∀ pending k, q = .looking pending k → Carries A pending := by
  intro pending k hq
  cases ha with
  | waits he =>
    cases hq
    exact (entered hin hp he).1
  | _ => cases hq

end Sections

section Runs

variable [DecidableEq ι] {tr : History ι κ υ} {w : World ι (Shared ι κ) (Phase υ)}
  {clock : Seconds}

def AllIncoming (A : Alphabet) (tr : History ι κ υ) : Prop :=
  ∀ x ∈ tr, ∀ i e, x.event = .act i e → Incoming A e

/-- What is carried along a run is legible. -/
theorem kept_legible (h : Run (v.machine R) (Verifier.start clock) tr w)
    (hin : AllIncoming A tr) : ∀ i pending k, w.phase i = .looking pending k →
      Carries A pending := by
  refine h.invariant (I := fun tr w => AllIncoming A tr → ∀ i pending k,
    w.phase i = .looking pending k → Carries A pending) ?_ ?_ hin
  · intro _ i pending k hp
    cases hp
  · intro tr w ev u fs hr ih hu hin
    have hp := ih fun x hx => hin x (List.mem_append_left _ hx)
    obtain ⟨j, e, rfl, hm, hother⟩ | ⟨now, -, -, -, rfl⟩ := machine_acts hu
    · have he : Incoming A e := hin _ (List.mem_append_right _ (List.mem_singleton_self _)) j e rfl
      intro i
      by_cases hij : i = j
      · subst hij
        exact carries_of_acts he (hp i) hm
      · rw [hother i hij]
        exact hp i
    · exact hp

/-- Whatever tokens clients present and whatever key sets are published, in every run each refusal
of a call can be written to a log in an alphabet of printable ASCII and the operator's own
letters. -/
theorem jwt_legible (A : Alphabet) (R : Runtime) (v : Verifier κ) (hv : Configured A v)
    (clock : Seconds) (h : Run (v.machine R) (Verifier.start clock) tr w)
    (hin : AllIncoming A tr) : ∀ x ∈ tr, ∀ exc, .ended (.raised exc) ∈ x.effects →
      Legible A exc := by
  intro x hx exc hf
  obtain ⟨a, b, rfl, hr, hstep, -⟩ := h.of_mem hx
  have hp := kept_legible hr fun y hy => hin y (List.mem_append_left _ hy)
  obtain ⟨i, e, hev, ha⟩ := Program.act_of_effect hstep hf
  exact acts_legible hv (hin x hx i e hev) (hp i) (act_acts ha) hf

end Runs

section Sample

/-- A library that reads a kid out of a token that would begin a line of its own in a log. -/
def forgedLibrary : JwtLibrary Unit where
  getUnverifiedHeader _ :=
    .ok [(ofString "kid", .str (ofString "k9\nERROR forged")),
      (ofString "alg", .str (ofString "EdDSA"))]
  decode _ _ := .error (.rejected "InvalidSignatureError")

def forgedVerifier : Verifier Unit := { sampleVerifier 0 0 with jwt := forgedLibrary }

def forgedEvents : List (Happening Nat (Event Unit) Seconds) :=
  [.start (.token sampleToken) sampleModel 0, .lookup .lockAcquired 0, .lookup .lockResumed 0,
    .lookup (.answered JwksThrottle.jwksAnswer) 0].map (.act 0)

def refusalSays (reason : String) : Effect Unit Unit → Bool
  | .ended (.raised exc) => said exc == reason
  | _ => false

theorem forged_configured : Configured ascii forgedVerifier where
  origin := .literal (by decide)
  header _ _ h := by cases h
  decode _ _ _ h := by
    cases h
    exact .literal (by decide)

theorem forged_incoming : ∀ x ∈ forgedEvents, ∀ i e, x = .act i e → Incoming ascii e := by
  have hmodel : Reporting ascii sampleModel :=
    .of_valid (.literal (by decide)) fun payload => ⟨(), rfl⟩
  intro x hx i e he
  subst he
  obtain ⟨f, hf, heq⟩ := List.mem_map.mp hx
  obtain ⟨-, rfl⟩ := Happening.act.inj heq
  simp only [List.mem_cons, List.not_mem_nil, or_false] at hf
  obtain rfl | rfl | rfl | rfl := hf
  · refine ⟨fun typeName h => ?_, hmodel⟩
    cases h
  · exact fun _ h => by cases h
  · exact fun _ h => by cases h
  · intro answer h
    cases h
    exact .response _

end Sample

/-- The kid a client chose is not what the log says. -/
theorem jwt_legible_forged : ∃ (tr : History Nat Unit Unit)
    (w : World Nat (Shared Nat Unit) (Phase Unit)),
    Run (forgedVerifier.machine JwksThrottle.jwksRuntime) (Verifier.start 0) tr w ∧
      (tr.any fun x => x.effects.any
        (refusalSays "no published key for kid=<redacted> tok_fp=00000000")) = true ∧
      ∀ x ∈ tr, ∀ exc, .ended (.raised exc) ∈ x.effects → Legible ascii exc := by
  have h : ((replay (forgedVerifier.machine JwksThrottle.jwksRuntime) (Verifier.start 0)
      forgedEvents).any fun r => r.1.any fun x => x.effects.any
        (refusalSays "no published key for kid=<redacted> tok_fp=00000000")) = true := by
    decide +kernel
  obtain ⟨tr, w, hr, hs, hev⟩ := Run.of_replay_given (P := fun tr => tr.any fun x =>
    x.effects.any (refusalSays "no published key for kid=<redacted> tok_fp=00000000")) h
  exact ⟨tr, w, hr, hs, jwt_legible ascii JwksThrottle.jwksRuntime forgedVerifier
    forged_configured 0 hr fun x hx => forged_incoming x.event (hev x hx)⟩

end BetterAuthBridge.JwtLegibility
