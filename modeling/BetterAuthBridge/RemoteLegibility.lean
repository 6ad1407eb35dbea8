import BetterAuthBridge.Legibility

namespace BetterAuthBridge.RemoteLegibility

open Library Library.Runs Library.Procedure Library.Tasks Library.Failure Library.Spelling Values
open Errors SessionDocument Models Csrf CsrfPolicies CookieParsing Signing RemoteResponse
open RemoteGates RemoteProbe RemoteVerifier RemoteSections RemoteSteps RemoteInvariants
open RemoteSoundness RemoteOutcomes Legibility

variable {ι υ : Type} {A : Alphabet} {R : Runtime} {v : Verifier} {i : ι} {s t : Shared ι}
  {e : Event υ} {p q : Phase υ} {fs : List (Effect υ)} {exc : Exn} {pending : Pending υ}
  {answer : Answer} {uri marker : String}

/-- What an operator's settings put into a refusal is written in the alphabet. -/
structure Configured (A : Alphabet) (R : Runtime) (v : Verifier) : Prop where
  cookie : A.Spells (R.repr v.names.base)
  csrf : Shipped R v.csrf
  header : ∀ header, v.csrf.requiredHeader = some header → A.Spells (R.repr header.toList)
  uri : A.Spells v.uri
  transportName : A.Spells v.transportName
  queueTimeout : A.Spells v.queueTimeoutShown

/-- What comes into a call from its own process is legible; what comes from outside of it, the
credential and the response, is whatever it is. -/
def Incoming (A : Alphabet) : Event υ → Prop
  | .start (.verify _ userModel) => Reporting A userModel
  | .probeAnswered answer | .advised answer | .answered answer _ => Raising A answer
  | _ => True

structure Carries (A : Alphabet) (pending : Pending υ) : Prop where
  marker : A.Spells pending.marker
  userModel : Reporting A pending.userModel

section Admission

theorem rungOne_legible (material : Text) : Legibly A (rungOne R material) := by
  have hm := fingerprint_spelled (A := A) R material
  unfold rungOne
  refine .ite (.error (invalidCredential_legible ?_)) ?_
  · exact .append (.append (.framed (by decide) (.nat _) (by decide)) hm) (.literal (by decide))
  cases unquotedStrictly material with
  | none => exact .error (invalidCredential_legible (.framed (by decide) hm (by decide)))
  | some decoded =>
    dsimp only
    cases Text.rcut '.' decoded with
    | none => exact .error (invalidCredential_legible (.framed (by decide) hm (by decide)))
    | some r =>
      refine .ite (.error (invalidCredential_legible (.framed (by decide) hm (by decide)))) ?_
      refine .ite (.error (invalidCredential_legible (.framed (by decide) hm (by decide)))) ?_
      refine .ite (.error (invalidCredential_legible ?_)) (.ok _)
      exact .append (.append (.framed (by decide) (.nat _) (by decide)) hm) (.literal (by decide))

theorem rungTwo_legible (material : Text) (hm : A.Spells marker) :
    Legibly A (v.rungTwo R material marker) := by
  refine .ite (.ok _) ((parseSignedValue_legible material).bind fun parsed _ => ?_)
  exact (verifySignature_legible hm).bind fun _ _ => .ok _

theorem admitted_legible (h : Configured A R v) (credential : Credential)
    (userModel : UserModel υ) : Legibly A (v.admitted R credential userModel) := by
  cases credential with
  | remote snapshot =>
    refine (resolveNamedCookie_legible h.cookie snapshot.pairs).bind fun r _ => ?_
    refine (rungOne_legible r.2).bind fun token _ => ?_
    refine (enforcePolicy_legible h.csrf h.header snapshot.facts token).bind fun _ _ => ?_
    exact (rungTwo_legible r.2 (fingerprint_spelled R token)).bind fun verified _ => .ok _
  | _ => exact .error (invalidCredential_legible (.literal (by decide)))

theorem carries_of_admitted {credential : Credential} {userModel : UserModel υ}
    (h : Admitted R v credential userModel pending) (hu : Reporting A userModel) :
    Carries A pending := by
  constructor
  · rw [h.marker]
    exact fingerprint_spelled R _
  · rw [h.userModel]
    exact hu

end Admission

section Answers

variable {response : TransportResponse}

theorem fetched_legible {timedOut tooLarge encoded : String} {unreachable : String → String}
    (ht : A.Spells timedOut) (hl : A.Spells tooLarge) (he : A.Spells encoded)
    (hu : ∀ name, A.Spells name → A.Spells (unreachable name)) (h : Raising A answer) :
    Legibly A (fetched timedOut tooLarge encoded unreachable answer) := by
  cases answer with
  | response r => exact .ok r
  | raised exc =>
    refine .ite (.error (h exc rfl)) (.error (authServiceUnavailable_legible ?_))
    cases exc with
    | timeout => exact ht
    | responseTooLarge => exact hl
    | contentEncodingRejected => exact he
    | _ => exact hu _ (h _ rfl).className

theorem fetchTranslated_legible (hv : Configured A R v) (h : Raising A answer) :
    Legibly A (v.fetchTranslated answer) := by
  refine fetched_legible ?_ ?_ (.literal (by decide)) (fun name hn => ?_) h
  · exact .framed (by decide) hv.uri (by decide)
  · exact .framed (by decide) (.nat _) (by decide)
  · exact .append (.framed (by decide) hn (by decide)) hv.uri

theorem probeFetched_legible (hu : A.Spells uri) (maxBytes : Nat) (h : Raising A answer) :
    Legibly A (probeFetched uri maxBytes answer) := by
  refine fetched_legible ?_ ?_ (.literal (by decide)) (fun name hn => ?_) h
  · exact .framed (by decide) hu (by decide)
  · exact .framed (by decide) (.nat _) (by decide)
  · exact .append (.framed (by decide) hn (by decide)) hu

theorem statusFailure_legible (hu : A.Spells uri) (response : TransportResponse) :
    Legible A (statusFailure response uri) := by
  unfold statusFailure
  dsimp only
  split
  · refine authServiceUnavailable_legible (.append (.literal (by decide)) ?_)
    exact .framed (by decide) (.int _) (by decide)
  · split
    · refine authServiceUnavailable_legible ?_
      exact .append (.append (.framed (by decide) (.int _) (by decide)) hu) (.literal (by decide))
    · split
      · refine authServiceUnavailable_legible ?_
        exact .append (.append (.framed (by decide) (.int _) (by decide)) hu)
          (.literal (by decide))
      · exact authServiceUnavailable_legible (.append (.framed (by decide) (.int _) (by decide)) hu)

theorem nullOutcome_legible (verified : Bool) (hm : A.Spells marker) :
    Legible A (nullOutcome verified marker) := by
  cases verified with
  | true => exact sessionRevoked_legible (.framed (by decide) hm (by decide))
  | false => exact invalidCredential_legible (.framed (by decide) hm (by decide))

theorem sessionDocumentFrom_legible (hu : A.Spells uri) (hm : A.Spells marker) (verified : Bool) :
    Legibly A (sessionDocumentFrom R response uri marker verified) := by
  unfold sessionDocumentFrom
  refine .ite (.error (statusFailure_legible hu response)) ?_
  refine .ite (.error (authServiceUnavailable_legible ?_)) ?_
  · exact .append (.append (.framed (by decide) hu (by decide)) (safeLabel_spelled _))
      (.literal (by decide))
  cases R.loads (.bytes response.content) with
  | none => exact .error (authServiceUnavailable_legible (.framed (by decide) hu (by decide)))
  | some value =>
    cases value with
    | none => exact .error (nullOutcome_legible verified hm)
    | dict document =>
      dsimp only
      cases parseSessionDocument R document with
      | none =>
        refine .error (authServiceUnavailable_legible ?_)
        exact .append (.append (.framed (by decide) hu (by decide)) hm) (.literal (by decide))
      | some record => exact .ok record
    | _ => exact .error (authServiceUnavailable_legible (.framed (by decide) hu (by decide)))

theorem statusMessage_spelled (hu : A.Spells uri) (status : Int) :
    A.Spells (statusMessage status uri) := by
  unfold statusMessage
  split
  · exact .append (.append (.append (.framed (by decide) (.int _) (by decide)) hu)
      (.literal (by decide))) (.literal (by decide))
  · exact .append (.append (.append (.framed (by decide) (.int _) (by decide)) hu)
      (.literal (by decide))) (.literal (by decide))

theorem assertNullContract_legible {transportName : String} (hu : A.Spells uri)
    (ht : A.Spells transportName) :
    Legibly A (assertNullContract R response uri transportName) := by
  have hnot : A.Spells notHonoured := .literal (by decide)
  unfold assertNullContract
  refine .ite (.error (configurationError_legible (statusMessage_spelled hu _))) ?_
  refine .ite (.error (configurationError_legible ?_)) ?_
  · exact .append (.append (.framed (by decide) hu (by decide))
      (.framed (by decide) (safeLabel_spelled _) (by decide))) hnot
  cases R.loads (.bytes response.content) with
  | none =>
    refine .error (configurationError_legible ?_)
    exact .append (.append (.framed (by decide) hu (by decide)) (.literal (by decide))) hnot
  | some value =>
    cases value with
    | none => exact .ok _
    | dict document =>
      refine .ite (.error (configurationError_legible ?_)) (.error (configurationError_legible ?_))
      · exact .append (.append (.append (.framed (by decide) hu (by decide))
          (.framed (by decide) ht (by decide))) (.literal (by decide))) (.literal (by decide))
      · exact .append (.framed (by decide) hu (by decide)) hnot
    | _ =>
      refine .error (configurationError_legible ?_)
      exact .append (.framed (by decide) hu (by decide)) hnot

theorem probed_legible (hv : Configured A R v) (h : Raising A answer) :
    Legibly A (probed R v.uri v.transportName v.maxBytes answer) :=
  (probeFetched_legible hv.uri v.maxBytes h).bind fun _ _ =>
    assertNullContract_legible hv.uri hv.transportName

theorem unsignedBearerMessage_spelled (hu : A.Spells uri) :
    A.Spells (unsignedBearerMessage uri) := by
  unfold unsignedBearerMessage
  refine .append (.append (.append (.append (.append (.framed (by decide) hu (by decide)) ?_) ?_)
    ?_) ?_) ?_ <;> exact .literal (by decide)

theorem advise_legible (hv : Configured A R v) (h : Raising A answer) :
    Legibly A (advise v.uri v.maxBytes v.refuseUnsignedBearer answer) := by
  have hf := probeFetched_legible hv.uri v.maxBytes h
  unfold advise
  cases hp : probeFetched v.uri v.maxBytes answer with
  | error exc => exact .ite (.error (hf exc hp)) (.ok _)
  | ok response =>
    exact .ite (.error (configurationError_legible (unsignedBearerMessage_spelled hv.uri))) (.ok _)

theorem session_legible (h : Carries A pending) (record : StoredSession) (now : Readings) :
    Legibly A (Verifier.session record pending now) := by
  unfold Verifier.session
  refine .ite (.error (invalidCredential_legible (.framed (by decide) h.marker (by decide)))) ?_
  refine (expiryChecked_legible (.literal (by decide)) h.marker).bind fun _ _ => ?_
  cases record.user with
  | none => exact .error ⟨.literal (by decide), .literal (by decide)⟩
  | some stored =>
    refine (banChecked_legible h.marker).bind fun _ _ => ?_
    exact sessionBuilt_legible h.userModel pending.token

theorem closing_legible (hv : Configured A R v) (hp : Carries A pending) (ha : Raising A answer)
    (now : Readings) : Legibly A (exec (v.closing R pending answer now) s).1 := by
  have hf := fetchTranslated_legible hv ha
  rw [exec_closing]
  cases hr : v.fetchTranslated answer with
  | error exc => exact .error (hf exc hr)
  | ok response =>
    exact (sessionDocumentFrom_legible hv.uri hp.marker _).bind fun record _ =>
      session_legible hp record now

end Answers

section Sections

theorem startupFailure_legible (hv : Configured A R v) (caller : Caller υ) (h : Legible A exc) :
    Legible A (v.startupFailure caller exc) := by
  unfold Verifier.startupFailure
  split
  · refine configurationError_legible ?_
    exact .append (.append (.append (.append (.append (.framed (by decide) hv.uri (by decide))
      h.said) (.literal (by decide))) (.literal (by decide))) (.literal (by decide)))
      (.literal (by decide))
  · exact h

def Remembered (A : Alphabet) (s : Shared ι) : Prop :=
  ∀ message, s.contractFailure = some message → A.Spells message

theorem Remembered.noted (hs : Remembered A s) (h : Legible A exc) :
    Remembered A (Verifier.noted exc s) := by
  unfold Verifier.noted
  split
  · intro message hm
    cases hm
    exact h.said
  · exact hs

theorem locked_legible {caller : Caller υ} (hv : Configured A R v) (hs : Remembered A s)
    (h : v.locked caller s = (t, q, fs)) (hf : .ended (.raised exc) ∈ fs) : Legible A exc := by
  have refused : ∀ {e : Exn} {gs : List (Effect υ)}, Legible A e →
      (.finished, gs) = v.refused caller e → .ended (.raised exc) ∈ gs → Legible A exc := by
    intro e gs he hg hm
    obtain ⟨-, rfl⟩ := Prod.mk.inj hg
    cases List.mem_singleton.mp hm
    exact startupFailure_legible hv caller he
  unfold Verifier.locked at h
  split at h
  · obtain ⟨-, hq⟩ := Prod.mk.inj h
    obtain ⟨-, -, rfl⟩ | ⟨_, -, -, rfl⟩ := passed_eq hq <;> simp at hf
  · split at h
    · rename_i message hm
      cases h
      exact refused (configurationError_legible (hs message hm)) rfl hf
    · split at h
      · cases h
        simp at hf
      · cases h
        exact refused (authServiceUnavailable_legible (.literal (by decide))) rfl hf

variable [DecidableEq ι]

/-- One section, of whatever call, says nothing that is not legible. -/
theorem act_legible (hv : Configured A R v) (hs : Remembered A s) (he : Incoming A e)
    (hp : ∀ pending, pendingOf p = some pending → Carries A pending)
    (h : v.act R i e s p = some (t, q, fs)) (hf : .ended (.raised exc) ∈ fs) : Legible A exc := by
  have only : ∀ {g : Exn}, .ended (.raised exc) ∈ ([.ended (.raised g)] : List (Effect υ)) →
      exc = g := by
    intro g hg
    cases List.mem_singleton.mp hg
    rfl
  have hm := act_moves h
  cases hm with
  | turnedAway ht =>
    obtain rfl := only hf
    cases ht with
    | credential ha => exact admitted_legible hv _ _ _ ha
    | remembered ha => exact nullOutcome_legible _ (carries_of_admitted ha he).marker
    | rateLimited ha =>
      have hmarker := (carries_of_admitted ha he).marker
      exact authServiceUnavailable_legible (.framed (by decide) hmarker (by decide))
  | readyAtOnce _ _ hq | readyUnderLock _ hq =>
    obtain ⟨-, -, rfl⟩ | ⟨_, -, -, rfl⟩ := passed_eq hq <;> simp at hf
  | refusedAtOnce hr hc =>
    obtain rfl := only hf
    refine startupFailure_legible hv _ (configurationError_legible (hs _ ?_))
    rw [← hc]
    cases hr <;> rfl
  | refusedUnderLock => exact locked_legible hv hs (Option.some.inj h) hf
  | rungFailed hr =>
    obtain rfl := only ((List.mem_cons.mp hf).resolve_left nofun)
    exact startupFailure_legible hv _ (probed_legible hv he _ hr)
  | probePassed _ hq =>
    obtain ⟨-, -, rfl⟩ | ⟨_, -, -, rfl⟩ := passed_eq hq <;> simp at hf
  | probeFailed hr =>
    obtain rfl := only ((List.mem_cons.mp hf).resolve_left nofun)
    exact startupFailure_legible hv _ (advise_legible hv he _ hr)
  | queueTimedOut =>
    obtain rfl := only hf
    exact authServiceUnavailable_legible (.framed (by decide) hv.queueTimeout (by decide))
  | failed hc =>
    obtain rfl := only hf
    exact closing_legible hv (hp _ rfl) he _ _ (congrArg Prod.fst hc)
  | _ => simp at hf

theorem remembered_of_moves (hv : Configured A R v) (hs : Remembered A s) (he : Incoming A e)
    (h : Moves R v i s e p t q fs) : Remembered A t := by
  have kept : ∀ {u : Shared ι}, u.contractFailure = s.contractFailure → Remembered A u := by
    intro u hu message hm
    exact hs message (hu ▸ hm)
  cases h with
  | turnedAway h => exact kept h.aside.contractFailure
  | readyAtOnce h | refusedAtOnce h | queued h => exact kept h.aside.contractFailure
  | answered h | failed h => exact kept (closing_aside h).contractFailure
  | rungFailed hr => exact Remembered.noted hs (probed_legible hv he _ hr)
  | probeFailed hr => exact Remembered.noted hs (advise_legible hv he _ hr)
  | _ => exact kept rfl

theorem carries_of_moves (he : Incoming A e)
    (hp : ∀ pending, pendingOf p = some pending → Carries A pending)
    (h : Moves R v i s e p t q fs) : ∀ pending, pendingOf q = some pending → Carries A pending := by
  intro pending hq
  obtain hold | ⟨credential, userModel, -, rfl, ha⟩ := h.pending hq
  · exact hp pending hold
  · exact carries_of_admitted ha he

end Sections

section Runs

variable [DecidableEq ι] {tr : History ι υ} {w : World ι (Shared ι) (Phase υ)} {clock : Seconds}

def AllIncoming (A : Alphabet) (tr : History ι υ) : Prop :=
  ∀ x ∈ tr, ∀ i e, x.event = .act i e → Incoming A e

/-- What is remembered and what is carried along a run is legible. -/
theorem kept_legible (hv : Configured A R v) (h : Run (v.machine R) (Verifier.start clock) tr w)
    (hin : AllIncoming A tr) : Remembered A w.shared ∧
      ∀ i pending, pendingOf (w.phase i) = some pending → Carries A pending := by
  refine h.invariant (I := fun tr w => AllIncoming A tr → Remembered A w.shared ∧
    ∀ i pending, pendingOf (w.phase i) = some pending → Carries A pending) ?_ ?_ hin
  · exact fun _ => ⟨nofun, nofun⟩
  · intro tr w ev u fs hr ih hu hin
    obtain ⟨hs, hp⟩ := ih fun x hx => hin x (List.mem_append_left _ hx)
    obtain ⟨j, e, rfl, hm, hother⟩ | ⟨now, -, -, -, rfl⟩ := machine_moves hu
    · have he : Incoming A e := hin _ (List.mem_append_right _ (List.mem_singleton_self _)) j e rfl
      refine ⟨remembered_of_moves hv hs he hm, fun i pending hi => ?_⟩
      by_cases hij : i = j
      · subst hij
        exact carries_of_moves he (hp i) hm pending hi
      · rw [hother i hij] at hi
        exact hp i pending hi
    · exact ⟨hs, hp⟩

/-- Whatever clients present and whatever upstream answers, in every run each refusal of a call can
be written to a log in an alphabet of printable ASCII and the operator's own letters. -/
theorem remote_legible (A : Alphabet) (R : Runtime) (v : Verifier) (hv : Configured A R v)
    (clock : Seconds) (h : Run (v.machine R) (Verifier.start clock) tr w)
    (hin : AllIncoming A tr) : ∀ x ∈ tr, ∀ exc, .ended (.raised exc) ∈ x.effects →
      Legible A exc := by
  intro x hx exc hf
  obtain ⟨a, b, rfl, hr, hstep, -⟩ := h.of_mem hx
  obtain ⟨hs, hp⟩ := kept_legible hv hr fun y hy => hin y (List.mem_append_left _ hy)
  obtain ⟨i, e, hev, ha⟩ := Program.act_of_effect hstep hf
  exact act_legible hv hs (hin x hx i e hev) (hp i) ha hf

end Runs

section Sample

def forgedAnswer : Answer :=
  .response ⟨200, [("content-type".toList, "text/html\nERROR forged".toList)], []⟩

def forgedEvents : List (Happening Nat (Event Payload) Seconds) :=
  [.start (.verify (.remote sampleSnapshot) sampleUser), .lockAcquired, .lockResumed,
    .probeAnswered (jsonAnswer "null"), .advised (jsonAnswer "null"), .slotAcquired, .slotResumed,
    .answered forgedAnswer ⟨0, 0⟩].map (.act 0)

def refusalSays (reason : String) : Effect Payload → Bool
  | .ended (.raised exc) => said exc == reason
  | _ => false

theorem sample_configured : Configured ascii sampleRuntime plainVerifier where
  cookie := .framed (by decide) (.literal (by decide)) (by decide)
  csrf := .csrfDisabled sampleDisabled
  header _ h := by cases h
  uri := .literal (by decide)
  transportName := .literal (by decide)
  queueTimeout := .literal (by decide)

theorem forged_incoming : ∀ x ∈ forgedEvents, ∀ i e, x = .act i e → Incoming ascii e := by
  have huser : Reporting ascii sampleUser :=
    .of_valid (.literal (by decide)) fun payload => ⟨payload, rfl⟩
  intro x hx i e he
  subst he
  obtain ⟨f, hf, heq⟩ := List.mem_map.mp hx
  obtain ⟨-, rfl⟩ := Happening.act.inj heq
  simp only [List.mem_cons, List.not_mem_nil, or_false] at hf
  obtain rfl | rfl | rfl | rfl | rfl | rfl | rfl | rfl := hf
  · exact huser
  all_goals first | exact trivial | exact .response _

end Sample

/-- What upstream sent is not what the log says. -/
theorem remote_legible_forged :
    ∃ (tr : History Nat Payload) (w : World Nat (Shared Nat) (Phase Payload)),
      Run (plainVerifier.machine sampleRuntime) (Verifier.start 0) tr w ∧
        (tr.any fun x => x.effects.any (refusalSays
          s!"get-session at {plainVerifier.uri} is served as <redacted>, not JSON")) = true ∧
        ∀ x ∈ tr, ∀ exc, .ended (.raised exc) ∈ x.effects → Legible ascii exc := by
  have h : ((replay (plainVerifier.machine sampleRuntime) (Verifier.start 0) forgedEvents).any
      fun r => r.1.any fun x => x.effects.any (refusalSays
        s!"get-session at {plainVerifier.uri} is served as <redacted>, not JSON")) = true := by
    decide +kernel
  obtain ⟨tr, w, hr, hs, hev⟩ := Run.of_replay_given (P := fun tr => tr.any fun x =>
    x.effects.any (refusalSays
      s!"get-session at {plainVerifier.uri} is served as <redacted>, not JSON")) h
  exact ⟨tr, w, hr, hs, remote_legible ascii sampleRuntime plainVerifier sample_configured 0 hr
    fun x hx => forged_incoming x.event (hev x hx)⟩

end BetterAuthBridge.RemoteLegibility
