import BetterAuthBridge.CsrfPolicies
import BetterAuthBridge.Library.Failure
import BetterAuthBridge.RemoteCache

namespace BetterAuthBridge.RemoteOutcomes

open Library Library.Runs Library.Procedure Library.Tasks Library.Failure Values Errors
open SessionDocument Models Csrf CsrfPolicies CookieParsing Signing RemoteResponse RemoteGates
open RemoteProbe RemoteVerifier RemoteSections RemoteSteps RemoteInvariants RemoteSoundness
open RemoteCache

variable {ι υ : Type} {R : Runtime} {v : Verifier} {i : ι} {s t : Shared ι} {e : Event υ}
  {p q : Phase υ} {fs : List (Effect υ)} {exc : Exn} {pending : Pending υ}

abbrev InLibrary {α : Type} (x : Except Exn α) : Prop := Fails (fun exc => exc.isLibrary = true) x

/-- The model accepts a payload or refuses it with a `ValidationError`. -/
def Validates (userModel : UserModel υ) : Prop :=
  ∀ payload exc, userModel.modelValidate payload ≠ .raised exc

section Admission

variable {base material token signature : Text} {marker : String} {pairs : List Pair}
  {policy : CsrfPolicy}

theorem reassembled_fails (chunks : List (Nat × Text)) (base : Text) :
    InLibrary (reassembled R chunks base) := by
  unfold reassembled
  exact .ite (.error rfl) (.ite (.error rfl) (.ok _))

theorem valueForBase_fails (pairs : List Pair) (base : Text) :
    InLibrary (valueForBase R pairs base) := by
  unfold valueForBase
  split
  · exact .ok _
  · exact .error rfl
  · exact .ite (.error rfl) (.ok _)
  · exact (reassembled_fails _ base).map some

theorem resolveNamedCookie_fails (pairs : List Pair) (base : Text) :
    InLibrary (resolveNamedCookie R pairs base) := by
  refine (valueForBase_fails pairs base).bind fun found _ => ?_
  cases found with
  | none => exact .error rfl
  | some value => exact .ok _

theorem rungOne_fails (material : Text) : InLibrary (rungOne R material) := by
  unfold rungOne
  refine .ite (.error rfl) ?_
  cases unquotedStrictly material with
  | none => exact .error rfl
  | some decoded =>
    dsimp only
    cases Text.rcut '.' decoded with
    | none => exact .error rfl
    | some r => exact .ite (.error rfl) (.ite (.error rfl) (.ite (.error rfl) (.ok _)))

theorem rejectBadOrigin_fails (facts : CsrfFacts) (allowed : List Bytes) :
    InLibrary (rejectBadOrigin facts allowed) := by
  unfold rejectBadOrigin
  refine .ite (.error rfl) ?_
  cases facts.origin with
  | none => exact .error rfl
  | some origin => exact .ite (.error rfl) (.ite (.error rfl) (.ite (.ok _) (.error rfl)))

theorem presentedHeader_fails (facts : CsrfFacts) (name : Text) :
    InLibrary (presentedHeader R facts name) := by
  unfold presentedHeader
  refine .ite (.error rfl) ?_
  cases facts.headerValue with
  | none => exact .error rfl
  | some value => exact .ite (.error rfl) (.ok _)

theorem enforcePolicy_answerOf {name : String} {header : Option String}
    {check : CsrfFacts → Text → Except Exn Unit} (facts : CsrfFacts) (token : Text) :
    enforcePolicy ⟨name, header, fun facts token => answerOf (check facts token)⟩ facts token =
      check facts token := by
  unfold enforcePolicy
  dsimp only
  cases check facts token <;> rfl

theorem enforcePolicy_fails (h : Shipped R policy) (facts : CsrfFacts) (token : Text) :
    InLibrary (enforcePolicy policy facts token) := by
  cases h with
  | originCheck policy =>
    rw [OriginCheck.toPolicy, enforcePolicy_answerOf]
    unfold OriginCheck.check
    refine .ite ((rejectBadOrigin_fails facts _).bind fun _ _ => ?_) (.ok _)
    cases policy.header with
    | none => exact .ok _
    | some name => exact (presentedHeader_fails facts name).map _
  | signedDoubleSubmit policy =>
    rw [SignedDoubleSubmit.toPolicy, enforcePolicy_answerOf]
    unfold SignedDoubleSubmit.check
    refine .ite ((rejectBadOrigin_fails facts _).bind fun _ _ => ?_) (.ok _)
    exact (presentedHeader_fails facts _).bind fun presented _ => .ite (.ok _) (.error rfl)
  | csrfDisabled policy => exact .ok _

theorem parseSignedValue_fails (material : Text) : InLibrary (parseSignedValue R material) := by
  unfold parseSignedValue
  refine .ite (.error rfl) ?_
  cases unquotedStrictly material with
  | none => exact .error rfl
  | some decoded =>
    dsimp only
    cases Text.rcut '.' decoded with
    | none => exact .error rfl
    | some r =>
      refine .ite (.error rfl) (.ite (.error rfl) ?_)
      cases standardBase64 r.2 with
      | none => exact .error rfl
      | some digest => exact .ite (.error rfl) (.ok _)

/-- A signature is only compared once it was read as base64, which is ASCII. -/
theorem rungTwo_fails (material : Text) (marker : String) :
    InLibrary (v.rungTwo R material marker) := by
  unfold Verifier.rungTwo
  refine .ite (.ok _) ((parseSignedValue_fails material).bind fun parsed hp => ?_)
  refine .bind ?_ fun _ _ => .ok _
  obtain ⟨-, -, -, -, digest, hd, -⟩ := parseSignedValue_ok.mp hp
  have hascii : parsed.signature.all isAscii = true := by
    rw [List.all_eq_true]
    intro c hc
    exact decide_eq_true (Base64.ascii_of_decode hd c hc)
  rw [verifySignature, if_pos hascii]
  exact .ite (.ok _) (.error rfl)

theorem admitted_fails (h : Shipped R v.csrf) (credential : Credential)
    (userModel : UserModel υ) : InLibrary (v.admitted R credential userModel) := by
  cases credential with
  | remote snapshot =>
    refine (resolveNamedCookie_fails snapshot.pairs v.names.base).bind fun r _ => ?_
    refine (rungOne_fails r.2).bind fun token _ => ?_
    refine (enforcePolicy_fails h snapshot.facts token).bind fun _ _ => ?_
    exact (rungTwo_fails r.2 _).bind fun verified _ => .ok _
  | _ => exact .error rfl

end Admission

section Answers

variable {response : TransportResponse} {record : StoredSession} {stored : StoredUser}

/-- What a response is read as: a record, an unreadable answer, or the null outcome, which is the
one that may be remembered. -/
inductive Mapped (R : Runtime) (response : TransportResponse) (null : Exn) :
    Except Exn StoredSession → Prop
  | record {record : StoredSession} : isCacheableNull R response = false →
      Mapped R response null (.ok record)
  | unavailable {exc : Exn} : isCacheableNull R response = false → exc.isUnavailable = true →
      Mapped R response null (.error exc)
  | null : isCacheableNull R response = true → Mapped R response null (.error null)

theorem statusFailure_isUnavailable (response : TransportResponse) (uri : String) :
    (statusFailure response uri).isUnavailable = true := by
  unfold statusFailure
  dsimp only
  split
  · rfl
  · split
    · rfl
    · split <;> rfl

theorem sessionDocumentFrom_mapped (response : TransportResponse) (uri marker : String)
    (verified : Bool) : Mapped R response (nullOutcome verified marker)
      (sessionDocumentFrom R response uri marker verified) := by
  unfold sessionDocumentFrom
  by_cases hs : response.statusCode = 200
  · by_cases hm : mediaType response = jsonMediaType
    · rw [if_neg (not_not.mpr hs), if_neg (not_not.mpr hm)]
      cases hl : R.loads (.bytes response.content) with
      | none => exact .unavailable (by simp [isCacheableNull, hl]) rfl
      | some value =>
        cases value with
        | none => exact .null (isCacheableNull_iff.mpr ⟨hs, hm, hl⟩)
        | dict document =>
          dsimp only
          cases parseSessionDocument R document with
          | none => exact .unavailable (by simp [isCacheableNull, hl]) rfl
          | some record => exact .record (by simp [isCacheableNull, hl])
        | _ => exact .unavailable (by simp [isCacheableNull, hl]) rfl
    · rw [if_neg (not_not.mpr hs), if_pos hm]
      exact .unavailable (by simp [isCacheableNull, hm]) rfl
  · rw [if_pos hs]
    exact .unavailable (by simp [isCacheableNull, hs]) (statusFailure_isUnavailable response uri)

theorem nullOutcome_isUnavailable (verified : Bool) (marker : String) :
    (nullOutcome verified marker).isUnavailable = false := by
  cases verified <;> rfl

theorem nullOutcome_isLibrary (verified : Bool) (marker : String) :
    (nullOutcome verified marker).isLibrary = true := by
  cases verified <;> rfl

theorem isLibrary_of_isUnavailable (h : exc.isUnavailable = true) : exc.isLibrary = true := by
  cases exc with
  | session kind name reason => rfl
  | _ => cases h

/-- The two readers of a response agree on which one is null. -/
theorem nullOutcome_iff {uri marker : String} {verified : Bool} :
    sessionDocumentFrom R response uri marker verified = .error (nullOutcome verified marker) ↔
      isCacheableNull R response = true := by
  have hm : Mapped R response (nullOutcome verified marker)
      (sessionDocumentFrom R response uri marker verified) := sessionDocumentFrom_mapped ..
  generalize sessionDocumentFrom R response uri marker verified = result at hm
  cases hm with
  | record hc => simp [hc]
  | unavailable hc hu =>
    rw [hc]
    refine ⟨fun h => ?_, fun h => (Bool.false_ne_true h).elim⟩
    obtain rfl := Except.error.inj h
    rw [nullOutcome_isUnavailable] at hu
    cases hu
  | null hc => simp [hc]

theorem sessionDocumentFrom_fails (response : TransportResponse) (uri marker : String)
    (verified : Bool) : InLibrary (sessionDocumentFrom R response uri marker verified) := by
  have hm : Mapped R response (nullOutcome verified marker)
      (sessionDocumentFrom R response uri marker verified) := sessionDocumentFrom_mapped ..
  generalize sessionDocumentFrom R response uri marker verified = result at hm
  cases hm with
  | record => exact .ok _
  | unavailable _ hu => exact .error (isLibrary_of_isUnavailable hu)
  | null => exact .error (nullOutcome_isLibrary verified marker)

theorem fetched_fails {timedOut tooLarge encoded : String} {unreachable : String → String}
    (answer : Answer) : InLibrary (fetched timedOut tooLarge encoded unreachable answer) := by
  cases answer with
  | response r => exact .ok r
  | raised exc =>
    unfold fetched
    dsimp only
    split
    · exact .error ‹_›
    · exact .error rfl

theorem assertNullContract_fails (response : TransportResponse) (uri transportName : String) :
    InLibrary (assertNullContract R response uri transportName) := by
  unfold assertNullContract
  refine .ite (.error rfl) (.ite (.error rfl) ?_)
  cases R.loads (.bytes response.content) with
  | none => exact .error rfl
  | some value =>
    cases value with
    | none => exact .ok _
    | dict document => exact .ite (.error rfl) (.error rfl)
    | _ => exact .error rfl

theorem probed_fails (uri transportName : String) (maxBytes : Nat) (answer : Answer) :
    InLibrary (probed R uri transportName maxBytes answer) :=
  (fetched_fails answer).bind fun response _ => assertNullContract_fails response uri _

theorem advise_fails (uri : String) (maxBytes : Nat) (refuse : Bool) (answer : Answer) :
    InLibrary (advise uri maxBytes refuse answer) := by
  have hf : InLibrary (probeFetched uri maxBytes answer) := fetched_fails answer
  unfold advise
  cases hp : probeFetched uri maxBytes answer with
  | error exc => exact .ite (.error (hf exc hp)) (.ok _)
  | ok response => exact .ite (.error rfl) (.ok _)

theorem parseUser_fails {userModel : UserModel υ} (h : Validates userModel) (payload : Payload) :
    InLibrary (parseUser userModel payload) := by
  unfold parseUser
  cases hv : userModel.modelValidate payload with
  | valid user => exact .ok _
  | invalid errors => exact .error rfl
  | raised exc => exact (h payload exc hv).elim

theorem session_fails {now : Readings} (hu : record.user = some stored)
    (hv : Validates pending.userModel) : InLibrary (Verifier.session record pending now) := by
  unfold Verifier.session
  refine .ite (.error rfl) (.bind (.ite (.error rfl) (.ok _)) fun _ _ => ?_)
  rw [hu]
  refine .bind (.ite (.error rfl) (.ok _)) fun _ _ => ?_
  exact (parseUser_fails hv stored.payload).bind fun parsed _ => .ok _

theorem closing_fails (hv : Validates pending.userModel) (answer : Answer) (now : Readings) :
    InLibrary (exec (v.closing R pending answer now) s).1 := by
  have hf : InLibrary (v.fetchTranslated answer) := fetched_fails answer
  rw [exec_closing]
  cases hr : v.fetchTranslated answer with
  | error exc => exact .error (hf exc hr)
  | ok response =>
    refine (sessionDocumentFrom_fails response v.uri _ _).bind fun record hrec => ?_
    obtain ⟨-, -, document, -, hp⟩ := sessionDocumentFrom_ok.mp hrec
    obtain ⟨⟨stored, hu⟩, -⟩ := parseSessionDocument_spec R hp
    exact session_fails hu hv

end Answers

section Sections

inductive Proper : Event υ → Ending υ → Prop
  | session {e : Event υ} {found : Session υ} : Proper e (.session found)
  | raised {e : Event υ} {exc : Exn} : exc.isLibrary = true → Proper e (.raised exc)
  | cancelled : Proper .cancelled .cancelled

theorem startupFailure_isLibrary (caller : Caller υ) (h : exc.isLibrary = true) :
    (v.startupFailure caller exc).isLibrary = true := by
  unfold Verifier.startupFailure
  split
  · rfl
  · exact h

theorem locked_ended {caller : Caller υ} {ending : Ending υ} (h : v.locked caller s = (t, q, fs))
    (hf : .ended ending ∈ fs) : ending = .prepared ∧ caller = .prepare ∨
      ∃ exc, ending = .raised exc ∧ exc.isLibrary = true := by
  have refused : ∀ {exc : Exn} {gs : List (Effect υ)}, exc.isLibrary = true →
      (.finished, gs) = v.refused caller exc → .ended ending ∈ gs →
      ∃ exc, ending = .raised exc ∧ exc.isLibrary = true := by
    intro exc gs hl hg hm
    obtain ⟨-, rfl⟩ := Prod.mk.inj hg
    obtain rfl := Effect.ended.inj (List.mem_singleton.mp hm)
    exact ⟨_, rfl, startupFailure_isLibrary caller hl⟩
  unfold Verifier.locked at h
  split at h
  · obtain ⟨-, hq⟩ := Prod.mk.inj h
    obtain ⟨rfl, -, rfl⟩ | ⟨_, -, -, rfl⟩ := passed_eq hq
    · exact .inl ⟨Effect.ended.inj (List.mem_singleton.mp hf), rfl⟩
    · cases hf
  · split at h
    · cases h
      exact .inr (refused rfl rfl hf)
    · split at h
      · cases h
        simp at hf
      · cases h
        exact .inr (refused rfl rfl hf)

def stage : Phase υ → Nat
  | .idle => 0
  | .waitingLock _ => 1
  | .lockGranted _ => 2
  | .probing .. => 3
  | .advising .. => 4
  | .waitingSlot _ => 5
  | .slotGranted _ => 6
  | .fetching _ => 7
  | .finished => 8

/-- The events that a call at this place cannot but take. -/
inductive Due : Event υ → Phase υ → Prop
  | start (call : Call υ) : Due (.start call) .idle
  | lockResumed (caller : Caller υ) : Due .lockResumed (.lockGranted caller)
  | probeAnswered (answer : Answer) (caller : Caller υ) (previous : Option Seconds) :
      Due (.probeAnswered answer) (.probing caller previous)
  | advised (answer : Answer) (caller : Caller υ) (previous : Option Seconds) :
      Due (.advised answer) (.advising caller previous)
  | queueTimedOut (pending : Pending υ) : Due .queueTimedOut (.waitingSlot pending)
  | slotResumed (pending : Pending υ) : Due .slotResumed (.slotGranted pending)
  | answered (answer : Answer) (now : Readings) (pending : Pending υ) :
      Due (.answered answer now) (.fetching pending)

variable [DecidableEq ι]

theorem act_due (h : Due e p) : ∃ t q fs, v.act R i e s p = some (t, q, fs) := by
  cases h <;> exact ⟨_, _, _, rfl⟩

/-- Every section brings its call nearer to its end, and the end is told. -/
theorem advances_of_moves (h : Moves R v i s e p t q fs) :
    stage p < stage q ∧ (q = .finished → ∃ ending, .ended ending ∈ fs) := by
  have past : ∀ {caller : Caller υ} {r gs}, Verifier.passed caller = (r, gs) → 4 < stage r ∧
      (r = .finished → ∃ ending, .ended ending ∈ gs) := by
    intro caller r gs hp
    obtain ⟨-, rfl, rfl⟩ | ⟨pending, -, rfl, -⟩ := passed_eq hp
    · exact ⟨by simp [stage], fun _ => ⟨.prepared, List.mem_singleton_self _⟩⟩
    · exact ⟨by simp [stage], nofun⟩
  cases h with
  | readyAtOnce _ _ hp =>
    obtain ⟨hlt, he⟩ := past hp
    exact ⟨Nat.lt_of_le_of_lt (Nat.zero_le 4) hlt, he⟩
  | readyUnderLock _ hp =>
    obtain ⟨hlt, he⟩ := past hp
    have htwo : 2 ≤ 4 := by decide
    exact ⟨Nat.lt_of_le_of_lt htwo hlt, he⟩
  | probePassed _ hp =>
    obtain ⟨hlt, he⟩ := past hp
    refine ⟨hlt, fun hq => ?_⟩
    obtain ⟨ending, hm⟩ := he hq
    exact ⟨ending, List.mem_cons_of_mem _ hm⟩
  | waitAbandoned hp =>
    obtain ⟨_, rfl⟩ | ⟨_, rfl⟩ := hp <;> exact ⟨by simp [stage], fun _ => ⟨.cancelled, by simp⟩⟩
  | probeAbandoned hp =>
    obtain rfl | rfl := hp <;> exact ⟨by simp [stage], fun _ => ⟨.cancelled, by simp⟩⟩
  | slotAbandoned hp =>
    obtain rfl | rfl := hp <;> exact ⟨by simp [stage], fun _ => ⟨.cancelled, by simp⟩⟩
  | _ => simp [stage]

theorem unfinished_of_moves (h : Moves R v i s e p t q fs) : p ≠ .finished := by
  rintro rfl
  have hlt := (advances_of_moves h).1
  cases q <;> simp [stage] at hlt

theorem carried_of_moves (h : Moves R v i s e p t q fs)
    (hp : (pendingOf p).isSome = true ∨
      ∃ credential userModel, e = .start (.verify credential userModel)) :
    q = .finished ∨ (pendingOf q).isSome = true := by
  have past : ∀ {caller : Caller υ} {r gs}, Verifier.passed caller = (r, gs) →
      r = .finished ∨ (pendingOf r).isSome = true := by
    intro caller r gs hp
    obtain ⟨-, rfl, -⟩ | ⟨pending, -, rfl, -⟩ := passed_eq hp
    · exact .inl rfl
    · exact .inr rfl
  cases h with
  | readyAtOnce _ _ hq | readyUnderLock _ hq | probePassed _ hq => exact past hq
  | queued hr =>
    cases hr with
    | prepare =>
      obtain hn | ⟨_, _, he⟩ := hp
      · cases hn
      · cases he
    | verify => exact .inr rfl
  | lockAcquired | probeStarted | rungPassed =>
    obtain hs | ⟨_, _, he⟩ := hp
    · exact .inr hs
    · cases he
  | slotAcquired | sent => exact .inr rfl
  | _ => exact .inl rfl

theorem act_ended {ending : Ending υ} (hcsrf : Shipped R v.csrf)
    (hv : ∀ pending, pendingOf p = some pending → Validates pending.userModel)
    (h : v.act R i e s p = some (t, q, fs)) (hf : .ended ending ∈ fs) :
    Proper e ending ∨ pendingOf p = none ∧
      ∀ credential userModel, e ≠ .start (.verify credential userModel) := by
  have only : ∀ {g : Ending υ}, .ended ending ∈ [Effect.ended g] → ending = g := by
    intro g hg
    exact Effect.ended.inj (List.mem_singleton.mp hg)
  have second : ∀ {f : Effect υ} {g : Ending υ}, .ended ending ≠ f →
      .ended ending ∈ [f, .ended g] → ending = g := by
    intro f g hne hg
    exact only ((List.mem_cons.mp hg).resolve_left hne)
  have hm := act_moves h
  cases hm with
  | turnedAway ht =>
    obtain rfl := only hf
    cases ht with
    | credential ha => exact .inl (.raised (admitted_fails hcsrf _ _ _ ha))
    | remembered => exact .inl (.raised (nullOutcome_isLibrary ..))
    | rateLimited => exact .inl (.raised rfl)
  | readyAtOnce hr _ hq =>
    obtain ⟨rfl, -, rfl⟩ | ⟨_, -, -, rfl⟩ := passed_eq hq
    · cases hr
      exact .inr ⟨rfl, by simp⟩
    · cases hf
  | refusedAtOnce =>
    obtain rfl := only hf
    exact .inl (.raised (startupFailure_isLibrary _ rfl))
  | readyUnderLock _ hq =>
    obtain ⟨rfl, -, rfl⟩ | ⟨_, -, -, rfl⟩ := passed_eq hq
    · exact .inr ⟨rfl, by simp⟩
    · cases hf
  | refusedUnderLock =>
    obtain ⟨rfl, rfl⟩ | ⟨exc, rfl, hl⟩ := locked_ended (Option.some.inj h) hf
    · exact .inr ⟨rfl, by simp⟩
    · exact .inl (.raised hl)
  | rungFailed hp =>
    obtain rfl := second (by simp) hf
    exact .inl (.raised (startupFailure_isLibrary _ (probed_fails _ _ _ _ _ hp)))
  | probePassed _ hq =>
    obtain ⟨rfl, -, rfl⟩ | ⟨_, -, -, rfl⟩ := passed_eq hq
    · exact .inr ⟨rfl, by simp⟩
    · simp at hf
  | probeFailed hp =>
    obtain rfl := second (by simp) hf
    exact .inl (.raised (startupFailure_isLibrary _ (advise_fails _ _ _ _ _ hp)))
  | queueTimedOut =>
    obtain rfl := only hf
    exact .inl (.raised rfl)
  | answered =>
    obtain rfl := only hf
    exact .inl .session
  | failed hc =>
    obtain rfl := only hf
    exact .inl (.raised (closing_fails (hv _ rfl) _ _ _ (congrArg Prod.fst hc)))
  | waitAbandoned | lockAbandoned | slotAbandoned =>
    obtain rfl := only hf
    exact .inl .cancelled
  | probeAbandoned =>
    obtain rfl := second (by simp) hf
    exact .inl .cancelled
  | _ => simp at hf

end Sections

section Runs

variable [DecidableEq ι] {tr : History ι υ} {w : World ι (Shared ι) (Phase υ)} {clock : Seconds}
  {material : Text}

def Verifying (i : ι) (tr : History ι υ) : Prop :=
  ∃ y ∈ tr, ∃ credential userModel, y.event = .act i (.start (.verify credential userModel))

def AllValidate (tr : History ι υ) : Prop :=
  ∀ x ∈ tr, ∀ i credential userModel,
    x.event = .act i (.start (.verify credential userModel)) → Validates userModel

def NullAnswered (R : Runtime) (v : Verifier) (i : ι) (pending : Pending υ)
    (x : Transition (World ι (Shared ι) (Phase υ)) (Happening ι (Event υ) Seconds) (Effect υ)) :
    Prop :=
  x.before.phase i = .fetching pending ∧ ∃ response now,
    x.event = .act i (.answered (.response response) now) ∧
      sessionDocumentFrom R response v.uri pending.marker pending.verified =
        .error (nullOutcome pending.verified pending.marker)

structure Outcomes (R : Runtime) (v : Verifier) (tr : History ι υ)
    (w : World ι (Shared ι) (Phase υ)) : Prop where
  ended : ∀ a x b i e ending, tr = a ++ x :: b → Verifying i (a ++ [x]) → x.event = .act i e →
    .ended ending ∈ x.effects → Proper e ending
  advances : ∀ x ∈ tr, ∀ i e, x.event = .act i e →
    stage (x.before.phase i) < stage (x.after.phase i) ∧
      (x.after.phase i = .finished → ∃ ending, .ended ending ∈ x.effects)
  accepted : ∀ i e, Due e (w.phase i) → ∃ u fs, v.machine R w (.act i e) = some (u, fs)
  mapped : ∀ response uri marker verified, Mapped R response (nullOutcome verified marker)
    (sessionDocumentFrom R response uri marker verified)
  live : ∀ x ∈ tr, ∀ i pending, NullAnswered R v i pending x →
    x.effects = [.ended (.raised (nullOutcome pending.verified pending.marker))]
  hit : ∀ x ∈ tr, ∀ i credential userModel pending,
    x.event = .act i (.start (.verify credential userModel)) →
    Admitted R v credential userModel pending →
    (holds R v.negativeTtl x.before.shared.clock pending.material x.before.shared.entries).1 = true →
    x.effects = [.ended (.raised (nullOutcome pending.verified pending.marker))]
  kind : ∀ credential (userModel : UserModel υ) pending, Admitted R v credential userModel pending →
    (v.secrets ≠ [] → Signed R v.secrets pending.material pending.token) ∧ ∃ reason,
      nullOutcome pending.verified pending.marker =
        if v.secrets = [] then invalidCredential reason else sessionRevoked reason

/-- A call whose answer is the null outcome is remembered, and nothing else is. -/
structure Remembers (R : Runtime) (v : Verifier) (tr : History ι υ) : Prop where
  entered : ∀ x ∈ tr, ∀ i pending, NullAnswered R v i pending x →
    (key R pending.material, x.before.shared.clock) ∈ x.after.shared.entries
  only : ∀ x ∈ tr, ∀ entry ∈ x.after.shared.entries, entry ∈ x.before.shared.entries ∨
    ∃ i pending, NullAnswered R v i pending x ∧
      entry = (key R pending.material, x.before.shared.clock)

theorem closed_null {response : TransportResponse} {now : Readings}
    (h : sessionDocumentFrom R response v.uri pending.marker pending.verified =
      .error (nullOutcome pending.verified pending.marker)) :
    v.closed R i pending (.response response) now s =
      (noticed R v pending response (Verifier.released i s), .finished,
        [.ended (.raised (nullOutcome pending.verified pending.marker))]) := by
  rw [Verifier.closed, exec_closing, fetchTranslated_ok.mpr rfl]
  dsimp only
  rw [h]
  rfl

omit [DecidableEq ι] in
theorem opened_hit {credential : Credential} {userModel : UserModel υ}
    (hadm : Admitted R v credential userModel pending)
    (hh : (holds R v.negativeTtl s.clock pending.material s.entries).1 = true) :
    v.opened R (.verify credential userModel) s = (cacheAsked R v pending.material s, .finished,
      [.ended (.raised (nullOutcome pending.verified pending.marker))]) := by
  rw [Verifier.opened, exec_opening, admitted_ok.mpr hadm]
  simp only [hh, if_true]
  rfl

theorem mem_remember {ttl now : Seconds} (maxRemembered : Nat) (entries : Entries)
    (h : 0 < ttl) : (key R material, now) ∈ remember R ttl maxRemembered now material entries := by
  rw [remember, if_neg (not_le.mpr h)]
  exact Ordered.mem_set_self ..

theorem kind_of_null {credential : Credential} {userModel : UserModel υ}
    (h : Admitted R v credential userModel pending) : ∃ reason,
      nullOutcome pending.verified pending.marker =
        if v.secrets = [] then invalidCredential reason else sessionRevoked reason := by
  obtain ⟨hs, hv⟩ | ⟨hs, hv, -⟩ := (rungTwo_ok h.token).mp h.verified
  · simp only [hv, hs, if_true]
    exact ⟨_, rfl⟩
  · simp only [hv, hs, if_false]
    exact ⟨_, rfl⟩

theorem nullAnswered_step {x : Transition (World ι (Shared ι) (Phase υ)) _ (Effect υ)}
    (hx : v.machine R x.before x.event = some (x.after, x.effects))
    (h : NullAnswered R v i pending x) :
    (∃ response, isCacheableNull R response = true ∧
      x.after.shared = noticed R v pending response (Verifier.released i x.before.shared)) ∧
    x.effects = [.ended (.raised (nullOutcome pending.verified pending.marker))] := by
  obtain ⟨hp, response, now, he, hn⟩ := h
  rw [he] at hx
  obtain ⟨t, q, ha, hafter⟩ := Program.machine_act.mp hx
  rw [hp] at ha
  have hc : v.closed R i pending (.response response) now x.before.shared = (t, q, x.effects) :=
    Option.some.inj ha
  rw [closed_null hn] at hc
  obtain ⟨rfl, hq⟩ := Prod.mk.inj hc
  rw [hafter]
  exact ⟨⟨response, nullOutcome_iff.mp hn, rfl⟩, (Prod.mk.inj hq).2.symm⟩

/-- A `verify` of a run stands where it carries its credential's material, or has ended. -/
theorem verifying (h : Run (v.machine R) (Verifier.start clock) tr w) :
    ∀ i, Verifying i tr → w.phase i = .finished ∨ (pendingOf (w.phase i)).isSome = true := by
  refine h.invariant (I := fun tr w => ∀ i, Verifying i tr →
    w.phase i = .finished ∨ (pendingOf (w.phase i)).isSome = true) ?_ ?_
  · rintro i ⟨y, hy, -⟩
    cases hy
  · intro tr w ev u fs hr ih hu i hi
    obtain ⟨y, hy, credential, userModel, hev⟩ := hi
    obtain ⟨j, e, rfl, hm, hother⟩ | ⟨now, rfl, -, -, rfl⟩ := machine_moves hu
    · obtain hy | hy := List.mem_append.mp hy
      · have hi := ih i ⟨y, hy, credential, userModel, hev⟩
        by_cases hij : i = j
        · subst hij
          obtain hp | hp := hi
          · exact (unfinished_of_moves hm hp).elim
          · exact carried_of_moves hm (.inl hp)
        · rw [hother i hij]
          exact hi
      · obtain rfl := List.mem_singleton.mp hy
        cases hev
        exact carried_of_moves hm (.inr ⟨credential, userModel, rfl⟩)
    · obtain hy | hy := List.mem_append.mp hy
      · exact ih i ⟨y, hy, credential, userModel, hev⟩
      · obtain rfl := List.mem_singleton.mp hy
        cases hev

theorem ended_proper (h : Run (v.machine R) (Verifier.start clock) tr w)
    (hcsrf : Shipped R v.csrf) (hval : AllValidate tr)
    {x : Transition (World ι (Shared ι) (Phase υ)) _ (Effect υ)} {a b : History ι υ}
    {ending : Ending υ} (htr : tr = a ++ x :: b) (hi : Verifying i (a ++ [x]))
    (he : x.event = .act i e) (hf : .ended ending ∈ x.effects) : Proper e ending := by
  subst htr
  obtain ⟨hr, hx, -⟩ := h.at
  have hm := moves_of_event hx he
  have hv : ∀ pending, pendingOf (x.before.phase i) = some pending →
      Validates pending.userModel := by
    intro pending hp
    obtain ⟨y, hy, credential, userModel, hev, hadm⟩ := ((stands hr).2 i).began pending hp
    rw [hadm.userModel]
    exact hval y (List.mem_append_left _ hy) i credential userModel hev
  rw [he] at hx
  obtain ⟨t, q, ha, -⟩ := Program.machine_act.mp hx
  obtain hproper | ⟨hnone, hnot⟩ := act_ended hcsrf hv ha hf
  · exact hproper
  · obtain ⟨y, hy, credential, userModel, hev⟩ := hi
    obtain hy | hy := List.mem_append.mp hy
    · obtain hp | hp := verifying hr i ⟨y, hy, credential, userModel, hev⟩
      · exact (unfinished_of_moves hm hp).elim
      · rw [hnone] at hp
        cases hp
    · obtain rfl := List.mem_singleton.mp hy
      cases he.symm.trans hev
      exact (hnot credential userModel rfl).elim

theorem entered_only {x : Transition (World ι (Shared ι) (Phase υ)) _ (Effect υ)}
    (hx : v.machine R x.before x.event = some (x.after, x.effects)) {entry : Digest × Seconds}
    (h : entry ∈ x.after.shared.entries) : entry ∈ x.before.shared.entries ∨
      ∃ i pending, NullAnswered R v i pending x ∧
        entry = (key R pending.material, x.before.shared.clock) := by
  obtain ⟨i, e, he, hm, -⟩ | ⟨now, -, -, -, hafter⟩ := machine_moves hx
  · obtain hold | ⟨pending, response, now, hp, rfl, hn, rfl⟩ := entries_of_moves hm h
    · exact .inl hold
    · exact .inr ⟨i, pending, ⟨hp, response, now, he, nullOutcome_iff.mpr hn⟩, rfl⟩
  · rw [hafter] at h
    exact .inl h

/-- A cache that is turned off is never written. -/
theorem entries_kept (httl : v.negativeTtl ≤ 0) (h : Moves R v i s e p t q fs) :
    t.entries = s.entries := by
  have asked : ∀ now material entries, (holds R v.negativeTtl now material entries).2 = entries := by
    intro now material entries
    rw [holds, if_pos httl]
  have closed : ∀ {pending : Pending υ} {answer now result u},
      exec (v.closing R pending answer now) (Verifier.released i s) = (result, u) →
      u.entries = s.entries := by
    intro pending answer now result u hc
    rw [exec_closing] at hc
    cases hf : v.fetchTranslated answer with
    | error exc =>
      rw [hf] at hc
      cases hc
      rfl
    | ok response =>
      rw [hf] at hc
      cases hc
      simp only [noticed, remember, if_pos httl, ite_self]
      rfl
  cases h with
  | turnedAway ht =>
    cases ht with
    | credential => rfl
    | remembered | rateLimited => exact asked ..
  | readyAtOnce hr | refusedAtOnce hr | queued hr =>
    cases hr with
    | prepare => rfl
    | verify => exact asked ..
  | rungFailed | probeFailed =>
    simp only [Verifier.unlocked, Verifier.noted]
    split <;> rfl
  | answered hc | failed hc => exact closed hc
  | _ => rfl

theorem uncached (h : Run (v.machine R) (Verifier.start clock) tr w)
    (httl : v.negativeTtl ≤ 0) : w.shared.entries = [] := by
  refine h.preserved (P := fun w => w.shared.entries = []) ?_ rfl
  intro w ev u fs hw hu
  obtain ⟨i, e, -, hm, -⟩ | ⟨now, -, -, -, rfl⟩ := machine_moves hu
  · exact (entries_kept httl hm).trans hw
  · exact hw

theorem outcomes_total (R : Runtime) (v : Verifier) (clock : Seconds)
    (h : Run (v.machine R) (Verifier.start clock) tr w) (hcsrf : Shipped R v.csrf)
    (hval : AllValidate tr) : Outcomes R v tr w ∧ (0 < v.negativeTtl → Remembers R v tr) ∧
      (v.negativeTtl ≤ 0 → ∀ x ∈ tr, x.after.shared.entries = []) := by
  refine ⟨⟨?_, ?_, ?_, fun response uri marker verified => sessionDocumentFrom_mapped .., ?_, ?_,
    fun credential userModel pending hadm => ⟨hadm.signed, kind_of_null hadm⟩⟩, ?_, ?_⟩
  · exact fun a x b i e ending htr hi he hf => ended_proper h hcsrf hval htr hi he hf
  · intro x hx i e he
    obtain ⟨-, -, -, -, hstep, -⟩ := h.of_mem hx
    exact advances_of_moves (moves_of_event hstep he)
  · intro i e hdue
    obtain ⟨t, q, fs, ha⟩ := act_due (R := R) (v := v) (i := i) (s := w.shared) hdue
    exact ⟨_, fs, Program.machine_act.mpr ⟨t, q, ha, rfl⟩⟩
  · intro x hx i pending hnull
    obtain ⟨-, -, -, -, hstep, -⟩ := h.of_mem hx
    exact (nullAnswered_step hstep hnull).2
  · intro x hx i credential userModel pending he hadm hh
    obtain ⟨-, -, -, -, hstep, -⟩ := h.of_mem hx
    rw [he] at hstep
    obtain ⟨t, q, ha, -⟩ := Program.machine_act.mp hstep
    have hm := act_moves ha
    cases hp : x.before.phase i with
    | idle =>
      rw [hp] at ha
      have ho : v.opened R (.verify credential userModel) x.before.shared = (t, q, x.effects) :=
        Option.some.inj ha
      rw [opened_hit hadm hh] at ho
      exact (Prod.mk.inj (Prod.mk.inj ho).2).2.symm
    | _ =>
      rw [hp] at ha
      cases ha
  · intro httl
    constructor
    · intro x hx i pending hnull
      obtain ⟨-, -, -, -, hstep, -⟩ := h.of_mem hx
      obtain ⟨⟨response, hn, hafter⟩, -⟩ := nullAnswered_step hstep hnull
      rw [hafter]
      simp only [noticed, hn, if_true]
      exact mem_remember _ _ httl
    · intro x hx entry hentry
      obtain ⟨-, -, -, -, hstep, -⟩ := h.of_mem hx
      exact entered_only hstep hentry
  · intro httl x hx
    obtain ⟨a, b, rfl, hr, hstep, -⟩ := h.of_mem hx
    exact uncached (hr.snoc hstep) httl

end Runs

section Sample

def disabledReason : Text := "the cookie is never sent across sites".toList

def sampleDisabled : CsrfDisabled := ⟨disabledReason, by decide⟩

def plainVerifier : Verifier := { sampleVerifier with csrf := sampleDisabled.toPolicy }

def uncachedVerifier : Verifier := { plainVerifier with negativeTtl := 0 }

def receivesNull
    (x : Transition (World Nat (Shared Nat) (Phase Payload))
      (Happening Nat (Event Payload) Seconds) (Effect Payload)) : Bool :=
  match x.before.phase 0, x.event with
  | .fetching _, .act 0 (.answered (.response response) _) => isCacheableNull sampleRuntime response
  | _, _ => false

theorem validate_sample {tr : History Nat Payload} (h : ∀ x ∈ tr, x.event ∈ repeatedEvents) :
    AllValidate tr := by
  intro x hx i credential userModel he payload exc
  have hmem := h x hx
  rw [he] at hmem
  have huser : userModel = sampleUser := by
    simp only [repeatedEvents, List.map_cons, List.map_nil, List.cons_append, List.nil_append,
      List.mem_cons, List.not_mem_nil, Happening.act.injEq, Event.start.injEq, Call.verify.injEq,
      reduceCtorEq, and_false, false_or, or_false] at hmem
    obtain ⟨-, -, hu⟩ | ⟨-, -, hu⟩ := hmem <;> exact hu
  rw [huser]
  exact nofun

end Sample

/-- A cookie is answered with the null outcome, and presented again while it is remembered. -/
theorem outcomes_total_repeated :
    ∃ (tr : History Nat Payload) (w : World Nat (Shared Nat) (Phase Payload)),
      Run (plainVerifier.machine sampleRuntime) (Verifier.start 0) tr w ∧
        (tr.any receivesNull && tr.any secondRefused) = true ∧
        Outcomes sampleRuntime plainVerifier tr w ∧ Remembers sampleRuntime plainVerifier tr := by
  have h : ((replay (plainVerifier.machine sampleRuntime) (Verifier.start 0) repeatedEvents).any
      fun r => r.1.any receivesNull && r.1.any secondRefused) = true := by
    decide +kernel
  obtain ⟨tr, w, hr, hs, hev⟩ := Run.of_replay_given
    (P := fun tr => tr.any receivesNull && tr.any secondRefused) h
  obtain ⟨hout, hrem, -⟩ := outcomes_total sampleRuntime plainVerifier 0 hr
    (.csrfDisabled sampleDisabled) (validate_sample hev)
  exact ⟨tr, w, hr, hs, hout, hrem (by decide)⟩

/-- With the cache turned off, a null answer is not remembered. -/
theorem null_forgotten : ¬ ∀ (tr : History Nat Payload) (w : World Nat (Shared Nat) (Phase Payload)),
    Run (uncachedVerifier.machine sampleRuntime) (Verifier.start 0) tr w →
      Shipped sampleRuntime uncachedVerifier.csrf → AllValidate tr →
      Remembers sampleRuntime uncachedVerifier tr := by
  intro hall
  have h : ((replay (uncachedVerifier.machine sampleRuntime) (Verifier.start 0) repeatedEvents).any
      fun r => r.1.any receivesNull) = true := by
    decide +kernel
  obtain ⟨tr, w, hr, hs, hev⟩ := Run.of_replay_given (P := fun tr => tr.any receivesNull) h
  have hrem := hall tr w hr (.csrfDisabled sampleDisabled) (validate_sample hev)
  obtain ⟨x, hx, hnull⟩ := List.any_eq_true.mp hs
  unfold receivesNull at hnull
  split at hnull
  · rename_i pending response now hp he
    have hin := hrem.entered x hx 0 pending ⟨hp, response, now, he, nullOutcome_iff.mpr hnull⟩
    obtain ⟨a, b, rfl, hra, hstep, -⟩ := hr.of_mem hx
    rw [uncached (hra.snoc hstep) (by decide)] at hin
    cases hin
  · cases hnull

end BetterAuthBridge.RemoteOutcomes
