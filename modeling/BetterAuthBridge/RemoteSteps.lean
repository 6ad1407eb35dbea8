import BetterAuthBridge.RemoteSections

namespace BetterAuthBridge.RemoteSteps

open Library Library.Runs Library.Procedure Library.Tasks Values Errors Models CookieParsing
open RemoteResponse RemoteGates RemoteProbe RemoteVerifier RemoteSections

variable {ι υ : Type}

/-- Everything one section of a call can do. -/
inductive Moves (R : Runtime) (v : Verifier) [DecidableEq ι] (i : ι) (s : Shared ι) :
    Event υ → Phase υ → Shared ι → Phase υ → List (Effect υ) → Prop
  | turnedAway {call exc t} : TurnedAway R v s call exc t →
      Moves R v i s (.start call) .idle t .finished [.ended (.raised exc)]
  | readyAtOnce {call caller t q fs} : Reaches R v s call caller t → t.probedOk = true →
      Verifier.passed caller = (q, fs) → Moves R v i s (.start call) .idle t q fs
  | refusedAtOnce {call caller t message} : Reaches R v s call caller t →
      t.contractFailure = some message →
      Moves R v i s (.start call) .idle t .finished
        [.ended (.raised (v.startupFailure caller (configurationError message)))]
  | queued {call caller t} : Reaches R v s call caller t → t.probedOk = false →
      t.contractFailure = none →
      Moves R v i s (.start call) .idle t (.waitingLock caller) []
  | lockAcquired {caller} : s.probeLock = none →
      Moves R v i s .lockAcquired (.waitingLock caller) { s with probeLock := some i }
        (.lockGranted caller) []
  | readyUnderLock {caller q fs} : s.probedOk = true → Verifier.passed caller = (q, fs) →
      Moves R v i s .lockResumed (.lockGranted caller) (Verifier.unlocked s) q fs
  | refusedUnderLock {caller exc} :
      Moves R v i s .lockResumed (.lockGranted caller) (Verifier.unlocked s) .finished
        [.ended (.raised (v.startupFailure caller exc))]
  | probeStarted {caller} : s.probedOk = false → s.contractFailure = none →
      Verifier.mayProbe s = true →
      Moves R v i s .lockResumed (.lockGranted caller) { s with probeAttemptedAt := some s.clock }
        (.probing caller s.probeAttemptedAt) [.probeSent v.uri]
  | rungPassed {caller previous answer} :
      probed R v.uri v.transportName v.maxBytes answer = .ok () →
      Moves R v i s (.probeAnswered answer) (.probing caller previous) s
        (.advising caller previous) [.bearerSent v.uri]
  | rungFailed {caller previous answer exc} :
      probed R v.uri v.transportName v.maxBytes answer = .error exc →
      Moves R v i s (.probeAnswered answer) (.probing caller previous)
        (Verifier.unlocked (Verifier.noted exc s)) .finished
        [.probeSettled false, .ended (.raised (v.startupFailure caller exc))]
  | probePassed {caller previous answer q fs} :
      advise v.uri v.maxBytes v.refuseUnsignedBearer answer = .ok () →
      Verifier.passed caller = (q, fs) →
      Moves R v i s (.advised answer) (.advising caller previous)
        (Verifier.unlocked { s with probedOk := true }) q (.probeSettled true :: fs)
  | probeFailed {caller previous answer exc} :
      advise v.uri v.maxBytes v.refuseUnsignedBearer answer = .error exc →
      Moves R v i s (.advised answer) (.advising caller previous)
        (Verifier.unlocked (Verifier.noted exc s)) .finished
        [.probeSettled false, .ended (.raised (v.startupFailure caller exc))]
  | slotAcquired {pending : Pending υ} : s.borrowers.length < v.concurrency →
      Moves R v i s .slotAcquired (.waitingSlot pending) { s with borrowers := i :: s.borrowers }
        (.slotGranted pending) []
  | queueTimedOut {pending : Pending υ} :
      Moves R v i s .queueTimedOut (.waitingSlot pending) s .finished
        [.ended (.raised v.queueSaturated)]
  | sent {pending : Pending υ} :
      Moves R v i s .slotResumed (.slotGranted pending) s (.fetching pending)
        [.getSessionSent v.uri (Verifier.outbound pending.name pending.material)]
  | answered {pending : Pending υ} {answer now result t} :
      exec (v.closing R pending answer now) (Verifier.released i s) = (.ok result, t) →
      Moves R v i s (.answered answer now) (.fetching pending) t .finished
        [.ended (.session result)]
  | failed {pending : Pending υ} {answer now exc t} :
      exec (v.closing R pending answer now) (Verifier.released i s) = (.error exc, t) →
      Moves R v i s (.answered answer now) (.fetching pending) t .finished
        [.ended (.raised exc)]
  | waitAbandoned {p} :
      (∃ caller, p = .waitingLock caller) ∨ (∃ pending, p = .waitingSlot pending) →
      Moves R v i s .cancelled p s .finished [.ended .cancelled]
  | lockAbandoned {caller} :
      Moves R v i s .cancelled (.lockGranted caller) (Verifier.unlocked s) .finished
        [.ended .cancelled]
  | probeAbandoned {p caller previous} :
      p = .probing caller previous ∨ p = .advising caller previous →
      Moves R v i s .cancelled p (Verifier.unlocked { s with probeAttemptedAt := previous })
        .finished [.probeCancelled, .ended .cancelled]
  | slotAbandoned {p pending} : p = .slotGranted pending ∨ p = .fetching pending →
      Moves R v i s .cancelled p (Verifier.released i s) .finished [.ended .cancelled]

variable {R : Runtime} {v : Verifier} {i : ι} {s t : Shared ι} {e : Event υ} {p q : Phase υ}
  {fs : List (Effect υ)}

theorem opened_moves [DecidableEq ι] {call : Call υ}
    (h : v.opened R call s = (t, q, fs)) : Moves R v i s (.start call) .idle t q fs := by
  have hgate : ∀ {caller u}, Reaches R v s call caller u → v.gate caller u = (t, q, fs) →
      Moves R v i s (.start call) .idle t q fs := by
    intro caller u hr hg
    unfold Verifier.gate at hg
    by_cases hp : u.probedOk = true
    · rw [if_pos hp] at hg
      obtain ⟨rfl, hq⟩ := Prod.mk.inj hg
      exact .readyAtOnce hr hp hq
    · rw [if_neg hp] at hg
      cases hc : u.contractFailure with
      | some message =>
        rw [hc] at hg
        cases hg
        exact .refusedAtOnce hr hc
      | none =>
        rw [hc] at hg
        cases hg
        exact .queued hr (eq_false_of_ne_true hp) hc
  cases call with
  | prepare => exact hgate .prepare h
  | verify credential userModel =>
    rw [Verifier.opened, exec_opening] at h
    cases ha : v.admitted R credential userModel with
    | error exc =>
      rw [ha] at h
      cases h
      exact .turnedAway (.credential ha)
    | ok pending =>
      have hadm := admitted_ok.mp ha
      rw [ha] at h
      by_cases hh : (holds R v.negativeTtl s.clock pending.material s.entries).1 = true
      · simp only [hh, if_true] at h
        cases h
        exact .turnedAway (.remembered hadm hh)
      · by_cases hb : (latched s.clock s.blockedUntil).1 = true
        · simp only [hh, hb, if_true] at h
          cases h
          exact .turnedAway (.rateLimited hadm hb)
        · simp only [hh, hb] at h
          exact hgate (.verify hadm (eq_false_of_ne_true hh) (eq_false_of_ne_true hb)) h

theorem locked_moves [DecidableEq ι] {caller : Caller υ}
    (h : v.locked caller s = (t, q, fs)) :
    Moves R v i s .lockResumed (.lockGranted caller) t q fs := by
  unfold Verifier.locked at h
  by_cases hp : s.probedOk = true
  · rw [if_pos hp] at h
    obtain ⟨rfl, hq⟩ := Prod.mk.inj h
    exact .readyUnderLock hp hq
  · rw [if_neg hp] at h
    cases hc : s.contractFailure with
    | some message =>
      rw [hc] at h
      cases h
      exact .refusedUnderLock
    | none =>
      rw [hc] at h
      by_cases hm : Verifier.mayProbe s = true
      · simp only [hm, if_true] at h
        cases h
        have hmove : Moves R v i s .lockResumed (.lockGranted caller) _ _ _ :=
          .probeStarted (eq_false_of_ne_true hp) hc hm
        simpa only [hc] using hmove
      · simp only [hm] at h
        cases h
        exact .refusedUnderLock

theorem abandoned_moves [DecidableEq ι]
    (h : Verifier.abandoned i s p = some (t, q, fs)) : Moves R v i s .cancelled p t q fs := by
  cases p with
  | idle => cases h
  | finished => cases h
  | waitingLock caller =>
    cases h
    exact .waitAbandoned (.inl ⟨caller, rfl⟩)
  | waitingSlot pending =>
    cases h
    exact .waitAbandoned (.inr ⟨pending, rfl⟩)
  | lockGranted caller =>
    cases h
    exact .lockAbandoned
  | probing caller previous =>
    cases h
    exact .probeAbandoned (.inl rfl)
  | advising caller previous =>
    cases h
    exact .probeAbandoned (.inr rfl)
  | slotGranted pending =>
    cases h
    exact .slotAbandoned (.inl rfl)
  | fetching pending =>
    cases h
    exact .slotAbandoned (.inr rfl)

theorem act_moves [DecidableEq ι] (h : v.act R i e s p = some (t, q, fs)) :
    Moves R v i s e p t q fs := by
  unfold Verifier.act at h
  split at h
  · exact opened_moves (Option.some.inj h)
  · split at h
    · rename_i hl
      cases h
      exact .lockAcquired hl
    · cases h
  · exact locked_moves (Option.some.inj h)
  · rename_i answer caller previous
    unfold Verifier.firstRung at h
    cases hp : probed R v.uri v.transportName v.maxBytes answer with
    | ok u =>
      rw [hp] at h
      cases h
      exact .rungPassed hp
    | error exc =>
      rw [hp] at h
      cases h
      exact .rungFailed hp
  · rename_i answer caller previous
    unfold Verifier.lastRung at h
    cases hp : advise v.uri v.maxBytes v.refuseUnsignedBearer answer with
    | ok u =>
      rw [hp] at h
      obtain ⟨rfl, hq⟩ := Prod.mk.inj (Option.some.inj h)
      obtain ⟨rfl, rfl⟩ := Prod.mk.inj hq
      exact .probePassed hp rfl
    | error exc =>
      rw [hp] at h
      cases h
      exact .probeFailed hp
  · split at h
    · rename_i hb
      cases h
      exact .slotAcquired hb
    · cases h
  · cases h
    exact .queueTimedOut
  · cases h
    exact .sent
  · rename_i answer now pending
    unfold Verifier.closed at h
    cases hr : exec (v.closing R pending answer now) (Verifier.released i s) with
    | mk result u =>
      rw [hr] at h
      cases result with
      | ok found =>
        cases h
        exact .answered hr
      | error exc =>
        cases h
        exact .failed hr
  · exact abandoned_moves h
  · cases h

def holdsLock : Phase υ → Bool
  | .lockGranted _ | .probing .. | .advising .. => true
  | _ => false

def probes : Phase υ → Bool
  | .probing .. | .advising .. => true
  | _ => false

def pastGate : Phase υ → Bool
  | .waitingSlot _ | .slotGranted _ | .fetching _ => true
  | _ => false

def carried : Caller υ → Option (Pending υ)
  | .prepare => none
  | .verify pending => some pending

def pendingOf : Phase υ → Option (Pending υ)
  | .waitingLock caller | .lockGranted caller | .probing caller _ | .advising caller _ =>
    carried caller
  | .waitingSlot pending | .slotGranted pending | .fetching pending => some pending
  | .idle | .finished => none

theorem holdsLock_of_probes (h : probes p = true) : holdsLock p = true := by
  cases p <;> first | rfl | cases h

theorem noted_frame (exc : Exn) (s : Shared ι) :
    (Verifier.noted exc s).clock = s.clock ∧ (Verifier.noted exc s).probedOk = s.probedOk ∧
      (Verifier.noted exc s).probeAttemptedAt = s.probeAttemptedAt ∧
      (Verifier.noted exc s).blockedUntil = s.blockedUntil := by
  unfold Verifier.noted
  split <;> exact ⟨rfl, rfl, rfl, rfl⟩

theorem noted_contractFailure (exc : Exn) (s : Shared ι) :
    (Verifier.noted exc s).contractFailure = s.contractFailure ∨ exc.isConfiguration = true := by
  unfold Verifier.noted
  split
  · exact Or.inr rfl
  · exact Or.inl rfl

theorem passed_eq {caller : Caller υ} (h : Verifier.passed caller = (q, fs)) :
    caller = .prepare ∧ q = .finished ∧ fs = [.ended .prepared] ∨
      ∃ pending, caller = .verify pending ∧ q = .waitingSlot pending ∧ fs = [] := by
  cases caller with
  | prepare =>
    cases h
    exact .inl ⟨rfl, rfl, rfl⟩
  | verify pending =>
    cases h
    exact .inr ⟨pending, rfl, rfl, rfl⟩

theorem passed_holdsLock {caller : Caller υ} (h : Verifier.passed caller = (q, fs)) :
    holdsLock q = false := by
  obtain ⟨-, rfl, -⟩ | ⟨pending, -, rfl, -⟩ := passed_eq h <;> rfl

variable [DecidableEq ι]

theorem Moves.clock (h : Moves R v i s e p t q fs) : t.clock = s.clock := by
  cases h with
  | turnedAway h => exact h.aside.clock
  | readyAtOnce h | refusedAtOnce h | queued h => exact h.aside.clock
  | answered h | failed h => exact (closing_aside h).clock
  | rungFailed | probeFailed => exact (noted_frame ..).1
  | _ => rfl

theorem Moves.locking (h : Moves R v i s e p t q fs) :
    Locked i s.probeLock (holdsLock p) t.probeLock (holdsLock q) := by
  have kept : ∀ {l b b'}, l = s.probeLock → b = b' → Locked i s.probeLock b l b' := by
    rintro l b b' rfl rfl
    exact .kept
  cases h with
  | turnedAway h => exact kept h.aside.probeLock rfl
  | readyAtOnce h _ hp => exact kept h.aside.probeLock (passed_holdsLock hp).symm
  | refusedAtOnce h | queued h => exact kept h.aside.probeLock rfl
  | lockAcquired h =>
    rw [h]
    exact .taken
  | readyUnderLock _ hp | probePassed _ hp =>
    rw [passed_holdsLock hp]
    exact .given
  | refusedUnderLock | rungFailed | probeFailed | lockAbandoned => exact .given
  | probeAbandoned hp => obtain rfl | rfl := hp <;> exact .given
  | waitAbandoned hp => obtain ⟨_, rfl⟩ | ⟨_, rfl⟩ := hp <;> exact .kept
  | slotAbandoned hp => obtain rfl | rfl := hp <;> exact .kept
  | answered h | failed h => exact kept (closing_aside h).probeLock rfl
  | _ => exact .kept

theorem Moves.verdict (h : Moves R v i s e p t q fs) (hp : probes p = false) :
    t.probedOk = s.probedOk ∧ t.contractFailure = s.contractFailure := by
  cases h with
  | turnedAway h => exact ⟨h.aside.probedOk, h.aside.contractFailure⟩
  | readyAtOnce h | refusedAtOnce h | queued h => exact ⟨h.aside.probedOk, h.aside.contractFailure⟩
  | answered h | failed h => exact ⟨(closing_aside h).probedOk, (closing_aside h).contractFailure⟩
  | rungFailed | probePassed | probeFailed => cases hp
  | _ => exact ⟨rfl, rfl⟩

theorem Moves.probedOk_mono (h : Moves R v i s e p t q fs) (hs : s.probedOk = true) :
    t.probedOk = true := by
  cases h with
  | turnedAway h => exact h.aside.probedOk.trans hs
  | readyAtOnce h | refusedAtOnce h | queued h => exact h.aside.probedOk.trans hs
  | answered h | failed h => exact (closing_aside h).probedOk.trans hs
  | rungFailed | probeFailed => exact (noted_frame ..).2.1.trans hs
  | probePassed => rfl
  | _ => exact hs

theorem Moves.pending {pending : Pending υ} (h : Moves R v i s e p t q fs)
    (hq : pendingOf q = some pending) : pendingOf p = some pending ∨
      ∃ credential userModel, p = .idle ∧ e = .start (.verify credential userModel) ∧
        Admitted R v credential userModel pending := by
  have reached : ∀ {call caller u}, Reaches R v s call caller u →
      carried caller = some pending → ∃ credential userModel,
        call = .verify credential userModel ∧ Admitted R v credential userModel pending := by
    intro call caller u hr hc
    cases hr with
    | prepare => cases hc
    | verify ha =>
      cases hc
      exact ⟨_, _, rfl, ha⟩
  have past : ∀ {caller r gs}, Verifier.passed caller = (r, gs) → pendingOf r = some pending →
      carried caller = some pending := by
    intro caller r gs hp hr
    obtain ⟨-, rfl, -⟩ | ⟨pending, rfl, rfl, -⟩ := passed_eq hp
    · cases hr
    · exact hr
  cases h with
  | readyAtOnce hr _ hp =>
    obtain ⟨c, m, rfl, ha⟩ := reached hr (past hp hq)
    exact .inr ⟨c, m, rfl, rfl, ha⟩
  | queued hr =>
    obtain ⟨c, m, rfl, ha⟩ := reached hr hq
    exact .inr ⟨c, m, rfl, rfl, ha⟩
  | readyUnderLock _ hp | probePassed _ hp => exact .inl (past hp hq)
  | lockAcquired | probeStarted | rungPassed | slotAcquired | sent => exact .inl hq
  | _ => cases hq

/-- A call gets past the readiness gate only where a probe is known to have passed. -/
theorem Moves.gated (h : Moves R v i s e p t q fs) (hq : pastGate q = true) :
    t.probedOk = true ∨ pastGate p = true ∧ t.probedOk = s.probedOk := by
  cases h with
  | readyAtOnce _ hp => exact .inl hp
  | readyUnderLock hp => exact .inl hp
  | probePassed => exact .inl rfl
  | slotAcquired | sent => exact .inr ⟨rfl, rfl⟩
  | _ => cases hq

/-- A probe begins, and goes on, only where it has neither passed nor failed for good. -/
theorem Moves.probing (h : Moves R v i s e p t q fs) (hq : probes q = true) :
    t.probedOk = false ∧ t.contractFailure = none ∨ probes p = true ∧ t = s := by
  cases h with
  | probeStarted hp hc => exact .inl ⟨hp, hc⟩
  | rungPassed => exact .inr ⟨rfl, rfl⟩
  | readyAtOnce _ _ hp | readyUnderLock _ hp | probePassed _ hp =>
    have hl := holdsLock_of_probes hq
    rw [passed_holdsLock hp] at hl
    cases hl
  | _ => cases hq

theorem Moves.settled (h : Moves R v i s e p t q fs) (ht : t.probedOk = true) :
    s.probedOk = true ∨ ∃ caller previous answer, p = .advising caller previous ∧
      e = .advised answer ∧ advise v.uri v.maxBytes v.refuseUnsignedBearer answer = .ok () ∧
      t.contractFailure = s.contractFailure ∧ .probeSettled true ∈ fs := by
  cases h with
  | turnedAway h => exact .inl (h.aside.probedOk.symm.trans ht)
  | readyAtOnce h | refusedAtOnce h | queued h => exact .inl (h.aside.probedOk.symm.trans ht)
  | answered h | failed h => exact .inl ((closing_aside h).probedOk.symm.trans ht)
  | rungFailed | probeFailed => exact .inl ((noted_frame ..).2.1.symm.trans ht)
  | probePassed ha => exact .inr ⟨_, _, _, rfl, rfl, ha, rfl, List.mem_cons_self⟩
  | _ => exact .inl ht

/-- The last rung of a probe follows on a first one that passed. -/
theorem Moves.advising {caller : Caller υ} {previous : Option Seconds}
    (h : Moves R v i s e p t (.advising caller previous) fs) : ∃ answer,
      e = .probeAnswered answer ∧ probed R v.uri v.transportName v.maxBytes answer = .ok () := by
  cases h with
  | rungPassed ha => exact ⟨_, rfl, ha⟩
  | readyAtOnce _ _ hp | readyUnderLock _ hp | probePassed _ hp =>
    obtain ⟨-, hq, -⟩ | ⟨_, -, hq, -⟩ := passed_eq hp <;> cases hq

theorem Moves.fetching {pending : Pending υ} (h : Moves R v i s e p t (.fetching pending) fs) :
    p = .slotGranted pending ∧
      fs = [.getSessionSent v.uri (Verifier.outbound pending.name pending.material)] := by
  cases h with
  | sent => exact ⟨rfl, rfl⟩
  | readyAtOnce _ _ hp | readyUnderLock _ hp | probePassed _ hp =>
    obtain ⟨-, hq, -⟩ | ⟨_, -, hq, -⟩ := passed_eq hp <;> cases hq

theorem Moves.sessionEnded {found : Session υ} (h : Moves R v i s e p t q fs)
    (hf : .ended (.session found) ∈ fs) :
    ∃ pending response now record stored, p = .fetching pending ∧
      e = .answered (.response response) now ∧
      sessionDocumentFrom R response v.uri pending.marker pending.verified = .ok record ∧
      Attests record pending now found stored := by
  cases h with
  | answered h =>
    obtain ⟨response, record, stored, rfl, hr, hs, -⟩ := closing_ok.mp h
    cases List.mem_singleton.mp hf
    exact ⟨_, response, _, record, stored, rfl, rfl, hr, hs⟩
  | readyAtOnce _ _ hp | readyUnderLock _ hp =>
    obtain ⟨-, -, rfl⟩ | ⟨_, -, -, rfl⟩ := passed_eq hp <;> simp at hf
  | probePassed _ hp =>
    obtain ⟨-, -, rfl⟩ | ⟨_, -, -, rfl⟩ := passed_eq hp <;> simp at hf
  | _ => simp at hf

theorem Moves.requested {uri : String} {headers : List (String × Text)}
    (h : Moves R v i s e p t q fs) (hf : .getSessionSent uri headers ∈ fs) :
    ∃ pending, p = .slotGranted pending ∧ uri = v.uri ∧
      headers = Verifier.outbound pending.name pending.material := by
  cases h with
  | sent =>
    cases List.mem_singleton.mp hf
    exact ⟨_, rfl, rfl, rfl⟩
  | readyAtOnce _ _ hp | readyUnderLock _ hp =>
    obtain ⟨-, -, rfl⟩ | ⟨_, -, -, rfl⟩ := passed_eq hp <;> simp at hf
  | probePassed _ hp =>
    obtain ⟨-, -, rfl⟩ | ⟨_, -, -, rfl⟩ := passed_eq hp <;> simp at hf
  | _ => simp at hf

theorem Moves.requestSent {uri : String} {headers : List (String × Text)}
    (h : Moves R v i s e p t q fs) (hf : .getSessionSent uri headers ∈ fs) :
    pastGate p = true := by
  obtain ⟨pending, rfl, -⟩ := h.requested hf
  rfl

theorem drift_some {now : Seconds}
    (h : (v.program R : Program ι _ (Phase υ) _ _ _).drift now s = some t) :
    s.clock ≤ now ∧ { s with clock := now } = t := by
  simpa [Verifier.program] using h

theorem machine_moves {w u : World ι (Shared ι) (Phase υ)} {h : Happening ι (Event υ) Seconds}
    (hu : v.machine R w h = some (u, fs)) :
    (∃ i e, h = .act i e ∧ Moves R v i w.shared e (w.phase i) u.shared (u.phase i) fs ∧
      ∀ j, j ≠ i → u.phase j = w.phase j) ∨
    ∃ now, h = .drift now ∧ w.shared.clock ≤ now ∧ fs = [] ∧
      u = ⟨{ w.shared with clock := now }, w.phase⟩ := by
  obtain ⟨i, e, rfl, ha, hother⟩ | ⟨now, t, rfl, hd, rfl, rfl⟩ := Program.machine_steps hu
  · exact .inl ⟨i, e, rfl, act_moves ha, hother⟩
  · obtain ⟨hle, rfl⟩ := drift_some hd
    exact .inr ⟨now, rfl, hle, rfl, rfl⟩

variable
  {x : Transition (World ι (Shared ι) (Phase υ)) (Happening ι (Event υ) Seconds) (Effect υ)}

theorem moves_of_event (hx : v.machine R x.before x.event = some (x.after, x.effects))
    (he : x.event = .act i e) :
    Moves R v i x.before.shared e (x.before.phase i) x.after.shared (x.after.phase i)
      x.effects :=
  act_moves (Program.act_of_event hx he)

theorem moves_of_effect {f : Effect υ}
    (hx : v.machine R x.before x.event = some (x.after, x.effects)) (hf : f ∈ x.effects) :
    ∃ i e, x.event = .act i e ∧
      Moves R v i x.before.shared e (x.before.phase i) x.after.shared (x.after.phase i)
        x.effects := by
  obtain ⟨i, e, hev, ha⟩ := Program.act_of_effect hx hf
  exact ⟨i, e, hev, act_moves ha⟩

end BetterAuthBridge.RemoteSteps
