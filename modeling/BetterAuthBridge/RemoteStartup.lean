import BetterAuthBridge.RemoteReadiness

namespace BetterAuthBridge.RemoteStartup

open Library Library.Runs Library.Tasks Values Errors Models CookieParsing
open RemoteResponse RemoteProbe RemoteVerifier RemoteSections RemoteSteps RemoteInvariants
open RemoteSoundness RemoteReadiness

variable {ι υ : Type} [DecidableEq ι] {R : Runtime} {v : Verifier} {i : ι} {s t : Shared ι}
  {e : Event υ} {p q : Phase υ} {fs : List (Effect υ)} {tr : History ι υ}
  {w : World ι (Shared ι) (Phase υ)} {clock : Seconds}
  {x : Transition (World ι (Shared ι) (Phase υ)) (Happening ι (Event υ) Seconds) (Effect υ)}

def concernsProbe : Effect υ → Bool
  | .probeSent _ | .bearerSent _ | .probeSettled _ | .probeCancelled => true
  | .getSessionSent .. | .ended _ => false

/-- A section in which readiness is nobody's obstacle: nothing is asked of the upstream but
sessions, nobody begins to wait for the gate, and who is turned away is so for the credential, the
remembered verdict, the backoff, the queue or the answer. -/
structure Calm (R : Runtime) (v : Verifier) (s : Shared ι) (e : Event υ) (p q : Phase υ)
    (fs : List (Effect υ)) : Prop where
  unasked : ∀ f ∈ fs, concernsProbe f = false
  unqueued : ∀ caller, q ≠ .waitingLock caller
  prepared : e = .start .prepare → q = .finished ∧ fs = [.ended .prepared]
  straight : ∀ credential userModel, e = .start (.verify credential userModel) →
    (∃ pending, Admitted R v credential userModel pending ∧ q = .waitingSlot pending ∧ fs = []) ∨
      ∃ exc t, TurnedAway R v s (.verify credential userModel) exc t ∧ fs = [.ended (.raised exc)]
  resumed : ∀ caller, e = .lockResumed → p = .lockGranted caller →
    (q, fs) = Verifier.passed caller
  raised : ∀ exc, .ended (.raised exc) ∈ fs →
    (∃ call t, e = .start call ∧ TurnedAway R v s call exc t) ∨
      e = .queueTimedOut ∧ exc = v.queueSaturated ∨ ∃ answer now, e = .answered answer now

omit [DecidableEq ι] in
theorem Calm.of_ready {call : Call υ} {caller : Caller υ} (h : Reaches R v s call caller t)
    (hp : Verifier.passed caller = (q, fs)) : Calm R v s (.start call) .idle q fs := by
  cases h with
  | prepare =>
    cases hp
    exact ⟨by simp [concernsProbe], (by simp), fun _ => ⟨rfl, rfl⟩, (by simp), (by simp), by simp⟩
  | verify ha =>
    cases hp
    refine ⟨(by simp), (by simp), (by simp), ?_, (by simp), (by simp)⟩
    intro credential userModel he
    cases he
    exact .inl ⟨_, ha, rfl, rfl⟩

omit [DecidableEq ι] in
theorem Calm.of_turnedAway {call : Call υ} {exc : Exn} (h : TurnedAway R v s call exc t) :
    Calm R v s (.start call) .idle .finished [.ended (.raised exc)] where
  unasked := by simp [concernsProbe]
  unqueued := by simp
  prepared he := by
    cases he
    cases h
  straight credential userModel he := by
    cases he
    exact .inr ⟨exc, t, h, rfl⟩
  resumed := by simp
  raised exc' he := by
    obtain rfl : exc' = exc := by simpa using he
    exact .inl ⟨call, t, rfl, h⟩

omit [DecidableEq ι] in
theorem Calm.of_resumed {caller : Caller υ} (h : Verifier.passed caller = (q, fs)) :
    Calm R v s .lockResumed (.lockGranted caller) q fs := by
  obtain ⟨rfl, rfl, rfl⟩ | ⟨pending, rfl, rfl, rfl⟩ := passed_eq h
  · refine ⟨by simp [concernsProbe], (by simp), (by simp), (by simp), ?_, by simp⟩
    intro caller _ hc
    cases hc
    rfl
  · refine ⟨(by simp), (by simp), (by simp), (by simp), ?_, (by simp)⟩
    intro caller _ hc
    cases hc
    rfl

omit [DecidableEq ι] in
/-- A section that neither begins a call nor resumes one under the lock, and after which the call
does not wait for the lock. -/
theorem Calm.of_later (hstart : ∀ call, e ≠ .start call) (hl : e ≠ .lockResumed)
    (hq : ∀ caller, q ≠ .waitingLock caller) (hf : ∀ f ∈ fs, concernsProbe f = false)
    (hraised : ∀ exc, .ended (.raised exc) ∈ fs →
      e = .queueTimedOut ∧ exc = v.queueSaturated ∨ ∃ answer now, e = .answered answer now) :
    Calm R v s e p q fs where
  unasked := hf
  unqueued := hq
  prepared he := (hstart _ he).elim
  straight _ _ he := (hstart _ he).elim
  resumed _ he := (hl he).elim
  raised exc hm := .inr (hraised exc hm)

/-- Once the upstream is proven, every section of a call that is not itself probing is calm. -/
theorem calm_of_act (hs : s.probedOk = true) (hc : s.contractFailure = none)
    (hp : probes p = false) (h : v.act R i e s p = some (t, q, fs)) : Calm R v s e p q fs := by
  by_cases hl : e = .lockResumed ∧ ∃ caller, p = .lockGranted caller
  · obtain ⟨rfl, caller, rfl⟩ := hl
    have hlocked : v.locked caller s = (Verifier.unlocked s, Verifier.passed caller) := if_pos hs
    have heq : v.locked caller s = (t, q, fs) := Option.some.inj h
    exact .of_resumed (Prod.mk.inj (hlocked.symm.trans heq)).2
  · cases act_moves h with
    | turnedAway ha => exact .of_turnedAway ha
    | readyAtOnce hr _ hq => exact .of_ready hr hq
    | refusedAtOnce hr hf =>
      rw [hr.aside.contractFailure, hc] at hf
      cases hf
    | queued hr hn =>
      rw [hr.aside.probedOk, hs] at hn
      cases hn
    | readyUnderLock => exact (hl ⟨rfl, _, rfl⟩).elim
    | refusedUnderLock => exact (hl ⟨rfl, _, rfl⟩).elim
    | probeStarted => exact (hl ⟨rfl, _, rfl⟩).elim
    | rungPassed | rungFailed | probePassed | probeFailed => cases hp
    | lockAcquired | slotAcquired | sent | answered | waitAbandoned | lockAbandoned
      | slotAbandoned => exact .of_later (by simp) (by simp) (by simp) (by simp [concernsProbe]) (by simp)
    | queueTimedOut =>
      exact .of_later (by simp) (by simp) (by simp) (by simp [concernsProbe])
        fun exc he => .inl ⟨rfl, by simpa using he⟩
    | failed =>
      exact .of_later (by simp) (by simp) (by simp) (by simp [concernsProbe])
        fun _ _ => .inr ⟨_, _, rfl⟩
    | probeAbandoned hq => obtain rfl | rfl := hq <;> cases hp

theorem calm_at (h : Run (v.machine R) (Verifier.start clock) tr w) (hx : x ∈ tr)
    (hs : x.before.shared.probedOk = true) (he : x.event = .act i e) :
    Calm R v x.before.shared e (x.before.phase i) (x.after.phase i) x.effects := by
  obtain ⟨a, b, -, hr, hu, -⟩ := h.of_mem hx
  obtain ⟨hset, hi⟩ := stands hr
  have hp : probes (x.before.phase i) = false := by
    by_contra hp
    have hu := ((hi i).untried (eq_true_of_ne_false hp)).1
    rw [hs] at hu
    cases hu
  exact calm_of_act hs (hset.exclusive hs) hp (Program.act_of_event hu he)

/-- Once a `prepare` has returned, or a call has got past the gate, readiness is settled: from then
on no probe is sent, no call waits for the gate or fails by it, and every `prepare` returns at
once. -/
theorem readiness_settled (R : Runtime) (v : Verifier) (clock : Seconds)
    (h : Run (v.machine R) (Verifier.start clock) tr w) :
    ∀ a x b i, tr = a ++ x :: b →
      Did i (.ended .prepared) x ∨ pastGate (x.after.phase i) = true →
      ∀ y ∈ b, ∀ j e, y.event = .act j e →
        Calm R v y.before.shared e (y.before.phase j) (y.after.phase j) y.effects := by
  rintro a x b i rfl hpass y hy j e he
  obtain ⟨hr, hx, hb⟩ := h.at
  have hproven : x.after.shared.probedOk = true := by
    obtain ⟨-, hf⟩ | hq := hpass
    · obtain ⟨_, _, -, hm⟩ := moves_of_effect hx hf
      exact probed_of_prepared hm hf
    · exact ((stands (hr.snoc hx)).2 i).ready hq
  obtain ⟨c, d, rfl, hc, -, -⟩ := hb.of_mem hy
  have hkept : y.before.shared.probedOk = true := by
    cases c with
    | nil =>
      rw [hc.of_nil]
      exact hproven
    | cons z c =>
      obtain ⟨hnil, -, -⟩ := Run.at (a := []) hc
      refine (verdicts_stay ((hr.snoc hx).append hc) z (by simp)).1 ?_
      rw [hnil.of_nil]
      exact hproven
  exact calm_at h (by simp) hkept he

def bootEvents : List (Happening Nat (Event Payload) Seconds) :=
  [.start .prepare, .lockAcquired, .lockResumed, .probeAnswered (jsonAnswer "null"),
    .advised (jsonAnswer "null")].map (.act 1) ++
    [.act 2 (.start .prepare), .act 0 (.start (.verify (.remote sampleSnapshot) sampleUser))]

def bootShows (tr : History Nat Payload) : Bool :=
  (tr.drop 4).head?.any (fun x => x.effects.any fun
    | .ended .prepared => true
    | _ => false) &&
  tr.getLast?.any fun x => pastGate (x.after.phase 0)

theorem readiness_settled_boot :
    ∃ (tr : History Nat Payload) (w : World Nat (Shared Nat) (Phase Payload)),
      Run (sampleVerifier.machine sampleRuntime) (Verifier.start 0) tr w ∧
        bootShows tr = true ∧ ∀ a x b i, tr = a ++ x :: b →
          Did i (.ended .prepared) x ∨ pastGate (x.after.phase i) = true →
          ∀ y ∈ b, ∀ j e, y.event = .act j e →
            Calm sampleRuntime sampleVerifier y.before.shared e (y.before.phase j)
              (y.after.phase j) y.effects := by
  have h : ((replay (sampleVerifier.machine sampleRuntime) (Verifier.start 0) bootEvents).any
      fun r => bootShows r.1) = true := by decide +kernel
  obtain ⟨tr, w, hr, hs⟩ := Run.of_replay_any (P := bootShows) h
  exact ⟨tr, w, hr, hs, readiness_settled _ _ _ hr⟩

end BetterAuthBridge.RemoteStartup
