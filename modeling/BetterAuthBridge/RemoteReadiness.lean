import BetterAuthBridge.Library.Throttle
import BetterAuthBridge.RemoteSoundness

namespace BetterAuthBridge.RemoteReadiness

open Library Library.Runs Library.Tasks Library.SingleFlight Library.Throttle Values Errors
open RemoteResponse RemoteProbe RemoteVerifier RemoteSections RemoteSteps RemoteInvariants
open RemoteSoundness

variable {ι υ : Type} [DecidableEq ι] {R : Runtime} {v : Verifier} {i j : ι} {s t : Shared ι}
  {e : Event υ} {p q : Phase υ} {f : Effect υ} {fs : List (Effect υ)} {tr : History ι υ}
  {w u : World ι (Shared ι) (Phase υ)} {clock : Seconds}

def goesOut : Effect υ → Bool
  | .probeSent _ | .bearerSent _ | .getSessionSent .. => true
  | _ => false

def probingSince : Phase υ → Option (Option Seconds)
  | .probing _ previous | .advising _ previous => some previous
  | _ => none

def attemptKind : Effect υ → Option Kind
  | .probeSent _ => some .start
  | .probeSettled _ => some .settle
  | .probeCancelled => some .cancel
  | _ => none

def attempts : Reading (Shared ι) (Phase υ) (Effect υ) Seconds where
  clock := Shared.clock
  last := Shared.probeAttemptedAt
  since := probingSince
  kind := attemptKind

/-- The readiness gate in a run: exclusive and final verdicts, no passing without a passed probe,
one attempt at a time, attempts spaced, and contract failures that shut everything off and that no
unreachable upstream and no cancellation can cause. -/
structure Gated (R : Runtime) (v : Verifier) (tr : History ι υ) (w : World ι (Shared ι) (Phase υ)) :
    Prop where
  exclusive : ¬ (w.shared.probedOk = true ∧ w.shared.contractFailure.isSome = true)
  passedStays : ∀ x ∈ tr, x.before.shared.probedOk = true → w.shared.probedOk = true
  failedStays : ∀ x ∈ tr, ∀ message, x.before.shared.contractFailure = some message →
    w.shared.contractFailure = some message
  passing : ∀ a x b i, tr = a ++ x :: b →
    Did i (.ended .prepared) x ∨ pastGate (x.after.phase i) = true → Probed R v (a ++ [x])
  single : ∀ i j, probes (w.phase i) = true → probes (w.phase j) = true → i = j
  spaced : tr.Pairwise fun x y => ∀ i j uri uri', Did i (.probeSent uri) x →
    Did j (.probeSent uri') y →
    (∀ z ∈ tr, ¬ Did i .probeCancelled z) → (∀ z ∈ tr, ¬ Did j .probeCancelled z) →
    x.before.shared.clock + probeRetryInterval ≤ y.before.shared.clock
  shut : ∀ x ∈ tr, x.before.shared.contractFailure.isSome = true →
    ∀ f ∈ x.effects, goesOut f = false
  blamed : ∀ x ∈ tr, x.before.shared.contractFailure = none →
    x.after.shared.contractFailure.isSome = true → ∃ i answer,
      (x.event = .act i (.probeAnswered answer) ∨ x.event = .act i (.advised answer)) ∧
      ∀ exc, answer = .raised exc → exc.isConfiguration = true

theorem turned_of_moves (h : Moves R v i s e p t q fs) :
    Turned probeRetryInterval s.clock s.probeAttemptedAt (probingSince p)
      (fs.filterMap attemptKind) t.probeAttemptedAt (probingSince q) := by
  have quiet : ∀ {a}, a = s.probeAttemptedAt →
      Turned probeRetryInterval s.clock s.probeAttemptedAt none [] a none := by
    rintro a rfl
    exact .quiet
  cases h with
  | turnedAway h => exact quiet h.aside.probeAttemptedAt
  | readyAtOnce h _ hp =>
    obtain ⟨-, rfl, rfl⟩ | ⟨_, -, rfl, rfl⟩ := passed_eq hp <;> exact quiet h.aside.probeAttemptedAt
  | refusedAtOnce h | queued h => exact quiet h.aside.probeAttemptedAt
  | readyUnderLock _ hp =>
    obtain ⟨-, rfl, rfl⟩ | ⟨_, -, rfl, rfl⟩ := passed_eq hp <;> exact quiet rfl
  | probeStarted _ _ hm =>
    refine .start ?_
    unfold Verifier.mayProbe at hm
    cases hl : s.probeAttemptedAt with
    | none => trivial
    | some l =>
      rw [hl] at hm
      exact of_decide_eq_true hm
  | rungPassed => exact .quiet
  | @rungFailed _ _ _ exc | @probeFailed _ _ _ exc =>
    have hstamp : (Verifier.unlocked (Verifier.noted exc s)).probeAttemptedAt =
      s.probeAttemptedAt := (noted_frame ..).2.2.1
    rw [hstamp]
    exact .settle
  | probePassed _ hp =>
    obtain ⟨-, rfl, rfl⟩ | ⟨_, -, rfl, rfl⟩ := passed_eq hp <;> exact .settle
  | probeAbandoned hp => obtain rfl | rfl := hp <;> exact .cancel
  | waitAbandoned hp => obtain ⟨_, rfl⟩ | ⟨_, rfl⟩ := hp <;> exact quiet rfl
  | slotAbandoned hp => obtain rfl | rfl := hp <;> exact quiet rfl
  | answered h | failed h => exact quiet (closing_aside h).probeAttemptedAt
  | _ => exact quiet rfl

/-- Whoever calls out is at the start of a probe, in the middle of one, or past the gate. -/
theorem silent_of_moves (h : Moves R v i s e p t q fs) (hc : s.contractFailure ≠ none)
    (hp : probes p = false) (hg : pastGate p = false) : ∀ f ∈ fs, goesOut f = false := by
  cases h with
  | probeStarted _ hn => exact (hc hn).elim
  | rungPassed => cases hp
  | sent => cases hg
  | readyAtOnce _ _ hq | readyUnderLock _ hq | probePassed _ hq =>
    obtain ⟨-, -, rfl⟩ | ⟨_, -, -, rfl⟩ := passed_eq hq <;> simp [goesOut]
  | _ => simp [goesOut]

theorem blamed_of_moves (h : Moves R v i s e p t q fs) (hs : s.contractFailure = none)
    (ht : t.contractFailure.isSome = true) :
    ∃ answer, (e = .probeAnswered answer ∨ e = .advised answer) ∧
      ∀ exc, answer = .raised exc → exc.isConfiguration = true := by
  have hnoted : ∀ exc, (Verifier.unlocked (Verifier.noted exc s)).contractFailure.isSome = true →
      exc.isConfiguration = true := by
    intro exc hn
    obtain hkept | hconf := noted_contractFailure exc s
    · rw [Verifier.unlocked, hkept, hs] at hn
      cases hn
    · exact hconf
  have hquiet : probes p = false → False := by
    intro hp
    rw [(h.verdict hp).2, hs] at ht
    cases ht
  cases h with
  | rungFailed hf =>
    refine ⟨_, .inl rfl, ?_⟩
    rintro raised rfl
    have hconf := hnoted _ ht
    exact probed_raised hf hconf ▸ hconf
  | probeFailed hf =>
    refine ⟨_, .inr rfl, ?_⟩
    rintro raised rfl
    have hconf := hnoted _ ht
    exact advise_raised hf hconf ▸ hconf
  | rungPassed | probePassed =>
    change s.contractFailure.isSome = true at ht
    rw [hs] at ht
    cases ht
  | probeAbandoned =>
    change s.contractFailure.isSome = true at ht
    rw [hs] at ht
    cases ht
  | waitAbandoned hp => obtain ⟨_, rfl⟩ | ⟨_, rfl⟩ := hp <;> exact (hquiet rfl).elim
  | slotAbandoned hp => obtain rfl | rfl := hp <;> exact (hquiet rfl).elim
  | _ => exact (hquiet rfl).elim

theorem probed_of_prepared (h : Moves R v i s e p t q fs) (hf : .ended .prepared ∈ fs) :
    t.probedOk = true := by
  cases h with
  | readyAtOnce _ hp => exact hp
  | readyUnderLock hp => exact hp
  | probePassed => rfl
  | _ => simp at hf

/-- One step keeps either verdict. -/
theorem verdict_kept (hr : Run (v.machine R) (Verifier.start clock) tr w)
    {h : Happening ι (Event υ) Seconds} (hu : v.machine R w h = some (u, fs)) :
    (w.shared.probedOk = true → u.shared.probedOk = true) ∧
      ∀ message, w.shared.contractFailure = some message →
        u.shared.contractFailure = some message := by
  obtain ⟨i, e, -, hm, -⟩ | ⟨now, -, -, -, rfl⟩ := machine_moves hu
  · refine ⟨hm.probedOk_mono, fun message hc => ?_⟩
    have hp : probes (w.phase i) = false := by
      by_contra hp
      rw [(((stands hr).2 i).untried (eq_true_of_ne_false hp)).2] at hc
      cases hc
    exact (hm.verdict hp).2.trans hc
  · exact ⟨id, fun _ => id⟩

omit [DecidableEq ι] in
theorem probes_of_since (h : (probingSince p).isSome = true) : probes p = true := by
  cases p <;> first | rfl | cases h

theorem attempts_spaced (h : Run (v.machine R) (Verifier.start clock) tr w) :
    tr.Pairwise fun x y => ∀ i j, attempts.Marks i .start x → attempts.Marks j .start y →
      (∀ z ∈ tr, ¬ attempts.Marks i .cancel z) → (∀ z ∈ tr, ¬ attempts.Marks j .cancel z) →
      x.before.shared.clock + probeRetryInterval ≤ y.before.shared.clock := by
  apply Reading.spaced (r := attempts) h rfl fun _ => rfl
  · intro tr w i e s' q fs _ he
    have hm := act_moves he
    exact ⟨hm.clock, turned_of_moves hm⟩
  · intro d s s' hd
    obtain ⟨hle, rfl⟩ := drift_some hd
    exact ⟨hle, rfl⟩
  · exact fun tr w i j hr hi hj => single_flight hr (probes_of_since hi) (probes_of_since hj)

theorem verdicts_stay (h : Run (v.machine R) (Verifier.start clock) tr w) :
    ∀ x ∈ tr, (x.before.shared.probedOk = true → w.shared.probedOk = true) ∧
      ∀ message, x.before.shared.contractFailure = some message →
        w.shared.contractFailure = some message := by
  refine h.invariant (I := fun tr w => ∀ x ∈ tr,
    (x.before.shared.probedOk = true → w.shared.probedOk = true) ∧
      ∀ message, x.before.shared.contractFailure = some message →
        w.shared.contractFailure = some message) (by simp) ?_
  intro tr w e u fs hr ih hu x hx
  obtain ⟨hp, hc⟩ := verdict_kept hr hu
  obtain hx | hx := List.mem_append.mp hx
  · exact ⟨fun h => hp ((ih x hx).1 h), fun m h => hc m ((ih x hx).2 m h)⟩
  · cases List.mem_singleton.mp hx
    exact ⟨hp, hc⟩

variable
  {x : Transition (World ι (Shared ι) (Phase υ)) (Happening ι (Event υ) Seconds) (Effect υ)}

/-- Nothing goes out while a contract failure is remembered. -/
theorem shut_off (h : Run (v.machine R) (Verifier.start clock) tr w) (hx : x ∈ tr)
    (hc : x.before.shared.contractFailure.isSome = true) : ∀ f ∈ x.effects, goesOut f = false := by
  obtain ⟨a, b, -, hr, hu, -⟩ := h.of_mem hx
  intro f hf
  obtain ⟨i, e, -, hm⟩ := moves_of_effect hu hf
  obtain ⟨hs, hi⟩ := stands hr
  have hne : x.before.shared.contractFailure ≠ none := Option.isSome_iff_ne_none.mp hc
  refine silent_of_moves hm hne ?_ ?_ f hf
  · by_contra hp
    exact hne ((hi i).untried (eq_true_of_ne_false hp)).2
  · by_contra hg
    exact hne (hs.exclusive ((hi i).ready (eq_true_of_ne_false hg)))

theorem probes_gated (R : Runtime) (v : Verifier) (clock : Seconds)
    (h : Run (v.machine R) (Verifier.start clock) tr w) : Gated R v tr w := by
  constructor
  · rintro ⟨hp, hc⟩
    rw [(stands h).1.exclusive hp] at hc
    cases hc
  · exact fun x hx => (verdicts_stay h x hx).1
  · exact fun x hx => (verdicts_stay h x hx).2
  · rintro a x b i rfl hpass
    obtain ⟨hr, hx, -⟩ := h.at
    have hs := stands (hr.snoc hx)
    apply hs.1.proven
    obtain ⟨-, hf⟩ | hq := hpass
    · obtain ⟨_, _, -, hm⟩ := moves_of_effect hx hf
      exact probed_of_prepared hm hf
    · exact (hs.2 i).ready hq
  · exact fun i j => single_flight h
  · refine (attempts_spaced h).imp ?_
    intro x y hxy i j uri uri' hx hy hi hj
    have hcancel : ∀ {k}, (∀ z ∈ tr, ¬ Did k .probeCancelled z) →
        ∀ z ∈ tr, ¬ attempts.Marks k .cancel z := by
      rintro k hk z hz ⟨f, hf, hkind⟩
      cases f <;> cases hkind
      exact hk z hz hf
    exact hxy i j ⟨_, hx, rfl⟩ ⟨_, hy, rfl⟩ (hcancel hi) (hcancel hj)
  · exact fun x hx hc => shut_off h hx hc
  · intro x hx hn hs
    obtain ⟨a, b, -, hr, hu, -⟩ := h.of_mem hx
    obtain ⟨i, e, he, hm, -⟩ | ⟨_, -, -, -, heq⟩ := machine_moves hu
    · obtain ⟨answer, hev, hexc⟩ := blamed_of_moves hm hn hs
      refine ⟨i, answer, ?_, hexc⟩
      rw [he]
      exact hev.imp (congrArg _) (congrArg _)
    · rw [heq] at hs
      rw [hn] at hs
      cases hs

/-- A probe that finds nobody, and the next one ten seconds later. -/
def retryEvents : List (Happening Nat (Event Payload) Seconds) :=
  [.act 1 (.start .prepare), .act 1 .lockAcquired, .act 1 .lockResumed,
    .act 1 (.probeAnswered (.raised (.timeout "TimeoutError"))), .drift 10] ++ sampleEvents 0

def probeStarts (tr : History Nat Payload) : Nat :=
  (tr.filter fun x => x.effects.any fun | .probeSent _ => true | _ => false).length

theorem gated_retry : ∃ (tr : History Nat Payload) (w : World Nat (Shared Nat) (Phase Payload)),
    Run (sampleVerifier.machine sampleRuntime) (Verifier.start 0) tr w ∧
      (probeStarts tr == 2) = true ∧
      Gated sampleRuntime sampleVerifier tr w := by
  have h : ((replay (sampleVerifier.machine sampleRuntime) (Verifier.start 0) retryEvents).any
      fun r => probeStarts r.1 == 2) = true := by decide +kernel
  obtain ⟨tr, w, hr, hp⟩ := Run.of_replay_any (P := fun tr => probeStarts tr == 2) h
  exact ⟨tr, w, hr, hp, probes_gated _ _ _ hr⟩

end BetterAuthBridge.RemoteReadiness
