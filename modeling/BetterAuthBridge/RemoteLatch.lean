import BetterAuthBridge.RemoteSoundness

namespace BetterAuthBridge.RemoteLatch

open Library Library.Runs Library.Tasks Values Models RemoteResponse RemoteGates RemoteVerifier
open RemoteSections RemoteSteps RemoteInvariants RemoteSoundness

variable {ι υ : Type} [DecidableEq ι] {R : Runtime} {v : Verifier} {i j : ι} {s t : Shared ι}
  {e : Event υ} {p q : Phase υ} {fs : List (Effect υ)} {tr : History ι υ} {till : Seconds}
  {w u : World ι (Shared ι) (Phase υ)} {clock : Seconds}

/-- Past the latch check and not yet sent. -/
def midway : Phase υ → Bool
  | .fetching _ => false
  | p => (pendingOf p).isSome

def latchHolds (s : Shared ι) : Prop := InForce s.clock s.blockedUntil

def Honoured (tr : History ι υ) : Prop :=
  ∀ x ∈ tr, ∀ i uri headers, Did i (.getSessionSent uri headers) x → ¬ latchHolds x.before.shared

def Trips (till : Seconds)
    (x : Transition (World ι (Shared ι) (Phase υ)) (Happening ι (Event υ) Seconds) (Effect υ)) :
    Prop :=
  ∃ i response now, x.event = .act i (.answered (.response response) now) ∧
    response.statusCode = rateLimited ∧ ¬ latchHolds x.before.shared ∧
    till = x.before.shared.clock + retryAfterSeconds response

/-- A call that stood midway when the latch was tripped is not resumed with its slot before the
window has passed. -/
def StragglersWait (tr : History ι υ) : Prop :=
  ∀ a x b till, tr = a ++ x :: b → Trips till x → ∀ i, midway (x.before.phase i) = true →
    ∀ y ∈ b, y.event = .act i .slotResumed → till ≤ y.before.shared.clock

def latchAfter (answer : Answer) (s : Shared ι) : Option Seconds :=
  match answer with
  | .response response => observe s.clock response s.blockedUntil
  | .raised _ => s.blockedUntil

theorem closing_blockedUntil {pending : Pending υ} {answer : Answer} {now : Readings}
    {result : Except Errors.Exn (Session υ)}
    (h : Procedure.exec (v.closing R pending answer now) (Verifier.released i s) = (result, t)) :
    t.blockedUntil = latchAfter answer s := by
  rw [exec_closing] at h
  cases answer with
  | response response =>
    rw [fetchTranslated_ok.mpr rfl] at h
    cases h
    rfl
  | raised exc =>
    cases hf : v.fetchTranslated (.raised exc) with
    | error exc =>
      rw [hf] at h
      cases h
      rfl
    | ok response => cases fetchTranslated_ok.mp hf

theorem blockedUntil_of_moves (h : Moves R v i s e p t q fs) :
    t.blockedUntil = s.blockedUntil ∨ t.blockedUntil = (latched s.clock s.blockedUntil).2 ∨
      ∃ response now, e = .answered (.response response) now ∧
        t.blockedUntil = observe s.clock response s.blockedUntil := by
  have reached : ∀ {call caller u}, Reaches R v s (υ := υ) call caller u →
      u.blockedUntil = s.blockedUntil ∨ u.blockedUntil = (latched s.clock s.blockedUntil).2 := by
    intro call caller u hr
    cases hr with
    | prepare => exact .inl rfl
    | verify => exact .inr rfl
  cases h with
  | turnedAway ht =>
    cases ht with
    | rateLimited => exact .inr (.inl rfl)
    | _ => exact .inl rfl
  | readyAtOnce hr | refusedAtOnce hr | queued hr => exact (reached hr).imp_right .inl
  | rungFailed | probeFailed => exact .inl (noted_frame ..).2.2.2
  | @answered _ answer _ _ _ hc | @failed _ answer _ _ _ hc =>
    have hk := closing_blockedUntil hc
    cases answer with
    | response response => exact .inr (.inr ⟨response, _, rfl, hk⟩)
    | raised exc => exact .inl hk
  | _ => exact .inl rfl

theorem latch_kept (h : Moves R v i s e p t q fs) (hl : latchHolds s) :
    t.blockedUntil = s.blockedUntil := by
  obtain hk | hk | ⟨response, now, -, hk⟩ := blockedUntil_of_moves h
  · exact hk
  · rw [hk, latched_kept hl]
  · rw [hk, observe_kept hl]

theorem latch_set (h : Moves R v i s e p t q fs) (ht : t.blockedUntil = some till) :
    s.blockedUntil = some till ∨ ∃ response now, e = .answered (.response response) now ∧
      response.statusCode = rateLimited ∧ ¬ latchHolds s ∧
      till = s.clock + retryAfterSeconds response := by
  obtain hk | hk | ⟨response, now, he, hk⟩ := blockedUntil_of_moves h
  · exact .inl (hk.symm.trans ht)
  · exact .inl (latched_snd (hk.symm.trans ht))
  · exact (observe_eq_some (hk.symm.trans ht)).imp_right fun ho => ⟨response, now, he, ho⟩

omit [DecidableEq ι] in
theorem latch_clear_of_reaches {call : Call υ} {pending : Pending υ}
    (h : Reaches R v s call (.verify pending) t) : ¬ latchHolds s := by
  cases h with
  | verify _ _ hl => exact fun hs => Bool.false_ne_true (hl.symm.trans (latched_iff.mpr hs))

/-- A call comes to stand midway only past a latch that does not hold. -/
theorem midway_of_moves (h : Moves R v i s e p t q fs) (hq : midway q = true) :
    midway p = true ∨ ¬ latchHolds s := by
  cases h with
  | readyAtOnce hr _ hp =>
    obtain ⟨-, rfl, -⟩ | ⟨pending, rfl, -, -⟩ := passed_eq hp
    · cases hq
    · exact .inr (latch_clear_of_reaches hr)
  | @queued _ caller _ hr =>
    cases caller with
    | prepare => cases hq
    | verify pending => exact .inr (latch_clear_of_reaches hr)
  | readyUnderLock _ hp | probePassed _ hp =>
    obtain ⟨-, rfl, -⟩ | ⟨pending, rfl, -, -⟩ := passed_eq hp
    · cases hq
    · exact .inl rfl
  | lockAcquired | probeStarted | rungPassed | slotAcquired => exact .inl hq
  | _ => cases hq

theorem resumed_of_sent (h : Moves R v i s e p t q fs) {uri : String}
    {headers : List (String × Text)} (hf : .getSessionSent uri headers ∈ fs) :
    e = .slotResumed ∧ midway p = true := by
  cases h with
  | sent => exact ⟨rfl, rfl⟩
  | readyAtOnce _ _ hp | readyUnderLock _ hp | probePassed _ hp =>
    obtain ⟨-, -, rfl⟩ | ⟨_, -, -, rfl⟩ := passed_eq hp <;> simp at hf
  | _ => simp at hf

theorem sent_of_resumed (h : Moves R v i s .slotResumed p t q fs) :
    ∃ uri headers, .getSessionSent uri headers ∈ fs := by
  cases h with
  | sent => exact ⟨_, _, List.mem_cons_self⟩

theorem answered_of_moves {answer : Answer} {now : Readings}
    (h : Moves R v i s (.answered answer now) p t q fs) :
    q = .finished ∧ t.blockedUntil = latchAfter answer s := by
  cases h with
  | answered hc | failed hc => exact ⟨rfl, closing_blockedUntil hc⟩

/-- While the latch holds, some `429` tripped it, and whoever stands midway stood there then. -/
theorem tripped (h : Run (v.machine R) (Verifier.start clock) tr w) (hl : latchHolds w.shared) :
    ∃ a x b till, tr = a ++ x :: b ∧ Trips till x ∧ w.shared.blockedUntil = some till ∧
      ∀ j, midway (w.phase j) = true → midway (x.before.phase j) = true := by
  revert hl
  refine h.invariant (I := fun tr w => latchHolds w.shared → ∃ a x b till, tr = a ++ x :: b ∧
    Trips till x ∧ w.shared.blockedUntil = some till ∧
    ∀ j, midway (w.phase j) = true → midway (x.before.phase j) = true) ?_ ?_
  · rintro ⟨till, ht, -⟩
    cases ht
  · rintro tr w ev u fs hr ih hu ⟨till, ht, hlt⟩
    obtain ⟨i, e, rfl, hm, hother⟩ | ⟨now, rfl, hle, rfl, rfl⟩ := machine_moves hu
    · rw [hm.clock] at hlt
      obtain hs | ⟨response, now, rfl, hr, hn, rfl⟩ := latch_set hm ht
      · obtain ⟨a, x, b, till', rfl, hx, hb, hj⟩ := ih ⟨till, hs, hlt⟩
        obtain rfl : till' = till := Option.some.inj (hb.symm.trans hs)
        refine ⟨a, x, b ++ [_], till', List.append_assoc .., hx, ht, fun j hmid => hj j ?_⟩
        by_cases hji : j = i
        · subst hji
          exact (midway_of_moves hm hmid).resolve_right fun hn => hn ⟨till', hs, hlt⟩
        · rwa [hother j hji] at hmid
      · refine ⟨tr, _, [], _, rfl, ⟨i, response, now, rfl, hr, hn, rfl⟩, ht, fun j hmid => ?_⟩
        have hji : j ≠ i := by
          rintro rfl
          rw [(answered_of_moves hm).1] at hmid
          cases hmid
        rwa [hother j hji] at hmid
    · obtain ⟨a, x, b, till', rfl, hx, hb, hj⟩ := ih ⟨till, ht, hle.trans_lt hlt⟩
      exact ⟨a, x, b ++ [_], till', List.append_assoc .., hx, hb, hj⟩

/-- A latch that was tripped holds until its window has passed. -/
theorem holds_till (h : Run (v.machine R) w tr u) (hb : w.shared.blockedUntil = some till) :
    till ≤ u.shared.clock ∨ u.shared.blockedUntil = some till := by
  refine h.preserved (P := fun u => till ≤ u.shared.clock ∨ u.shared.blockedUntil = some till) ?_
    (.inr hb)
  intro w ev u fs hp hu
  obtain ⟨i, e, -, hm, -⟩ | ⟨now, -, hle, -, rfl⟩ := machine_moves hu
  · rw [hm.clock]
    by_cases hlt : till ≤ w.shared.clock
    · exact .inl hlt
    · have hs := hp.resolve_left hlt
      exact .inr ((latch_kept hm ⟨till, hs, not_le.mp hlt⟩).trans hs)
  · exact hp.imp_left hle.trans'

theorem tripped_after {x : Transition (World ι (Shared ι) (Phase υ))
    (Happening ι (Event υ) Seconds) (Effect υ)} (hx : v.machine R x.before x.event =
      some (x.after, x.effects)) (ht : Trips till x) : x.after.shared.blockedUntil = some till := by
  obtain ⟨i, response, now, he, hr, hn, rfl⟩ := ht
  have hm := moves_of_event hx he
  exact (answered_of_moves hm).2.trans (observe_trips hr hn)

/-- The latch is honoured in a run exactly when no call that stood midway as it was tripped is
resumed with its slot in the window; so it is when nobody ever stands midway at such a moment. -/
theorem honoured_iff (R : Runtime) (v : Verifier) (clock : Seconds)
    (h : Run (v.machine R) (Verifier.start clock) tr w) :
    (Honoured tr ↔ StragglersWait tr) ∧
      ((∀ x ∈ tr, ∀ till, Trips till x → ∀ i, midway (x.before.phase i) = false) →
        Honoured tr) := by
  have honoured : StragglersWait tr → Honoured tr := by
    intro hw y hy i uri headers hd hl
    obtain ⟨a', b', rfl, hr, hu, -⟩ := h.of_mem hy
    obtain ⟨a, x, b, till, rfl, hx, hb, hmid⟩ := tripped hr hl
    obtain ⟨till', hb', hlt⟩ := hl
    obtain rfl : till = till' := Option.some.inj (hb.symm.trans hb')
    obtain ⟨⟨e, he⟩, hf⟩ := hd
    obtain ⟨rfl, hp⟩ := resumed_of_sent (moves_of_event hu he) hf
    have hle := hw a x (b ++ y :: b') till (List.append_assoc ..) hx i (hmid i hp) y (by simp) he
    exact hlt.not_ge hle
  refine ⟨⟨fun hh => ?_, honoured⟩, fun hn => honoured ?_⟩
  · rintro a x b till rfl hx i - y hy he
    obtain ⟨-, hu, hb⟩ := h.at
    obtain ⟨c, d, rfl, hc, hy, -⟩ := hb.of_mem hy
    obtain hle | hs := holds_till hc (tripped_after hu hx)
    · exact hle
    · obtain ⟨uri, headers, hf⟩ := sent_of_resumed (moves_of_event hy he)
      by_contra hlt
      exact hh y (by simp) i uri headers ⟨⟨_, he⟩, hf⟩ ⟨till, hs, not_le.mp hlt⟩
  · rintro a x b till rfl hx i hmid
    rw [hn x (by simp) till hx i] at hmid
    cases hmid

section Sample

def narrowVerifier : Verifier := { sampleVerifier with concurrency := 1 }

def rateLimitedAnswer : Answer := .response ⟨429, [("retry-after".toList, "5".toList)], []⟩

/-- Call 1 is past its latch check and waits for the slot when the request of call 0 is answered
with a `429`; after `pause` it gets the slot. -/
def queuedEvents (pause : Seconds) : List (Happening Nat (Event Payload) Seconds) :=
  [.act 2 (.start .prepare), .act 2 .lockAcquired, .act 2 .lockResumed,
    .act 2 (.probeAnswered (jsonAnswer "null")), .act 2 (.advised (jsonAnswer "null")),
    .act 0 (.start (.verify (.remote sampleSnapshot) sampleUser)), .act 0 .slotAcquired,
    .act 0 .slotResumed, .act 1 (.start (.verify (.remote sampleSnapshot) sampleUser)),
    .act 0 (.answered rateLimitedAnswer ⟨0, 0⟩), .drift pause, .act 1 .slotAcquired,
    .act 1 .slotResumed]

def secondSend (held : Bool)
    (x : Transition (World Nat (Shared Nat) (Phase Payload))
      (Happening Nat (Event Payload) Seconds) (Effect Payload)) : Bool :=
  (match x.event with | .act 1 .slotResumed => true | _ => false) &&
    x.effects.any (fun | .getSessionSent .. => true | _ => false) &&
    (latched x.before.shared.clock x.before.shared.blockedUntil).1 == held

end Sample

theorem honoured_iff_paused :
    ∃ (tr : History Nat Payload) (w : World Nat (Shared Nat) (Phase Payload)),
      Run (narrowVerifier.machine sampleRuntime) (Verifier.start 0) tr w ∧
        tr.any (secondSend false) = true ∧ (Honoured tr ↔ StragglersWait tr) := by
  have h : ((replay (narrowVerifier.machine sampleRuntime) (Verifier.start 0) (queuedEvents 5)).any
      fun r => r.1.any (secondSend false)) = true := by decide +kernel
  obtain ⟨tr, w, hr, hs⟩ := Run.of_replay_any (P := fun tr => tr.any (secondSend false)) h
  exact ⟨tr, w, hr, hs, (honoured_iff _ _ _ hr).1⟩

/-- A request leaves the queue after the latch was tripped, and goes out. -/
theorem queued_request_is_sent :
    ¬ ∀ (R : Runtime) (v : Verifier) (clock : Seconds) (tr : History Nat Payload)
      (w : World Nat (Shared Nat) (Phase Payload)),
      Run (v.machine R) (Verifier.start clock) tr w → Honoured tr := by
  intro hall
  have h : ((replay (narrowVerifier.machine sampleRuntime) (Verifier.start 0) (queuedEvents 0)).any
      fun r => r.1.any (secondSend true)) = true := by decide +kernel
  obtain ⟨tr, w, hr, hs⟩ := Run.of_replay_any (P := fun tr => tr.any (secondSend true)) h
  obtain ⟨x, hx, hsend⟩ := List.any_eq_true.mp hs
  simp only [secondSend, Bool.and_eq_true, beq_iff_eq] at hsend
  obtain ⟨⟨hev, hf⟩, hl⟩ := hsend
  obtain ⟨f, hmem, hf⟩ := List.any_eq_true.mp hf
  split at hev
  · rename_i he
    cases f with
    | getSessionSent uri headers =>
      exact hall _ _ _ tr w hr x hx 1 uri headers ⟨⟨_, he⟩, hmem⟩ (latched_iff.mp hl)
    | _ => cases hf
  · cases hev

end BetterAuthBridge.RemoteLatch
