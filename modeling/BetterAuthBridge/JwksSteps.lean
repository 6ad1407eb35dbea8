import BetterAuthBridge.JwksClient

namespace BetterAuthBridge.JwksSteps

open Library Library.Runs Library.Tasks Values Errors Models RemoteResponse JwksDocument
open JwksClient

variable {ι κ : Type}

abbrev History (ι κ : Type) := Trace ι (Shared ι κ) Phase Event Seconds (Effect κ)

inductive Replies (c : Client κ) (kid : Str) (s : Shared ι κ) : Shared ι κ → Ending κ → Prop
  | found {keys jwk} : s.keys = some keys → Ordered.get keys kid = some jwk →
      Replies c kid s (unlocked s) (.key jwk)
  | absent {keys} : s.keys = some keys → Ordered.get keys kid = none → c.isFresh s = true →
      Replies c kid s (unlocked (Client.remember kid s)) .absent
  | unconfirmed : (∀ keys, s.keys = some keys → Ordered.get keys kid = none) →
      Replies c kid s (unlocked s) (.raised (c.unconfirmed kid))

inductive Forgets (kid : Str) (s : Shared ι κ) : Shared ι κ → Prop
  | nothing : Forgets kid s s
  | lapsed : Forgets kid s { s with missing := Ordered.erase s.missing kid }

def refilled (keys : KeySet κ) (s : Shared ι κ) : Shared ι κ :=
  { s with keys := some keys, fetchedAt := some s.clock, missing := [] }

/-- Everything one section of a `key_for` can do. -/
inductive Moves (c : Client κ) (R : Runtime) (i : ι) (s : Shared ι κ) :
    Event → Phase → Shared ι κ → Phase → List (Effect κ) → Prop
  | hit {kid jwk} : c.freshHit kid s = some jwk →
      Moves c R i s (.start kid) .idle s .finished [.ended kid (.key jwk)]
  | missed {kid} : c.freshHit kid s = none → Moves c R i s (.start kid) .idle s (.waiting kid) []
  | lockAcquired {kid} : s.lock = none →
      Moves c R i s .lockAcquired (.waiting kid) { s with lock := some i } (.granted kid) []
  | hitUnderLock {kid jwk} : c.freshHit kid s = some jwk →
      Moves c R i s .lockResumed (.granted kid) (unlocked s) .finished [.ended kid (.key jwk)]
  | fetchStarted {kid} : c.freshHit kid s = none → c.mayFetch s = true →
      Moves c R i s .lockResumed (.granted kid) { s with attemptedAt := some s.clock }
        (.fetching kid s.attemptedAt) [.fetchSent c.uri]
  | remembered {kid stamp} : Ordered.get s.missing kid = some stamp →
      s.clock - stamp < c.negativeTtl →
      Moves c R i s .lockResumed (.granted kid) (unlocked s) .finished [.ended kid .absent]
  | replied {kid u t ending} : Forgets kid s u → Replies c kid u t ending →
      Moves c R i s .lockResumed (.granted kid) t .finished [.ended kid ending]
  | refreshed {kid previous answer keys t ending} : c.fetched R answer = .ok keys →
      Replies c kid (refilled keys s) t ending →
      Moves c R i s (.answered answer) (.fetching kid previous) t .finished
        [.fetchSettled (some keys), .ended kid ending]
  | refreshFailed {kid previous answer exc t ending} : c.fetched R answer = .error exc →
      Replies c kid s t ending →
      Moves c R i s (.answered answer) (.fetching kid previous) t .finished
        [.fetchSettled none, .ended kid ending]
  | failed {kid previous answer exc} : c.fetched R answer = .error exc →
      exc.isUnavailable = false ∨ s.keys = none →
      Moves c R i s (.answered answer) (.fetching kid previous) (unlocked s) .finished
        [.fetchSettled none, .ended kid (.raised exc)]
  | waitAbandoned {kid} :
      Moves c R i s .cancelled (.waiting kid) s .finished [.ended kid .cancelled]
  | lockAbandoned {kid} :
      Moves c R i s .cancelled (.granted kid) (unlocked s) .finished [.ended kid .cancelled]
  | fetchAbandoned {kid previous} :
      Moves c R i s .cancelled (.fetching kid previous)
        (unlocked { s with attemptedAt := previous }) .finished
        [.fetchCancelled, .ended kid .cancelled]

variable {c : Client κ} {R : Runtime} {i : ι} {kid : Str} {s t : Shared ι κ} {e : Event}
  {p q : Phase} {fs : List (Effect κ)}

theorem answer_replies (c : Client κ) (kid : Str) (s : Shared ι κ) :
    ∃ t ending, c.answer kid s = (t, finish kid ending) ∧ Replies c kid s t ending := by
  unfold Client.answer
  cases hk : s.keys with
  | none => exact ⟨_, _, rfl, .unconfirmed (by simp [hk])⟩
  | some keys =>
    cases hg : Ordered.get keys kid with
    | some jwk =>
      simp only [Option.bind_some, hg]
      exact ⟨_, _, rfl, .found hk hg⟩
    | none =>
      simp only [Option.bind_some, hg, Option.isSome_some, Bool.true_and]
      by_cases hf : c.isFresh s = true
      · rw [if_pos hf]
        exact ⟨_, _, rfl, .absent hk hg hf⟩
      · rw [if_neg hf]
        refine ⟨_, _, rfl, .unconfirmed fun keys' hk' => ?_⟩
        rw [← Option.some.inj (hk.symm.trans hk'), hg]

theorem isRemembered_cases (c : Client κ) (kid : Str) (s : Shared ι κ) :
    (∃ u, c.isRemembered kid s = (false, u) ∧ Forgets kid s u) ∨
      ∃ stamp, c.isRemembered kid s = (true, s) ∧ Ordered.get s.missing kid = some stamp ∧
        s.clock - stamp < c.negativeTtl := by
  unfold Client.isRemembered
  cases hg : Ordered.get s.missing kid with
  | none => exact .inl ⟨s, rfl, .nothing⟩
  | some stamp =>
    by_cases hl : c.negativeTtl ≤ s.clock - stamp
    · exact .inl ⟨_, if_pos hl, .lapsed⟩
    · exact .inr ⟨stamp, if_neg hl, rfl, not_le.mp hl⟩

theorem opened_moves (h : c.opened kid s = (t, q, fs)) :
    Moves c R i s (.start kid) .idle t q fs := by
  unfold Client.opened at h
  cases hf : c.freshHit kid s with
  | some hit =>
    rw [hf] at h
    cases h
    exact .hit hf
  | none =>
    rw [hf] at h
    cases h
    exact .missed hf

theorem locked_moves (h : c.locked kid s = (t, q, fs)) :
    Moves c R i s .lockResumed (.granted kid) t q fs := by
  unfold Client.locked at h
  cases hf : c.freshHit kid s with
  | some hit =>
    rw [hf] at h
    cases h
    exact .hitUnderLock hf
  | none =>
    rw [hf] at h
    dsimp only at h
    by_cases hm : c.mayFetch s = true
    · rw [if_pos hm] at h
      cases h
      exact .fetchStarted hf hm
    · rw [if_neg hm] at h
      obtain ⟨u, hr, hu⟩ | ⟨stamp, hr, hg, hl⟩ := isRemembered_cases c kid s
      · obtain ⟨t', ending, ha, hrep⟩ := answer_replies c kid u
        rw [hr] at h
        cases ha.symm.trans h
        exact .replied hu hrep
      · rw [hr] at h
        cases h
        exact .remembered hg hl

theorem refreshed_moves {answer : Answer} {previous : Option Seconds}
    (h : c.refreshed R kid answer s = (t, q, fs)) :
    Moves c R i s (.answered answer) (.fetching kid previous) t q fs := by
  unfold Client.refreshed at h
  cases hf : c.fetched R answer with
  | ok keys =>
    obtain ⟨u, ending, ha, hr⟩ := answer_replies c kid (refilled keys s)
    rw [refilled] at ha
    simp only [hf, ha] at h
    cases h
    exact .refreshed hf hr
  | error exc =>
    obtain ⟨u, ending, ha, hr⟩ := answer_replies c kid s
    simp only [hf, ha] at h
    by_cases hs : (exc.isUnavailable && s.keys.isSome) = true
    · rw [if_pos hs] at h
      cases h
      exact .refreshFailed hf hr
    · rw [if_neg hs] at h
      cases h
      refine .failed hf ?_
      by_cases hu : exc.isUnavailable = true
      · exact .inr (by simpa [hu] using hs)
      · exact .inl (eq_false_of_ne_true hu)

theorem act_moves (h : c.act R i e s p = some (t, q, fs)) : Moves c R i s e p t q fs := by
  unfold Client.act at h
  split at h
  · exact opened_moves (Option.some.inj h)
  · split at h
    · rename_i hl
      cases h
      exact .lockAcquired (Option.isNone_iff_eq_none.mp hl)
    · cases h
  · exact locked_moves (Option.some.inj h)
  · exact refreshed_moves (Option.some.inj h)
  · cases p with
    | idle => cases h
    | finished => cases h
    | waiting kid =>
      cases h
      exact .waitAbandoned
    | granted kid =>
      cases h
      exact .lockAbandoned
    | fetching kid previous =>
      cases h
      exact .fetchAbandoned
  · cases h

theorem Replies.frame {u : Shared ι κ} {ending : Ending κ} (h : Replies c kid s u ending) :
    u.clock = s.clock ∧ u.keys = s.keys ∧ u.fetchedAt = s.fetchedAt ∧
      u.attemptedAt = s.attemptedAt ∧ u.lock = none := by
  cases h <;> exact ⟨rfl, rfl, rfl, rfl, rfl⟩

theorem Forgets.frame (h : Forgets kid s t) : t.clock = s.clock ∧ t.keys = s.keys ∧
    t.fetchedAt = s.fetchedAt ∧ t.attemptedAt = s.attemptedAt := by
  cases h <;> exact ⟨rfl, rfl, rfl, rfl⟩

theorem clock_of_moves (h : Moves c R i s e p t q fs) : t.clock = s.clock := by
  cases h with
  | replied hf hr => exact hr.frame.1.trans hf.frame.1
  | refreshed _ hr | refreshFailed _ hr => exact hr.frame.1
  | _ => rfl

theorem drift_some {now : Seconds} (h : (c.program R).drift now s = some t) :
    s.clock ≤ now ∧ { s with clock := now } = t := by
  simpa [Client.program] using h

section

variable [DecidableEq ι]

theorem machine_moves {w u : World ι (Shared ι κ) Phase}
    {h : Happening ι Event Seconds} (hu : c.machine R w h = some (u, fs)) :
    (∃ i e, h = .act i e ∧ Moves c R i w.shared e (w.phase i) u.shared (u.phase i) fs ∧
      ∀ j, j ≠ i → u.phase j = w.phase j) ∨
    ∃ now, h = .drift now ∧ w.shared.clock ≤ now ∧ fs = [] ∧
      u = ⟨{ w.shared with clock := now }, w.phase⟩ := by
  obtain ⟨i, e, rfl, ha, hother⟩ | ⟨now, t, rfl, hd, rfl, rfl⟩ := Program.machine_steps hu
  · exact .inl ⟨i, e, rfl, act_moves ha, hother⟩
  · obtain ⟨hle, rfl⟩ := drift_some hd
    exact .inr ⟨now, rfl, hle, rfl, rfl⟩

variable {x : Transition (World ι (Shared ι κ) Phase) (Happening ι Event Seconds) (Effect κ)}

theorem moves_of_event (hx : c.machine R x.before x.event = some (x.after, x.effects))
    (he : x.event = .act i e) :
    Moves c R i x.before.shared e (x.before.phase i) x.after.shared (x.after.phase i)
      x.effects :=
  act_moves (Program.act_of_event hx he)

theorem moves_of_effect {f : Effect κ}
    (hx : c.machine R x.before x.event = some (x.after, x.effects)) (hf : f ∈ x.effects) :
    ∃ i e, x.event = .act i e ∧
      Moves c R i x.before.shared e (x.before.phase i) x.after.shared (x.after.phase i)
        x.effects := by
  obtain ⟨i, e, hev, ha⟩ := Program.act_of_effect hx hf
  exact ⟨i, e, hev, act_moves ha⟩

end

end BetterAuthBridge.JwksSteps
