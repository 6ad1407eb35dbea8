import BetterAuthBridge.Library.Slots
import BetterAuthBridge.RemoteSoundness
import Mathlib.Data.Finset.Card

namespace BetterAuthBridge.RemoteSlots

open Library Library.Runs Library.Tasks Library.Slots Values Errors Models CookieParsing
open RemoteResponse RemoteProbe RemoteVerifier RemoteSections RemoteSteps RemoteInvariants
open RemoteSoundness

variable {ι υ : Type}

def borrows : Phase υ → Bool
  | .slotGranted _ | .fetching _ => true
  | _ => false

/-- A get-session request of the call is on its way: its own, or the probe it makes for all. -/
def inFlight : Phase υ → Bool
  | .fetching _ | .probing .. | .advising .. => true
  | _ => false

def ahead : Phase υ → Bool
  | .slotGranted _ | .fetching _ | .finished => false
  | _ => true

/-- Where `_fetched` acquires and releases. -/
def use : Event υ → Phase υ → Option Use
  | .slotAcquired, .waitingSlot _ => some .acquire
  | .answered .., .fetching _ => some .release
  | .cancelled, .slotGranted _ | .cancelled, .fetching _ => some .release
  | _, _ => none

def slots : Usage ι (Shared ι) (Phase υ) (Event υ) := ⟨⟨Shared.borrowers, borrows⟩, use⟩

def sends : Effect υ → Bool
  | .probeSent _ | .bearerSent _ | .getSessionSent .. => true
  | _ => false

abbrev Step (ι υ : Type) :=
  Transition (World ι (Shared ι) (Phase υ)) (Happening ι (Event υ) Seconds) (Effect υ)

/-- A call stops waiting for a slot without one: its queueing times out or it is cancelled. -/
def LeavesQueue (i : ι) (x : Step ι υ) : Prop :=
  (∃ pending, x.before.phase i = .waitingSlot pending) ∧
    (x.event = .act i .queueTimedOut ∨ x.event = .act i .cancelled)

structure Bounded (v : Verifier) [DecidableEq ι] (tr : History ι υ)
    (w : World ι (Shared ι) (Phase υ)) : Prop where
  inFlight : ∀ calls : Finset ι, (∀ i ∈ calls, inFlight (w.phase i) = true) →
    calls.card ≤ v.concurrency
  held : Held slots.toHolding v.concurrency w
  balanced : Balanced slots tr w
  acquired : ∀ x ∈ tr, ∀ i, slots.uses i .acquire x = true →
    i ∉ x.before.shared.borrowers ∧ x.before.shared.borrowers.length < v.concurrency ∧
      x.after.shared.borrowers = i :: x.before.shared.borrowers
  released : ∀ x ∈ tr, ∀ i, slots.uses i .release x = true →
    i ∈ x.before.shared.borrowers ∧ i ∉ x.after.shared.borrowers ∧
      x.after.shared.borrowers = x.before.shared.borrowers.erase i
  kept : ∀ x ∈ tr, (∀ i u, slots.uses i u x = false) →
    x.after.shared.borrowers = x.before.shared.borrowers
  quiet : ∀ a x b i, tr = a ++ x :: b → LeavesQueue i x →
    x.after.shared.borrowers = x.before.shared.borrowers ∧
      (∀ y ∈ tr, slots.uses i .release y = false) ∧
      (∀ y ∈ tr, ∀ uri headers, ¬ Did i (.getSessionSent uri headers) y) ∧
      ∀ y ∈ x :: b, ∀ f, Did i f y → sends f = false
  free : (∀ i, w.phase i = .idle ∨ w.phase i = .finished) → w.shared.borrowers = []

variable [DecidableEq ι] {R : Runtime} {v : Verifier} {i j : ι} {s t : Shared ι} {e : Event υ}
  {p q : Phase υ} {fs : List (Effect υ)} {tr : History ι υ} {w : World ι (Shared ι) (Phase υ)}
  {clock : Seconds}

omit [DecidableEq ι] in
theorem TurnedAway.borrowers {call : Call υ} {exc : Exn} (h : TurnedAway R v s call exc t) :
    t.borrowers = s.borrowers := by
  cases h <;> rfl

omit [DecidableEq ι] in
theorem Reaches.borrowers {call : Call υ} {caller : Caller υ} (h : Reaches R v s call caller t) :
    t.borrowers = s.borrowers := by
  cases h <;> rfl

omit [DecidableEq ι] in
theorem noted_borrowers (exc : Exn) (s : Shared ι) :
    (Verifier.noted exc s).borrowers = s.borrowers := by
  unfold Verifier.noted
  split <;> rfl

omit [DecidableEq ι] in
theorem passed_borrows {caller : Caller υ} (h : Verifier.passed caller = (q, fs)) :
    borrows q = false := by
  obtain ⟨-, rfl, -⟩ | ⟨pending, -, rfl, -⟩ := passed_eq h <;> rfl

/-- The slot is back before the answer is looked at. -/
theorem closing_borrowers {pending : Pending υ} {answer : Answer} {now : Readings}
    {result : Except Exn (Session υ)}
    (h : Procedure.exec (v.closing R pending answer now) (Verifier.released i s) = (result, t)) :
    t.borrowers = s.borrowers.erase i := by
  rw [exec_closing] at h
  cases hf : v.fetchTranslated answer with
  | error exc =>
    rw [hf] at h
    cases h
    rfl
  | ok response =>
    rw [hf] at h
    cases h
    rfl

/-- A section treats the slots as it may. -/
theorem slotting_of_moves (h : Moves R v i s e p t q fs) :
    Slotted v.concurrency i (use e p) s.borrowers (borrows p) t.borrowers (borrows q) := by
  have kept : ∀ {u l b b'}, u = none → l = s.borrowers → b = b' →
      Slotted v.concurrency i u s.borrowers b l b' := by
    rintro u l b b' rfl rfl rfl
    exact .kept
  cases h with
  | turnedAway h => exact kept rfl (TurnedAway.borrowers h) rfl
  | readyAtOnce h _ hp => exact kept rfl (Reaches.borrowers h) (passed_borrows hp).symm
  | refusedAtOnce h | queued h => exact kept rfl (Reaches.borrowers h) rfl
  | readyUnderLock _ hp | probePassed _ hp => exact kept rfl rfl (passed_borrows hp).symm
  | rungFailed | probeFailed => exact kept rfl (noted_borrowers ..) rfl
  | slotAcquired hb => exact .taken hb
  | answered h | failed h =>
    rw [closing_borrowers h]
    exact .given
  | waitAbandoned hp => obtain ⟨_, rfl⟩ | ⟨_, rfl⟩ := hp <;> exact .kept
  | probeAbandoned hp => obtain rfl | rfl := hp <;> exact .kept
  | slotAbandoned hp => obtain rfl | rfl := hp <;> exact .given
  | _ => exact .kept

theorem slotted_of_uses {x : Step ι υ} {u : Use}
    (hx : v.machine R x.before x.event = some (x.after, x.effects))
    (hu : slots.uses i u x = true) :
    Slotted v.concurrency i (some u) x.before.shared.borrowers (borrows (x.before.phase i))
      x.after.shared.borrowers (borrows (x.after.phase i)) := by
  obtain ⟨j, e, he, hm, -⟩ | ⟨now, he, -⟩ := machine_moves hx
  · simp only [Usage.uses, he, decide_eq_true_eq] at hu
    obtain ⟨rfl, hu⟩ := hu
    have hs := slotting_of_moves hm
    have huse : use e (x.before.phase j) = some u := hu
    rwa [huse] at hs
  · simp [Usage.uses, he] at hu

theorem slots_guarded (R : Runtime) (v : Verifier) :
    Guarded slots v.concurrency (v.program R : Program ι _ (Phase υ) _ _ _) where
  act _ _ _ _ _ _ _ h := slotting_of_moves (act_moves h)
  drift d s s' h := by
    obtain ⟨-, rfl⟩ := drift_some h
    rfl

theorem held (h : Run (v.machine R) (Verifier.start clock) tr w) :
    Held slots.toHolding v.concurrency w :=
  Slots.held (slots_guarded R v) h (Held.start rfl fun _ => rfl)

/-- A probe goes out only while nothing else does. -/
theorem inFlight_le (hv : 0 < v.concurrency) (h : Run (v.machine R) (Verifier.start clock) tr w)
    (calls : Finset ι) (hc : ∀ i ∈ calls, inFlight (w.phase i) = true) :
    calls.card ≤ v.concurrency := by
  have hflight : ∀ {p : Phase υ}, inFlight p = true → probes p = true ∨ borrows p = true := by
    intro p hp
    cases p <;> first | exact .inl rfl | exact .inr rfl | cases hp
  have hpast : ∀ {p : Phase υ}, borrows p = true → pastGate p = true := by
    intro p hp
    cases p <;> first | rfl | cases hp
  by_cases hprobe : ∃ i, probes (w.phase i) = true
  · obtain ⟨i, hi⟩ := hprobe
    have hsub : calls ⊆ {i} := by
      intro j hj
      rw [Finset.mem_singleton]
      obtain hp | hb := hflight (hc j hj)
      · exact single_flight h hp hi
      · have hno := (((stands h).2 i).untried hi).1
        rw [((stands h).2 j).ready (hpast hb)] at hno
        cases hno
    exact (Finset.card_le_card hsub).trans hv
  · have hsub : calls ⊆ w.shared.borrowers.toFinset := by
      intro j hj
      obtain hp | hb := hflight (hc j hj)
      · exact (hprobe ⟨j, hp⟩).elim
      · exact List.mem_toFinset.mpr (((held h).holder j).mpr hb)
    have hlen := List.toFinset_card_le w.shared.borrowers
    exact (Finset.card_le_card hsub).trans (hlen.trans (held h).bounded)

theorem ahead_of_moves (h : Moves R v i s e p t q fs) (hq : ahead q = true) : ahead p = true := by
  cases h with
  | probeAbandoned hp => cases hq
  | waitAbandoned hp => cases hq
  | slotAbandoned hp => cases hq
  | turnedAway | refusedAtOnce | refusedUnderLock | rungFailed | probeFailed | queueTimedOut
  | answered | failed | lockAbandoned | slotAcquired | sent => cases hq
  | _ => rfl

omit [DecidableEq ι] in
theorem ahead_of_release (h : use e p = some .release) : ahead p = false := by
  cases p with
  | slotGranted | fetching => rfl
  | _ => cases e <;> cases h

theorem nothing_yet (h : Run (v.machine R) (Verifier.start clock) tr w) :
    ∀ i, ahead (w.phase i) = true → ∀ y ∈ tr, slots.uses i .release y = false ∧
      ∀ uri headers, ¬ Did i (.getSessionSent uri headers) y := by
  refine h.invariant (I := fun tr w => ∀ i, ahead (w.phase i) = true → ∀ y ∈ tr,
    slots.uses i .release y = false ∧ ∀ uri headers, ¬ Did i (.getSessionSent uri headers) y)
    (by simp) ?_
  intro tr w ev u fs _ ih hu i hi y hy
  obtain hy | hy := List.mem_append.mp hy
  · refine ih i ?_ y hy
    obtain ⟨j, e, -, hm, hother⟩ | ⟨now, -, -, -, rfl⟩ := machine_moves hu
    · by_cases hij : i = j
      · subst hij
        exact ahead_of_moves hm hi
      · rwa [← hother i hij]
    · exact hi
  · obtain rfl := List.mem_singleton.mp hy
    obtain ⟨j, e, rfl, hm, hother⟩ | ⟨now, rfl, -, rfl, -⟩ := machine_moves hu
    · by_cases hij : j = i
      · subst hij
        have hp := ahead_of_moves hm hi
        refine ⟨?_, ?_⟩
        · by_contra hn
          have hr : use e (w.phase j) = some .release := by
            simpa [Usage.uses, slots] using hn
          rw [ahead_of_release hr] at hp
          cases hp
        · rintro uri headers ⟨-, hf⟩
          obtain ⟨pending, hgranted, -⟩ := hm.requested hf
          rw [hgranted] at hp
          cases hp
      · refine ⟨by simp [Usage.uses, hij], ?_⟩
        rintro uri headers ⟨⟨e', he'⟩, -⟩
        exact hij (Happening.act.inj he').1
    · refine ⟨rfl, ?_⟩
      rintro uri headers ⟨⟨e', he'⟩, -⟩
      cases he'

theorem not_moves_finished (h : Moves R v i s e .finished t q fs) : False := by
  generalize hf : Phase.finished = p at h
  cases h with
  | waitAbandoned hp => obtain ⟨_, rfl⟩ | ⟨_, rfl⟩ := hp <;> cases hf
  | probeAbandoned hp => obtain rfl | rfl := hp <;> cases hf
  | slotAbandoned hp => obtain rfl | rfl := hp <;> cases hf
  | _ => cases hf

theorem finished_still {u : World ι (Shared ι) (Phase υ)} (h : Run (v.machine R) w tr u)
    (hp : w.phase i = .finished) :
    u.phase i = .finished ∧ ∀ y ∈ tr, ∀ e, y.event ≠ .act i e := by
  refine halted (P := fun p => p = .finished) h ?_ hp
  rintro j e s _ s' q' fs ha rfl
  exact not_moves_finished (act_moves ha)

theorem leaves_of_moves {pending : Pending υ} (h : Moves R v i s e (.waitingSlot pending) t q fs)
    (he : e = .queueTimedOut ∨ e = .cancelled) :
    t = s ∧ q = .finished ∧ ∀ f ∈ fs, sends f = false := by
  generalize hw : Phase.waitingSlot pending = p at h
  cases h with
  | queueTimedOut => exact ⟨rfl, rfl, by simp [sends]⟩
  | waitAbandoned => exact ⟨rfl, rfl, by simp [sends]⟩
  | probeAbandoned hp => obtain rfl | rfl := hp <;> cases hw
  | slotAbandoned hp => obtain rfl | rfl := hp <;> cases hw
  | slotAcquired => obtain he | he := he <;> cases he
  | _ => cases hw

/-- A call that leaves the queue without a slot ends there, and neither gives one back nor sends. -/
theorem quiet_of_leaves {a b : History ι υ} {x : Step ι υ}
    (h : Run (v.machine R) (Verifier.start clock) (a ++ x :: b) w) (hx : LeavesQueue i x) :
    x.after.shared.borrowers = x.before.shared.borrowers ∧
      (∀ y ∈ a ++ x :: b, slots.uses i .release y = false) ∧
      (∀ y ∈ a ++ x :: b, ∀ uri headers, ¬ Did i (.getSessionSent uri headers) y) ∧
      ∀ y ∈ x :: b, ∀ f, Did i f y → sends f = false := by
  obtain ⟨hr, hstep, hb⟩ := h.at
  obtain ⟨⟨pending, hp⟩, hev⟩ := hx
  obtain ⟨e, he, hleave⟩ : ∃ e, x.event = .act i e ∧ (e = .queueTimedOut ∨ e = .cancelled) := by
    obtain hev | hev := hev
    · exact ⟨_, hev, .inl rfl⟩
    · exact ⟨_, hev, .inr rfl⟩
  have hm := moves_of_event hstep he
  have hq : slots.uses i .release x = false := by
    obtain rfl | rfl := hleave <;> simp [Usage.uses, slots, he, hp, use]
  rw [hp] at hm
  obtain ⟨hsame, hdone, hsilent⟩ := leaves_of_moves hm hleave
  have hbefore := nothing_yet hr i (by rw [hp]; rfl)
  have hlater := (finished_still hb hdone).2
  have hafter : ∀ y ∈ b, slots.uses i .release y = false ∧ ∀ f, ¬ Did i f y := by
    intro y hy
    refine ⟨?_, fun f hd => ?_⟩
    · cases hey : y.event with
      | drift d => simp [Usage.uses, hey]
      | act j e' =>
        have hji : j ≠ i := by
          rintro rfl
          exact hlater y hy e' hey
        simp [Usage.uses, hey, hji]
    · obtain ⟨⟨e', he'⟩, -⟩ := hd
      exact hlater y hy e' he'
  refine ⟨congrArg Shared.borrowers hsame, ?_, ?_, ?_⟩
  · intro y hy
    obtain hy | hy := List.mem_append.mp hy
    · exact (hbefore y hy).1
    · obtain rfl | hy := List.mem_cons.mp hy
      · exact hq
      · exact (hafter y hy).1
  · intro y hy uri headers hd
    obtain hy | hy := List.mem_append.mp hy
    · exact (hbefore y hy).2 uri headers hd
    · obtain rfl | hy := List.mem_cons.mp hy
      · cases hsilent _ hd.2
      · exact (hafter y hy).2 _ hd
  · intro y hy f hd
    obtain rfl | hy := List.mem_cons.mp hy
    · exact hsilent f hd.2
    · exact ((hafter y hy).2 f hd).elim

/-- No interleaving of calls has more requests on their way than there are slots, and none loses
or gives back a slot that is not its own. -/
theorem outbound_bounded (R : Runtime) (v : Verifier) (clock : Seconds) (tr : History ι υ)
    (w : World ι (Shared ι) (Phase υ)) (hv : 0 < v.concurrency)
    (h : Run (v.machine R) (Verifier.start clock) tr w) : Bounded v tr w where
  inFlight := inFlight_le hv h
  held := held h
  balanced := Slots.balanced (slots_guarded R v) h fun _ => rfl
  acquired := by
    intro x hx i hu
    obtain ⟨a, b, rfl, hr, hstep, -⟩ := h.of_mem hx
    obtain ⟨hout, hroom, htaken⟩ := (slotted_of_uses hstep hu).acquired
    refine ⟨?_, hroom, htaken⟩
    intro hin
    have hholds := ((held hr).holder i).mp hin
    cases hout.symm.trans hholds
  released := by
    intro x hx i hu
    obtain ⟨a, b, rfl, hr, hstep, -⟩ := h.of_mem hx
    obtain ⟨hin, hgiven⟩ := (slotted_of_uses hstep hu).released
    refine ⟨((held hr).holder i).mpr hin, ?_, hgiven⟩
    rw [hgiven]
    exact List.Nodup.not_mem_erase (held hr).nodup
  kept := by
    intro x hx hn
    obtain ⟨a, b, rfl, hr, hstep, -⟩ := h.of_mem hx
    obtain ⟨j, e, he, hm, -⟩ | ⟨now, he, -, -, hu⟩ := machine_moves hstep
    · have hs := slotting_of_moves hm
      have hnone : use e (x.before.phase j) = none := by
        cases hu : use e (x.before.phase j) with
        | none => rfl
        | some u =>
          have hno := hn j u
          simp [Usage.uses, slots, he, hu] at hno
      rw [hnone] at hs
      exact hs.quiet
    · rw [hu]
  quiet := by
    rintro a x b i rfl hx
    exact quiet_of_leaves h hx
  free := by
    intro hdone
    rw [List.eq_nil_iff_forall_not_mem]
    intro i hi
    have hb := ((held h).holder i).mp hi
    obtain hp | hp := hdone i <;> simp [slots, hp, borrows] at hb

section Sample

/-- One outbound slot: call 1 times out waiting for it, call 0 is cancelled with it, and call 3 as
soon as it is granted. -/
def contendedEvents : List (Happening Nat (Event Payload) Seconds) :=
  [.act 2 (.start .prepare), .act 2 .lockAcquired, .act 2 .lockResumed,
    .act 2 (.probeAnswered (jsonAnswer "null")), .act 2 (.advised (jsonAnswer "null")),
    .act 0 (.start (.verify (.remote sampleSnapshot) sampleUser)), .act 0 .slotAcquired,
    .act 0 .slotResumed, .act 1 (.start (.verify (.remote sampleSnapshot) sampleUser)),
    .act 1 .queueTimedOut, .act 3 (.start (.verify (.remote sampleSnapshot) sampleUser)),
    .act 0 .cancelled, .act 3 .slotAcquired, .act 3 .cancelled]

def givenBack (tr : History Nat Payload) : Nat :=
  tr.countP fun x => [0, 1, 2, 3].any fun i => slots.uses i .release x

end Sample

theorem outbound_bounded_contended :
    ∃ (tr : History Nat Payload) (w : World Nat (Shared Nat) (Phase Payload)),
      Run ({ sampleVerifier with concurrency := 1 }.machine sampleRuntime) (Verifier.start 0) tr w ∧
        (givenBack tr == 2) = true ∧ Bounded { sampleVerifier with concurrency := 1 } tr w := by
  have h : ((replay ({ sampleVerifier with concurrency := 1 }.machine sampleRuntime)
      (Verifier.start 0) contendedEvents).any fun r => givenBack r.1 == 2) = true := by
    decide +kernel
  obtain ⟨tr, w, hr, hg⟩ := Run.of_replay_any (P := fun tr => givenBack tr == 2) h
  exact ⟨tr, w, hr, hg, outbound_bounded _ _ _ _ _ Nat.one_pos hr⟩

end BetterAuthBridge.RemoteSlots
