import BetterAuthBridge.JwtSelection
import BetterAuthBridge.Library.Progress
import BetterAuthBridge.RemoteSlots
import BetterAuthBridge.SqlDiscovery

namespace BetterAuthBridge.Completion

open Library Library.Runs Library.Tasks Library.Progress Values

variable {ι κ υ : Type}

section Jwks

open JwksClient JwksSteps JwksThrottle

def jwksMenu : Phase → Set Event
  | .waiting _ => {.lockAcquired}
  | .granted _ => {.lockResumed}
  | .fetching .. => Set.range .answered
  | .idle | .finished => ∅

def jwksRank : Phase → Nat
  | .idle => 4
  | .waiting _ => 3
  | .granted _ => 2
  | .fetching .. => 1
  | .finished => 0

def jwksWaits : Phase → Bool
  | .waiting _ => true
  | _ => false

variable {c : Client κ} {R : Runtime} {i : ι} {s t : Shared ι κ} {e : Event} {p q : Phase}
  {fs : List (Effect κ)} {w : World ι (Shared ι κ) Phase} {tr : History ι κ} {clock : Seconds}

theorem jwksRank_of_moves (h : Moves c R i s e p t q fs) : jwksRank q < jwksRank p := by
  cases h with
  | replied | refreshed | refreshFailed => simp [jwksRank]
  | _ => simp [jwksRank]

theorem jwksUnderWay_of_holds (h : holdsLock p = true) :
    UnderWay jwksMenu p ∧ jwksWaits p = false := by
  cases p with
  | granted kid => exact ⟨⟨_, rfl⟩, rfl⟩
  | fetching kid previous => exact ⟨⟨_, .raised (.other ""), rfl⟩, rfl⟩
  | _ => cases h

theorem jwksReady (hu : UnderWay jwksMenu (w.phase i))
    (hw : jwksWaits (w.phase i) = true → w.shared.lock = none) :
    Ready (c.program R) jwksMenu w i := by
  refine ⟨hu, ?_⟩
  generalize w.phase i = p at hu hw ⊢
  cases p with
  | idle => exact hu.elim nofun
  | finished => exact hu.elim nofun
  | waiting kid =>
    rintro _ rfl
    exact ⟨_, by simp only [Client.program, Client.act, hw rfl, Option.isNone_none, if_true]; rfl⟩
  | granted kid =>
    rintro _ rfl
    exact ⟨_, rfl⟩
  | fetching kid previous =>
    rintro _ ⟨answer, rfl⟩
    exact ⟨_, rfl⟩

variable [DecidableEq ι]

theorem jwks_lock_held (h : Run (c.machine R) (Client.start clock) tr w) (i : ι) :
    w.shared.lock = some i ↔ holdsLock (w.phase i) = true := by
  apply Tasks.lock_held Shared.lock holdsLock h rfl (fun _ => rfl)
  · exact fun i e s q s' q' fs he => locking_of_moves (act_moves he)
  · intro d s s' hd
    obtain ⟨-, rfl⟩ := drift_some hd
    rfl

/-- Every `key_for` comes to its end: no path leaves the lock behind. -/
theorem jwks_completes (c : Client κ) (R : Runtime) (clock : Seconds) :
    Completes (c.program R) (Client.start clock : World ι (Shared ι κ) Phase) jwksMenu
      jwksRank := by
  apply completes
  · exact fun i e s q s' q' fs ha => jwksRank_of_moves (act_moves ha)
  · exact fun i hi => hi.elim nofun
  · intro tr w i h hi
    exact ready_of_lock Shared.lock holdsLock jwksWaits (jwks_lock_held h)
      (fun i => jwksReady) (fun q => jwksUnderWay_of_holds) hi

end Jwks

section Jwt

open JwtVerifier JwtSelection
open JwksClient (Shared)

def jwtMenu : Phase υ → Set (Event υ)
  | .looking _ lookup => {e | ∃ event now, e = .lookup event now ∧ event ∈ jwksMenu lookup}
  | .idle | .finished => ∅

def jwtRank : Phase υ → Nat
  | .idle => 4
  | .looking _ lookup => jwksRank lookup
  | .finished => 0

def lookupHolds : Phase υ → Bool
  | .looking _ lookup => JwksThrottle.holdsLock lookup
  | .idle | .finished => false

def lookupWaits : Phase υ → Bool
  | .looking _ lookup => jwksWaits lookup
  | .idle | .finished => false

variable {v : Verifier κ} {R : Runtime} {i : ι} {s t : Shared ι κ} {e : Event υ} {p q : Phase υ}
  {fs : List (Effect κ υ)} {w : World ι (Shared ι κ) (Phase υ)} {tr : History ι κ υ}
  {clock : Seconds}

theorem finished_of_lookupEnding {c : JwksClient.Client κ} {event : JwksClient.Event}
    {r r' : JwksClient.Phase} {gs : List (JwksClient.Effect κ)} {ending : JwksClient.Ending κ}
    (h : JwksSteps.Moves c R i s event r t r' gs) (he : lookupEnding gs = some ending) :
    r' = .finished := by
  cases h with
  | missed | lockAcquired | fetchStarted => cases he
  | _ => rfl

theorem Enters.begins {pending : Pending υ} {now : ℚ} {event : JwksClient.Event}
    {r : JwksClient.Phase} {before : List (Effect κ υ)}
    (h : Enters v R e p pending now event r before) :
    jwtRank p = jwksRank r ∧ lookupHolds p = JwksThrottle.holdsLock r := by
  cases h with
  | start => exact ⟨rfl, rfl⟩
  | lookup => exact ⟨rfl, rfl⟩

theorem jwtRank_of_acts (h : Acts v R i s e p t q fs) : jwtRank q < jwtRank p := by
  cases h with
  | refused => exact Nat.zero_lt_succ 3
  | waits he hk =>
    rw [(Enters.begins he).1]
    exact jwksRank_of_moves (JwksSteps.act_moves hk)
  | ends he hk =>
    rw [(Enters.begins he).1]
    exact Nat.zero_lt_of_lt (jwksRank_of_moves (JwksSteps.act_moves hk))

theorem lookupLocking_of_acts (h : Acts v R i s e p t q fs) :
    Locked i s.lock (lookupHolds p) t.lock (lookupHolds q) := by
  cases h with
  | refused => exact .kept
  | waits he hk =>
    rw [(Enters.begins he).2]
    exact JwksThrottle.locking_of_moves (JwksSteps.act_moves hk)
  | ends he hk hl =>
    have hm := JwksSteps.act_moves hk
    have hlock := JwksThrottle.locking_of_moves hm
    rw [finished_of_lookupEnding hm hl] at hlock
    rw [(Enters.begins he).2]
    exact hlock

theorem jwtUnderWay_of_holds (h : lookupHolds p = true) :
    UnderWay jwtMenu p ∧ lookupWaits p = false := by
  cases p with
  | idle => cases h
  | finished => cases h
  | looking pending lookup =>
    obtain ⟨⟨event, he⟩, hw⟩ := jwksUnderWay_of_holds h
    exact ⟨⟨_, event, 0, rfl, he⟩, hw⟩

theorem jwtReady (hu : UnderWay jwtMenu (w.phase i))
    (hw : lookupWaits (w.phase i) = true → w.shared.lock = none) :
    Ready (v.program R) jwtMenu w i := by
  refine ⟨hu, ?_⟩
  generalize w.phase i = p at hu hw ⊢
  cases p with
  | idle => exact hu.elim nofun
  | finished => exact hu.elim nofun
  | looking pending lookup =>
    rintro _ ⟨event, now, rfl, he⟩
    have hready : Ready (v.keys.program R) jwksMenu ⟨w.shared, fun _ : ι => lookup⟩ i :=
      jwksReady ⟨event, he⟩ hw
    obtain ⟨turn, ha⟩ := hready.2 event he
    exact ⟨v.resumed pending now turn, congrArg (Option.map _) ha⟩

variable [DecidableEq ι]

theorem jwt_lock_held (h : Run (v.machine R) (Verifier.start clock) tr w) (i : ι) :
    w.shared.lock = some i ↔ lookupHolds (w.phase i) = true := by
  apply Tasks.lock_held Shared.lock lookupHolds h rfl (fun _ => rfl)
  · exact fun i e s q s' q' fs he => lookupLocking_of_acts (act_acts he)
  · intro d s s' hd
    have hd' : (v.keys.program R).drift d s = some s' := hd
    obtain ⟨-, rfl⟩ := JwksSteps.drift_some hd'
    rfl

/-- Every `verify` of a token comes to its end, and until then something can resume it. -/
theorem jwt_completes (v : Verifier κ) (R : Runtime) (clock : Seconds) :
    Completes (v.program R) (Verifier.start clock : World ι (Shared ι κ) (Phase υ)) jwtMenu
      jwtRank ∧
    ∀ tr w i, Run (v.machine R) (Verifier.start clock : World ι (Shared ι κ) (Phase υ)) tr w →
      UnderWay jwtMenu (w.phase i) ∨ w.phase i = .idle ∨ w.phase i = .finished := by
  constructor
  · apply completes
    · exact fun i e s q s' q' fs ha => jwtRank_of_acts (act_acts ha)
    · exact fun i hi => hi.elim nofun
    · intro tr w i h hi
      exact ready_of_lock Shared.lock lookupHolds lookupWaits (jwt_lock_held h)
        (fun i => jwtReady) (fun q => jwtUnderWay_of_holds) hi
  · intro tr w i h
    cases hp : w.phase i with
    | idle => exact .inr (.inl rfl)
    | finished => exact .inr (.inr rfl)
    | looking pending lookup =>
      have hk := (waiting h i pending lookup hp).2
      refine .inl ?_
      cases lookup with
      | idle => cases hk
      | finished => cases hk
      | waiting => exact ⟨_, _, 0, rfl, rfl⟩
      | granted => exact ⟨_, _, 0, rfl, rfl⟩
      | fetching => exact ⟨_, _, 0, rfl, .raised (.other ""), rfl⟩

end Jwt

section Sql

open SqlStore SqlDiscovery

def sqlMenu : Phase → Set Event
  | .waiting _ => {.lockAcquired}
  | .granted _ => {.lockResumed}
  | .inspecting _ => Set.range .inspected
  | .selecting .. => Set.range .answered
  | .idle | .finished => ∅

def sqlRank : Phase → Nat
  | .idle => 5
  | .waiting _ => 4
  | .granted _ => 3
  | .inspecting _ => 2
  | .selecting .. => 1
  | .finished => 0

def sqlWaits : Phase → Bool
  | .waiting _ => true
  | _ => false

variable {R : Runtime} {tables : Tables} {i : ι} {s t : Shared ι} {e : Event} {p q : Phase}
  {fs : List Effect} {w : World ι (Shared ι) Phase}

theorem sqlRank_planned (call : Call) (plan : Plan) : sqlRank (call.planned plan).1 ≤ 1 := by
  cases call <;> simp [Call.planned, finish, sqlRank]

theorem sqlRank_of_moves (h : Moves R tables i s e p t q fs) : sqlRank q < sqlRank p := by
  cases h with
  | @planned call plan | @plannedUnderLock call plan | @discovered call _ plan =>
    exact Nat.lt_of_le_of_lt (sqlRank_planned call plan) (by simp [sqlRank])
  | _ => simp [sqlRank]

theorem sqlUnderWay_of_holds (h : p.holds = true) : UnderWay sqlMenu p ∧ sqlWaits p = false := by
  cases p with
  | granted call => exact ⟨⟨_, rfl⟩, rfl⟩
  | inspecting call => exact ⟨⟨_, .ok [], rfl⟩, rfl⟩
  | _ => cases h

theorem sqlReady (hu : UnderWay sqlMenu (w.phase i))
    (hw : sqlWaits (w.phase i) = true → w.shared.lock = none) :
    Ready (tables.program R) sqlMenu w i := by
  refine ⟨hu, ?_⟩
  generalize w.phase i = p at hu hw ⊢
  cases p with
  | idle => exact hu.elim nofun
  | finished => exact hu.elim nofun
  | waiting call =>
    rintro _ rfl
    exact ⟨_, by simp only [Tables.program, Tables.act, hw rfl, Option.isNone_none, if_true]; rfl⟩
  | granted call =>
    rintro _ rfl
    exact ⟨_, rfl⟩
  | inspecting call =>
    rintro _ ⟨answer, rfl⟩
    exact ⟨_, rfl⟩
  | selecting call plan =>
    rintro _ ⟨answer, rfl⟩
    exact ⟨_, rfl⟩

/-- Every call on a store comes to its end, whatever the database answers. -/
theorem sql_completes [DecidableEq ι] (R : Runtime) (tables : Tables) :
    Completes (tables.program R) (start : World ι (Shared ι) Phase) sqlMenu sqlRank := by
  apply completes
  · exact fun i e s q s' q' fs ha => sqlRank_of_moves (act_moves ha)
  · exact fun i hi => hi.elim nofun
  · intro tr w i h hi
    exact ready_of_lock Shared.lock Phase.holds sqlWaits (SqlDiscovery.lock_held h)
      (fun i => sqlReady) (fun q => sqlUnderWay_of_holds) hi

end Sql

section Remote

open Models RemoteResponse RemoteProbe RemoteVerifier RemoteSteps RemoteInvariants RemoteSlots

def remoteMenu : Phase υ → Set (Event υ)
  | .waitingLock _ => {.lockAcquired}
  | .lockGranted _ => {.lockResumed}
  | .probing .. => Set.range .probeAnswered
  | .advising .. => Set.range .advised
  | .waitingSlot _ => {.slotAcquired}
  | .slotGranted _ => {.slotResumed}
  | .fetching _ => Set.range fun answer : Answer × Readings => .answered answer.1 answer.2
  | .idle | .finished => ∅

def remoteRank : Phase υ → Nat
  | .idle => 8
  | .waitingLock _ => 7
  | .lockGranted _ => 6
  | .probing .. => 5
  | .advising .. => 4
  | .waitingSlot _ => 3
  | .slotGranted _ => 2
  | .fetching _ => 1
  | .finished => 0

def waitsLock : Phase υ → Bool
  | .waitingLock _ => true
  | _ => false

def waitsSlot : Phase υ → Bool
  | .waitingSlot _ => true
  | _ => false

variable [DecidableEq ι] {R : Runtime} {v : Verifier} {i : ι} {s t : Shared ι} {e : Event υ}
  {p q : Phase υ} {fs : List (Effect υ)} {w : World ι (Shared ι) (Phase υ)} {tr : History ι υ}
  {clock : Seconds}

theorem remoteRank_passed {caller : Caller υ} (h : Verifier.passed caller = (q, fs)) :
    remoteRank q ≤ 3 := by
  obtain ⟨-, rfl, -⟩ | ⟨pending, -, rfl, -⟩ := passed_eq h <;> simp [remoteRank]

theorem remoteRank_of_moves (h : Moves R v i s e p t q fs) : remoteRank q < remoteRank p := by
  cases h with
  | readyAtOnce _ _ hp | readyUnderLock _ hp | probePassed _ hp =>
    exact Nat.lt_of_le_of_lt (remoteRank_passed hp) (by simp [remoteRank])
  | waitAbandoned hp => obtain ⟨_, rfl⟩ | ⟨_, rfl⟩ := hp <;> simp [remoteRank]
  | probeAbandoned hp => obtain rfl | rfl := hp <;> simp [remoteRank]
  | slotAbandoned hp => obtain rfl | rfl := hp <;> simp [remoteRank]
  | _ => simp [remoteRank]

omit [DecidableEq ι] in
theorem remoteUnderWay_of_holds (h : holdsLock p = true) :
    UnderWay remoteMenu p ∧ waitsLock p = false ∧ waitsSlot p = false := by
  cases p with
  | lockGranted caller => exact ⟨⟨_, rfl⟩, rfl, rfl⟩
  | probing caller previous => exact ⟨⟨_, .raised (.other ""), rfl⟩, rfl, rfl⟩
  | advising caller previous => exact ⟨⟨_, .raised (.other ""), rfl⟩, rfl, rfl⟩
  | _ => cases h

omit [DecidableEq ι] in
theorem remoteUnderWay_of_borrows (h : borrows p = true) :
    UnderWay remoteMenu p ∧ waitsLock p = false ∧ waitsSlot p = false := by
  cases p with
  | slotGranted pending => exact ⟨⟨_, rfl⟩, rfl, rfl⟩
  | fetching pending => exact ⟨⟨_, (.raised (.other ""), ⟨0, 0⟩), rfl⟩, rfl, rfl⟩
  | _ => cases h

theorem remoteReady (hu : UnderWay remoteMenu (w.phase i))
    (hl : waitsLock (w.phase i) = true → w.shared.probeLock = none)
    (hs : waitsSlot (w.phase i) = true → w.shared.borrowers.length < v.concurrency) :
    Ready (v.program R) remoteMenu w i := by
  refine ⟨hu, ?_⟩
  generalize w.phase i = p at hu hl hs ⊢
  cases p with
  | idle => exact hu.elim nofun
  | finished => exact hu.elim nofun
  | waitingLock caller =>
    rintro _ rfl
    exact ⟨_, by simp only [Verifier.program, Verifier.act, hl rfl, if_true]; rfl⟩
  | waitingSlot pending =>
    rintro _ rfl
    exact ⟨_, by simp only [Verifier.program, Verifier.act, hs rfl, if_true]; rfl⟩
  | lockGranted caller =>
    rintro _ rfl
    exact ⟨_, rfl⟩
  | slotGranted pending =>
    rintro _ rfl
    exact ⟨_, rfl⟩
  | probing caller previous =>
    rintro _ ⟨answer, rfl⟩
    exact ⟨_, rfl⟩
  | advising caller previous =>
    rintro _ ⟨answer, rfl⟩
    exact ⟨_, rfl⟩
  | fetching pending =>
    rintro _ ⟨answer, rfl⟩
    exact ⟨_, rfl⟩

theorem remote_lock_held (h : Run (v.machine R) (Verifier.start clock) tr w) (i : ι) :
    w.shared.probeLock = some i ↔ holdsLock (w.phase i) = true := by
  apply Tasks.lock_held Shared.probeLock holdsLock h rfl (fun _ => rfl)
  · exact fun i e s q s' q' fs he => (act_moves he).locking
  · intro d s s' hd
    obtain ⟨-, rfl⟩ := drift_some hd
    rfl

/-- A call that waits for a slot waits for one that can go on, or a slot is free. -/
theorem remote_unstuck (hv : 0 < v.concurrency) (h : Run (v.machine R) (Verifier.start clock) tr w)
    (hi : UnderWay remoteMenu (w.phase i)) : ∃ j, Ready (v.program R) remoteMenu w j := by
  cases hl : w.shared.probeLock with
  | some j =>
    obtain ⟨hu, hlock, hslot⟩ := remoteUnderWay_of_holds ((remote_lock_held h j).mp hl)
    exact ⟨j, remoteReady hu (by simp [hlock]) (by simp [hslot])⟩
  | none =>
    by_cases hs : w.shared.borrowers.length < v.concurrency
    · exact ⟨i, remoteReady hi (fun _ => hl) fun _ => hs⟩
    · obtain ⟨j, hj⟩ := (held h).exists_holds hv hs
      obtain ⟨hu, hlock, hslot⟩ := remoteUnderWay_of_borrows hj
      exact ⟨j, remoteReady hu (by simp [hlock]) (by simp [hslot])⟩

/-- Every call on a verifier comes to its end: no path leaves the lock or a slot behind. -/
theorem remote_completes (R : Runtime) (v : Verifier) (clock : Seconds)
    (hv : 0 < v.concurrency) :
    Completes (v.program R) (Verifier.start clock : World ι (Shared ι) (Phase υ)) remoteMenu
      remoteRank := by
  apply completes
  · exact fun i e s q s' q' fs ha => remoteRank_of_moves (act_moves ha)
  · exact fun i hi => hi.elim nofun
  · exact fun tr w i h hi => remote_unstuck hv h hi

end Remote

theorem remote_completes_sample :
    Completes (RemoteSoundness.sampleVerifier.program RemoteSoundness.sampleRuntime)
      (RemoteVerifier.Verifier.start 0 : World Nat (RemoteVerifier.Shared Nat)
        (RemoteVerifier.Phase Unit)) remoteMenu remoteRank :=
  remote_completes RemoteSoundness.sampleRuntime RemoteSoundness.sampleVerifier 0 (by decide)

end BetterAuthBridge.Completion
