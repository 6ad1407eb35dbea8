import BetterAuthBridge.Library.Runs
import BetterAuthBridge.RemoteGates

namespace BetterAuthBridge.Backoff

open Library.Runs Values RemoteResponse RemoteGates

structure BackoffLatch where
  clock : Seconds
  blockedUntil : Option Seconds

/-- A call on a latch, with what its clock reads; `observe` reads it once to look whether a
backoff is in force and once more to start one. -/
inductive Call
  | latched (now : Seconds)
  | observe (checked stamped : Seconds) (response : TransportResponse)

def observed (checked stamped : Seconds) (response : TransportResponse)
    (blockedUntil : Option Seconds) : Option Seconds :=
  if response.statusCode ≠ rateLimited then blockedUntil
  else if (latched checked blockedUntil).1 then (latched checked blockedUntil).2
  else some (stamped + retryAfterSeconds response)

/-- The clock never goes back; the effects are the answers of `latched`. -/
def step : Machine BackoffLatch Call Bool
  | s, .latched now =>
    if now < s.clock then none
    else some (⟨now, (latched now s.blockedUntil).2⟩, [(latched now s.blockedUntil).1])
  | s, .observe checked stamped response =>
    if checked < s.clock ∨ stamped < checked then none
    else some (⟨stamped, observed checked stamped response s.blockedUntil⟩, [])

/-- A 429 observed at this moment, while no backoff is in force, for so many seconds. -/
def Trips (stamped : Seconds) (backoff : Int) (x : Transition BackoffLatch Call Bool) : Prop :=
  ∃ checked response, x.event = .observe checked stamped response ∧
    response.statusCode = rateLimited ∧ ¬ InForce checked x.before.blockedUntil ∧
    backoff = retryAfterSeconds response

variable {s u : BackoffLatch} {call : Call} {fs : List Bool} {blockedUntil : Option Seconds}
  {now checked stamped till t : Seconds} {backoff : Int} {response : TransportResponse}
  {tr : List (Transition BackoffLatch Call Bool)} {x : Transition BackoffLatch Call Bool}

theorem observed_ignored (h : response.statusCode ≠ rateLimited) :
    observed checked stamped response blockedUntil = blockedUntil := if_pos h

theorem observed_kept (h : InForce checked blockedUntil) :
    observed checked stamped response blockedUntil = blockedUntil := by
  rw [observed, latched_iff.mpr h, latched_kept h, if_pos rfl, ite_self]

theorem observed_trips (hr : response.statusCode = rateLimited)
    (h : ¬ InForce checked blockedUntil) : observed checked stamped response blockedUntil =
      some (stamped + retryAfterSeconds response) := by
  rw [observed, if_neg (not_not.mpr hr), if_neg (latched_iff.not.mpr h)]

theorem inForce_earlier {earlier : Seconds} (h : InForce now blockedUntil) (hle : earlier ≤ now) :
    InForce earlier blockedUntil := by
  obtain ⟨till, hb, hlt⟩ := h
  exact ⟨till, hb, hle.trans_lt hlt⟩

theorem latched_cleared (h : ¬ InForce now blockedUntil) : (latched now blockedUntil).2 = none := by
  cases blockedUntil with
  | none => rfl
  | some till =>
    have hle : till ≤ now := not_lt.mp fun hlt => h ⟨till, rfl, hlt⟩
    rw [latched, if_pos hle]

theorem not_trips_latched {after : BackoffLatch} :
    ¬ Trips stamped backoff ⟨s, .latched now, fs, after⟩ := by
  rintro ⟨_, _, he, -⟩
  cases he

/-- What a call does to a latch: it leaves it alone, clears it when its time has come, or trips it
with a 429 seen while no backoff is in force. -/
theorem step_cases (h : step s call = some (u, fs)) : s.clock ≤ u.clock ∧
    (((u.blockedUntil = s.blockedUntil ∨ u.blockedUntil = none ∧ ¬ InForce u.clock s.blockedUntil) ∧
        ∀ stamped backoff, ¬ Trips stamped backoff ⟨s, call, fs, u⟩) ∨
      ∃ backoff, Trips u.clock backoff ⟨s, call, fs, u⟩ ∧ ¬ InForce u.clock s.blockedUntil ∧
        u.blockedUntil = some (u.clock + backoff)) := by
  cases call with
  | latched now =>
    rw [step] at h
    split at h
    · cases h
    · rename_i hnow
      cases h
      refine ⟨not_lt.mp hnow, .inl ⟨?_, fun _ _ => not_trips_latched⟩⟩
      by_cases hf : InForce now s.blockedUntil
      · exact .inl (latched_kept hf)
      · exact .inr ⟨latched_cleared hf, hf⟩
  | observe checked stamped response =>
    rw [step] at h
    split at h
    · cases h
    · rename_i hclock
      rw [not_or, not_lt, not_lt] at hclock
      cases h
      refine ⟨hclock.1.trans hclock.2, ?_⟩
      by_cases hr : response.statusCode = rateLimited
      · by_cases hf : InForce checked s.blockedUntil
        · refine .inl ⟨.inl (observed_kept hf), ?_⟩
          rintro _ _ ⟨_, _, he, -, hn, -⟩
          cases he
          exact hn hf
        · refine .inr ⟨_, ⟨checked, response, rfl, hr, hf, rfl⟩, ?_, observed_trips hr hf⟩
          intro hs
          exact hf (inForce_earlier hs hclock.2)
      · refine .inl ⟨.inl (observed_ignored hr), ?_⟩
        rintro _ _ ⟨_, _, he, hs, -, -⟩
        cases he
        exact hr hs

/-- Every 429 that tripped the latch is the one it is in force for, or its time has passed. -/
structure Holds (tr : List (Transition BackoffLatch Call Bool)) (s : BackoffLatch) : Prop where
  passed : ∀ x ∈ tr, ∀ stamped backoff, Trips stamped backoff x → stamped ≤ s.clock ∧
    (s.blockedUntil = some (stamped + backoff) ∨ stamped + backoff ≤ s.clock)
  tripped : ∀ till, s.blockedUntil = some till →
    ∃ x ∈ tr, ∃ stamped backoff, Trips stamped backoff x ∧ till = stamped + backoff

theorem passed_of_not_inForce (h : blockedUntil = some till) (hn : ¬ InForce now blockedUntil) :
    till ≤ now := not_lt.mp fun hlt => hn ⟨till, h, hlt⟩

theorem Holds.later (h : Holds tr s) (hle : s.clock ≤ u.clock)
    (hb : u.blockedUntil = s.blockedUntil ∨ ¬ InForce u.clock s.blockedUntil) :
    ∀ x ∈ tr, ∀ stamped backoff, Trips stamped backoff x → stamped ≤ u.clock ∧
      (u.blockedUntil = some (stamped + backoff) ∨ stamped + backoff ≤ u.clock) := by
  intro x hx stamped backoff ht
  obtain ⟨hs, hp | hp⟩ := h.passed x hx stamped backoff ht
  · refine ⟨hs.trans hle, ?_⟩
    obtain hb | hb := hb
    · exact .inl (hb.trans hp)
    · exact .inr (passed_of_not_inForce hp hb)
  · exact ⟨hs.trans hle, .inr (hp.trans hle)⟩

theorem Holds.step (h : Holds tr s) (hs : step s call = some (u, fs)) :
    Holds (tr ++ [⟨s, call, fs, u⟩]) u := by
  obtain ⟨hle, ⟨hb, hn⟩ | ⟨backoff, ht, hn, hb⟩⟩ := step_cases hs
  · have hkept : u.blockedUntil = s.blockedUntil ∨ ¬ InForce u.clock s.blockedUntil :=
      hb.imp_right And.right
    constructor
    · intro x hx stamped backoff ht
      obtain hx | hx := List.mem_append.mp hx
      · exact h.later hle hkept x hx stamped backoff ht
      · obtain rfl := List.mem_singleton.mp hx
        exact absurd ht (hn stamped backoff)
    · intro till hu
      obtain hb | ⟨hb, -⟩ := hb
      · obtain ⟨x, hx, hx'⟩ := h.tripped till (hb.symm.trans hu)
        exact ⟨x, List.mem_append_left _ hx, hx'⟩
      · cases hb.symm.trans hu
  · constructor
    · intro x hx stamped backoff' ht'
      obtain hx | hx := List.mem_append.mp hx
      · exact h.later hle (.inr hn) x hx stamped backoff' ht'
      · obtain rfl := List.mem_singleton.mp hx
        obtain ⟨_, _, he, -, -, rfl⟩ := ht
        obtain ⟨_, _, he', -, -, rfl⟩ := ht'
        cases he.symm.trans he'
        exact ⟨le_rfl, .inl hb⟩
    · intro till hu
      refine ⟨_, List.mem_append_right _ List.mem_cons_self, u.clock, backoff, ht, ?_⟩
      exact Option.some.inj (hu.symm.trans hb)

theorem holds_run {clock : Seconds} (h : Run Backoff.step ⟨clock, none⟩ tr s) : Holds tr s := by
  apply h.invariant (I := Holds)
  · exact ⟨nofun, nofun⟩
  · intro tr s call u fs _ hs he
    exact hs.step he

theorem run_inForce {clock : Seconds} (h : Run Backoff.step ⟨clock, none⟩ tr s) (hle : s.clock ≤ t) :
    InForce t s.blockedUntil ↔ ∃ x ∈ tr, ∃ stamped backoff, Trips stamped backoff x ∧ stamped ≤ t ∧
      t < stamped + backoff := by
  have hs := holds_run h
  constructor
  · rintro ⟨till, hb, hlt⟩
    obtain ⟨x, hx, stamped, backoff, ht, rfl⟩ := hs.tripped till hb
    exact ⟨x, hx, stamped, backoff, ht, (hs.passed x hx _ _ ht).1.trans hle, hlt⟩
  · rintro ⟨x, hx, stamped, backoff, ht, -, hlt⟩
    obtain ⟨-, hb | hb⟩ := hs.passed x hx stamped backoff ht
    · exact ⟨_, hb, hlt⟩
    · exact absurd (hb.trans hle) (not_le.mpr hlt)

theorem backoff_bounds (response : TransportResponse) :
    1 ≤ retryAfterSeconds response ∧ retryAfterSeconds response ≤ 60 := by
  rw [retryAfterSeconds]
  split
  · exact ⟨le_max_left _ _, max_le (by decide) (min_le_left _ _)⟩
  · decide

theorem trips_bounds (h : Trips stamped backoff x) : 1 ≤ backoff ∧ backoff ≤ 60 := by
  obtain ⟨_, response, -, -, -, rfl⟩ := h
  exact backoff_bounds response

def waits (response : TransportResponse) (name : String) : Option Int :=
  (response.header name).bind parseInt

theorem backoff_named (response : TransportResponse) :
    (∃ value, (waits response "retry-after").or (waits response "x-retry-after") = some value ∧
        retryAfterSeconds response = max 1 (min 60 value)) ∨
      waits response "retry-after" = none ∧ waits response "x-retry-after" = none ∧
        retryAfterSeconds response = 5 := by
  have hread : ∀ wait, (waits response "retry-after").or (waits response "x-retry-after") = wait →
      ["retry-after", "x-retry-after"].findSome? (fun name =>
        (response.header name).bind parseInt) = wait := by
    rintro _ rfl
    change ["retry-after", "x-retry-after"].findSome? (waits response) = _
    rw [List.findSome?_cons, List.findSome?_singleton]
    cases waits response "retry-after" <;> rfl
  rw [retryAfterSeconds]
  cases hw : (waits response "retry-after").or (waits response "x-retry-after") with
  | some value =>
    rw [hread _ hw]
    exact .inl ⟨value, rfl, rfl⟩
  | none =>
    rw [hread _ hw]
    exact .inr ⟨(Option.or_eq_none_iff.mp hw).1, (Option.or_eq_none_iff.mp hw).2, rfl⟩

theorem observe_step (h : step s (.observe checked stamped response) = some (u, fs)) :
    u.blockedUntil = observed checked stamped response s.blockedUntil := by
  rw [step] at h
  split at h
  · cases h
  · cases h
    rfl

/-- The latch is in force exactly within the window of a 429 seen while it was not. -/
structure Latches (clock : Seconds) : Prop where
  inForce : ∀ tr s t, Run Backoff.step ⟨clock, none⟩ tr s → s.clock ≤ t →
    (InForce t s.blockedUntil ↔ ∃ x ∈ tr, ∃ stamped backoff, Trips stamped backoff x ∧
      stamped ≤ t ∧ t < stamped + backoff)
  answered : ∀ s u now fs, Backoff.step s (.latched now) = some (u, fs) →
    ∃ answer, fs = [answer] ∧ (answer = true ↔ InForce now s.blockedUntil)
  named : ∀ x stamped backoff, Trips stamped backoff x → ∃ checked response,
    x.event = .observe checked stamped response ∧ response.statusCode = 429 ∧
    ((∃ value, (waits response "retry-after").or (waits response "x-retry-after") = some value ∧
        backoff = max 1 (min 60 value)) ∨
      waits response "retry-after" = none ∧ waits response "x-retry-after" = none ∧ backoff = 5)
  kept : ∀ s u call fs, Backoff.step s call = some (u, fs) → InForce u.clock s.blockedUntil →
    u.blockedUntil = s.blockedUntil
  unextended : ∀ s u checked stamped response fs,
    Backoff.step s (.observe checked stamped response) = some (u, fs) →
    InForce checked s.blockedUntil → u.blockedUntil = s.blockedUntil
  ignored : ∀ s u checked stamped response fs,
    Backoff.step s (.observe checked stamped response) = some (u, fs) →
    response.statusCode ≠ 429 → u.blockedUntil = s.blockedUntil
  recovers : ∀ tr s t t', Run Backoff.step ⟨clock, none⟩ tr s → s.clock ≤ t' →
    InForce t' s.blockedUntil → t + 60 ≤ t' →
    ∃ x ∈ tr, ∃ stamped backoff, Trips stamped backoff x ∧ t < stamped ∧ stamped ≤ t'

theorem backoff_latches (clock : Seconds) : Latches clock := by
  constructor
  · intro tr s t h hle
    exact run_inForce h hle
  · intro s u now fs h
    rw [Backoff.step] at h
    split at h
    · cases h
    · cases h
      exact ⟨_, rfl, latched_iff⟩
  · rintro x stamped backoff ⟨checked, response, he, hr, -, rfl⟩
    exact ⟨checked, response, he, hr, backoff_named response⟩
  · intro s u call fs h hf
    obtain ⟨-, ⟨hb | ⟨-, hn⟩, -⟩ | ⟨_, -, hn, -⟩⟩ := step_cases h
    · exact hb
    · exact absurd hf hn
    · exact absurd hf hn
  · intro s u checked stamped response fs h hf
    rw [observe_step h]
    exact observed_kept hf
  · intro s u checked stamped response fs h hr
    rw [observe_step h]
    exact observed_ignored hr
  · intro tr s t t' h hle hf hlong
    obtain ⟨x, hx, stamped, backoff, ht, hs, hlt⟩ := (run_inForce h hle).mp hf
    refine ⟨x, hx, stamped, backoff, ht, ?_, hs⟩
    have hb : (backoff : Seconds) ≤ 60 := by exact_mod_cast (trips_bounds ht).2
    have hlt' : t + 60 < stamped + 60 := by
      calc t + 60 ≤ t' := hlong
        _ < stamped + backoff := hlt
        _ ≤ stamped + 60 := add_le_add le_rfl hb
    exact lt_of_add_lt_add_right hlt'

end BetterAuthBridge.Backoff
