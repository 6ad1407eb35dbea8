import BetterAuthBridge.Library.Ordered
import BetterAuthBridge.RemoteResponse

namespace BetterAuthBridge.RemoteGates

open Library Values RemoteResponse

variable (R : Runtime)

/-- The cookie values upstream answered `200 + null` about, and when. -/
abbrev Entries := Ordered.Table Digest Seconds

def key (material : Text) : Digest := R.sha256 (encodeUtf8 material)

def holds (ttl now : Seconds) (material : Text) (entries : Entries) : Bool × Entries :=
  if ttl ≤ 0 then (false, entries)
  else
    match Ordered.get entries (key R material) with
    | none => (false, entries)
    | some rememberedAt =>
      if ttl ≤ now - rememberedAt then (false, Ordered.erase entries (key R material))
      else (true, entries)

def remember (ttl : Seconds) (maxRemembered : Nat) (now : Seconds) (material : Text)
    (entries : Entries) : Entries :=
  if ttl ≤ 0 then entries
  else
    let kept := if (Ordered.get entries (key R material)).isSome then entries
      else Ordered.evicted maxRemembered entries
    Ordered.set kept (key R material) now

/-- Whether a backoff is in force, and the latch after an elapsed one was cleared. -/
def latched (now : Seconds) (blockedUntil : Option Seconds) : Bool × Option Seconds :=
  match blockedUntil with
  | none => (false, none)
  | some till => if till ≤ now then (false, none) else (true, some till)

def observe (now : Seconds) (response : TransportResponse) (blockedUntil : Option Seconds) :
    Option Seconds :=
  if response.statusCode ≠ rateLimited then blockedUntil
  else if (latched now blockedUntil).1 then (latched now blockedUntil).2
  else some (now + retryAfterSeconds response)

def InForce (now : Seconds) (blockedUntil : Option Seconds) : Prop :=
  ∃ till, blockedUntil = some till ∧ now < till

theorem latched_iff {now : Seconds} {blockedUntil : Option Seconds} :
    (latched now blockedUntil).1 = true ↔ InForce now blockedUntil := by
  cases blockedUntil with
  | none => simp [latched, InForce]
  | some till =>
    by_cases h : till ≤ now
    · simp [latched, InForce, h, not_lt.mpr h]
    · simp [latched, InForce, h, not_le.mp h]

theorem latched_snd {now till : Seconds} {blockedUntil : Option Seconds}
    (h : (latched now blockedUntil).2 = some till) : blockedUntil = some till := by
  cases blockedUntil with
  | none => cases h
  | some b =>
    by_cases hb : b ≤ now
    · simp [latched, hb] at h
    · simpa [latched, hb] using h

theorem latched_kept {now : Seconds} {blockedUntil : Option Seconds}
    (h : InForce now blockedUntil) : (latched now blockedUntil).2 = blockedUntil := by
  obtain ⟨b, rfl, hb⟩ := h
  simp [latched, not_le.mpr hb]

theorem observe_kept {now : Seconds} {blockedUntil : Option Seconds} {response : TransportResponse}
    (h : InForce now blockedUntil) : observe now response blockedUntil = blockedUntil := by
  unfold observe
  rw [latched_iff.mpr h, latched_kept h]
  simp

theorem observe_trips {now : Seconds} {blockedUntil : Option Seconds} {response : TransportResponse}
    (hr : response.statusCode = rateLimited) (h : ¬ InForce now blockedUntil) :
    observe now response blockedUntil = some (now + retryAfterSeconds response) := by
  rw [observe, if_neg (not_not.mpr hr), if_neg (latched_iff.not.mpr h)]

theorem observe_eq_some {now till : Seconds} {blockedUntil : Option Seconds}
    {response : TransportResponse} (h : observe now response blockedUntil = some till) :
    blockedUntil = some till ∨ response.statusCode = rateLimited ∧ ¬ InForce now blockedUntil ∧
      till = now + retryAfterSeconds response := by
  by_cases hr : response.statusCode = rateLimited
  · by_cases hl : InForce now blockedUntil
    · rw [observe_kept hl] at h
      exact Or.inl h
    · rw [observe_trips hr hl] at h
      exact Or.inr ⟨hr, hl, (Option.some.inj h).symm⟩
  · rw [observe, if_pos hr] at h
    exact Or.inl h

end BetterAuthBridge.RemoteGates
