import BetterAuthBridge.Library.Tasks
import Mathlib.Data.List.Perm.Subperm

namespace BetterAuthBridge.Library.Slots

open Runs Tasks

variable {ι σ π ε δ φ : Type*} [DecidableEq ι]

inductive Use
  | acquire
  | release
  deriving DecidableEq

/-- How one section of task `i` may treat a bounded number of slots: leave them, take one that is
free, or give back its own. The Boolean says whether the task stands where it holds one. -/
inductive Slotted (cap : Nat) (i : ι) : Option Use → List ι → Bool → List ι → Bool → Prop
  | kept {l b} : Slotted cap i none l b l b
  | taken {l} : l.length < cap → Slotted cap i (some .acquire) l false (i :: l) true
  | given {l} : Slotted cap i (some .release) l true (l.erase i) false

/-- The slots after a section of task `i`, by where it stands before and after it. -/
def turn (cap : Nat) (i : ι) (l : List ι) : Bool → Bool → Option (List ι)
  | false, true => if l.length < cap then some (i :: l) else none
  | true, false => some (l.erase i)
  | false, false | true, true => some l

def turned : Bool → Bool → Option Use
  | false, true => some .acquire
  | true, false => some .release
  | false, false | true, true => none

section

variable {cap : Nat} {i j : ι} {u : Option Use} {l l' : List ι} {b b' : Bool}

theorem slotted_turn (h : turn cap i l b b' = some l') :
    Slotted cap i (turned b b') l b l' b' := by
  cases b with
  | false =>
    cases b' with
    | false =>
      cases h
      exact .kept
    | true =>
      rw [turn] at h
      split at h
      · rename_i hlt
        cases h
        exact .taken hlt
      · cases h
  | true =>
    cases b' with
    | false =>
      cases h
      exact .given
    | true =>
      cases h
      exact .kept

theorem exists_turn (h : b = false → b' = true → l.length < cap) :
    ∃ l', turn cap i l b b' = some l' := by
  cases b with
  | false =>
    cases b' with
    | false => exact ⟨_, rfl⟩
    | true => exact ⟨_, if_pos (h rfl rfl)⟩
  | true => cases b' <;> exact ⟨_, rfl⟩

theorem Slotted.nodup (h : Slotted cap i u l b l' b') (hn : l.Nodup) (hi : i ∈ l ↔ b = true) :
    l'.Nodup := by
  cases h with
  | kept => exact hn
  | taken =>
    have hfree : i ∉ l := by simp [hi]
    exact List.nodup_cons.mpr ⟨hfree, hn⟩
  | given => exact hn.erase i

theorem Slotted.bounded (h : Slotted cap i u l b l' b') (hb : l.length ≤ cap) :
    l'.length ≤ cap := by
  cases h with
  | kept => exact hb
  | taken hlt => exact hlt
  | given => exact Nat.le_trans List.length_erase_le hb

theorem Slotted.self (h : Slotted cap i u l b l' b') (hn : l.Nodup) (hi : i ∈ l ↔ b = true) :
    i ∈ l' ↔ b' = true := by
  cases h with
  | kept => exact hi
  | taken => simp
  | given => simp [hn.mem_erase_iff]

theorem Slotted.other (h : Slotted cap i u l b l' b') (hn : l.Nodup) (hj : j ≠ i) :
    j ∈ l' ↔ j ∈ l := by
  cases h with
  | kept => exact Iff.rfl
  | taken => simp [hj]
  | given => simp [hn.mem_erase_iff, hj]

theorem Slotted.balance (h : Slotted cap i u l b l' b') :
    (if u = some .acquire then 1 else 0) + (if b then 1 else 0) =
      (if u = some .release then 1 else 0) + if b' then 1 else 0 := by
  cases h with
  | kept => simp
  | taken => rfl
  | given => rfl

theorem Slotted.acquired (h : Slotted cap i (some .acquire) l b l' b') :
    b = false ∧ l.length < cap ∧ l' = i :: l := by
  cases h with
  | taken hlt => exact ⟨rfl, hlt, rfl⟩

theorem Slotted.released (h : Slotted cap i (some .release) l b l' b') :
    b = true ∧ l' = l.erase i := by
  cases h
  exact ⟨rfl, rfl⟩

theorem Slotted.quiet (h : Slotted cap i none l b l' b') : l' = l := by
  cases h
  rfl

end

/-- How to read the slots off tasks: who holds them by the shared state, and where a task stands
when it holds one. -/
structure Holding (ι σ π : Type*) where
  holders : σ → List ι
  holds : π → Bool

structure Usage (ι σ π ε : Type*) extends Holding ι σ π where
  use : ε → π → Option Use

variable {cap : Nat} {i : ι} {k : Holding ι σ π} {r : Usage ι σ π ε} {p : Program ι σ π ε δ φ}
  {s t : World ι σ π} {tr : Trace ι σ π ε δ φ}

def Usage.uses (r : Usage ι σ π ε) (i : ι) (u : Use)
    (x : Transition (World ι σ π) (Happening ι ε δ) φ) : Bool :=
  match x.event with
  | .act j e => j = i ∧ r.use e (x.before.phase j) = some u
  | .drift _ => false

/-- The slots are held by the tasks that stand so, and by no others. -/
structure Held (k : Holding ι σ π) (cap : Nat) (w : World ι σ π) : Prop where
  nodup : (k.holders w.shared).Nodup
  bounded : (k.holders w.shared).length ≤ cap
  holder : ∀ i, i ∈ k.holders w.shared ↔ k.holds (w.phase i) = true

/-- Each task has released every slot it acquired, but for the one it holds. -/
def Balanced (r : Usage ι σ π ε) (tr : Trace ι σ π ε δ φ) (w : World ι σ π) : Prop :=
  ∀ i, tr.countP (r.uses i .acquire) =
    tr.countP (r.uses i .release) + if r.holds (w.phase i) then 1 else 0

/-- Every section treats the slots as it may, and the surroundings leave them alone. -/
structure Guarded (r : Usage ι σ π ε) (cap : Nat) (p : Program ι σ π ε δ φ) : Prop where
  act : ∀ i e s q s' q' fs, p.act i e s q = some (s', q', fs) →
    Slotted cap i (r.use e q) (r.holders s) (r.holds q) (r.holders s') (r.holds q')
  drift : ∀ d s s', p.drift d s = some s' → r.holders s' = r.holders s

omit [DecidableEq ι] in
theorem Held.start (hl : k.holders s.shared = []) (hs : ∀ i, k.holds (s.phase i) = false) :
    Held k cap s where
  nodup := by simp [hl]
  bounded := by simp [hl]
  holder i := by simp [hl, hs i]

theorem Held.act {u : Option Use} {s' : σ} {q : π} (h : Held k cap s)
    (hu : Slotted cap i u (k.holders s.shared) (k.holds (s.phase i)) (k.holders s') (k.holds q)) :
    Held k cap ⟨s', Function.update s.phase i q⟩ where
  nodup := hu.nodup h.nodup (h.holder i)
  bounded := hu.bounded h.bounded
  holder j := by
    by_cases hj : j = i
    · subst hj
      simpa using hu.self h.nodup (h.holder j)
    · simpa [Function.update_of_ne hj, ← h.holder j] using hu.other h.nodup hj

omit [DecidableEq ι] in
theorem Held.length_le (h : Held k cap s) {l : List ι} (hn : l.Nodup)
    (hl : ∀ i ∈ l, k.holds (s.phase i) = true) : l.length ≤ cap := by
  have hsub : l ⊆ k.holders s.shared := fun i hi => (h.holder i).mpr (hl i hi)
  exact Nat.le_trans (hn.subperm hsub).length_le h.bounded

omit [DecidableEq ι] in
theorem Held.exists_holds (h : Held k cap s) (hcap : 1 ≤ cap)
    (hfull : ¬ (k.holders s.shared).length < cap) : ∃ j, k.holds (s.phase j) = true := by
  obtain ⟨j, hj⟩ := List.exists_mem_of_length_pos
    (show 0 < (k.holders s.shared).length by omega)
  exact ⟨j, (h.holder j).mp hj⟩

theorem held (hp : Guarded r cap p) (h : Run p.machine s tr t) (hs : Held r.toHolding cap s) :
    Held r.toHolding cap t := by
  refine h.preserved (P := Held r.toHolding cap) ?_ hs
  intro w ev u fs hw hu
  cases ev with
  | act i e =>
    obtain ⟨s', q, ha, rfl⟩ := Program.machine_act.mp hu
    exact hw.act (hp.act _ _ _ _ _ _ _ ha)
  | drift d =>
    obtain ⟨s', hd, rfl, -⟩ := Program.machine_drift.mp hu
    have heq := hp.drift _ _ _ hd
    exact ⟨heq ▸ hw.nodup, heq ▸ hw.bounded, fun i => heq ▸ hw.holder i⟩

/-- What is acquired is released once, in every run. -/
theorem balanced (hp : Guarded r cap p) (h : Run p.machine s tr t)
    (hs : ∀ i, r.holds (s.phase i) = false) : Balanced r tr t := by
  refine h.invariant (I := Balanced r) (fun i => by simp [hs i]) ?_
  intro tr w ev u fs _ ih hu j
  rw [List.countP_append, List.countP_append, List.countP_singleton, List.countP_singleton]
  cases ev with
  | act i e =>
    obtain ⟨s', q, ha, rfl⟩ := Program.machine_act.mp hu
    have hb := (hp.act _ _ _ _ _ _ _ ha).balance
    have hj := ih j
    by_cases hji : i = j
    · subst hji
      simp only [Usage.uses, Function.update_self, true_and, decide_eq_true_eq]
      omega
    · simp only [Usage.uses, hji, Function.update_of_ne (Ne.symm hji), false_and, decide_false,
        Bool.false_eq_true, if_false]
      omega
  | drift d =>
    obtain ⟨s', -, rfl, -⟩ := Program.machine_drift.mp hu
    simpa [Usage.uses] using ih j

end BetterAuthBridge.Library.Slots
