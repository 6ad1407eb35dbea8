import BetterAuthBridge.Library.Tasks
import Mathlib.Algebra.BigOperators.Group.Finset.Basic
import Mathlib.Algebra.Order.BigOperators.Group.Finset

namespace BetterAuthBridge.Library.Progress

open Runs Tasks

variable {ι σ π ε δ φ : Type*} [DecidableEq ι]

/-- A call is under way where something can resume it. The menu has what may, short of a
cancellation. -/
def UnderWay (menu : π → Set ε) (q : π) : Prop := (menu q).Nonempty

def Ready (p : Program ι σ π ε δ φ) (menu : π → Set ε) (w : World ι σ π) (i : ι) : Prop :=
  UnderWay menu (w.phase i) ∧ ∀ e ∈ menu (w.phase i), ∃ r, p.act i e w.shared (w.phase i) = some r

def acts (i : ι) (x : Transition (World ι σ π) (Happening ι ε δ) φ) : Bool :=
  match x.event with
  | .act j _ => j = i
  | .drift _ => false

variable {p : Program ι σ π ε δ φ} {menu : π → Set ε} {rank : π → Nat} {s w : World ι σ π}
  {tr : Trace ι σ π ε δ φ}

/-- No call takes more sections than the rank it began at. -/
theorem sections_le (hrank : ∀ i e s q s' q' fs, p.act i e s q = some (s', q', fs) →
    rank q' < rank q) (h : Run p.machine s tr w) (i : ι) :
    tr.countP (acts i) + rank (w.phase i) ≤ rank (s.phase i) := by
  refine h.invariant
    (I := fun tr w => tr.countP (acts i) + rank (w.phase i) ≤ rank (s.phase i)) (by simp) ?_
  intro tr w ev u fs _ ih hu
  rw [List.countP_append, List.countP_singleton]
  obtain ⟨j, e, rfl, ha, hother⟩ | ⟨d, s', rfl, -, rfl, -⟩ := Program.machine_steps hu
  · have hdrop := hrank _ _ _ _ _ _ _ ha
    by_cases hj : j = i
    · subst hj
      simp only [acts, decide_true, if_true]
      omega
    · simpa [acts, hj, hother i (Ne.symm hj)] using ih
  · simpa [acts] using ih

/-- Only calls that took a section are under way. -/
theorem begun (hs : ∀ i, ¬ UnderWay menu (s.phase i)) (h : Run p.machine s tr w) :
    ∃ calls : Finset ι, ∀ i, UnderWay menu (w.phase i) → i ∈ calls := by
  refine h.invariant (I := fun _ w => ∃ calls : Finset ι, ∀ i, UnderWay menu (w.phase i) → i ∈ calls)
    ⟨∅, fun i hi => (hs i hi).elim⟩ ?_
  rintro tr w ev u fs - ⟨calls, hc⟩ hu
  obtain ⟨j, e, rfl, -, hother⟩ | ⟨d, s', rfl, -, rfl, -⟩ := Program.machine_steps hu
  · refine ⟨insert j calls, fun i hi => ?_⟩
    by_cases hj : i = j
    · exact hj ▸ Finset.mem_insert_self ..
    · rw [hother i hj] at hi
      exact Finset.mem_insert_of_mem (hc i hi)
  · exact ⟨calls, hc⟩

/-- Calls come to their ends: each takes a bounded number of sections, as long as one is under way
one can go on, and so with any answers all of them can be brought to their ends. -/
structure Completes (p : Program ι σ π ε δ φ) (s : World ι σ π) (menu : π → Set ε)
    (rank : π → Nat) : Prop where
  bounded : ∀ tr w i, Run p.machine s tr w →
    tr.countP (acts i) + rank (w.phase i) ≤ rank (s.phase i)
  unstuck : ∀ tr w i, Run p.machine s tr w → UnderWay menu (w.phase i) → ∃ j, Ready p menu w j
  driven : ∀ tr w (answers : ι → π → ε), Run p.machine s tr w →
    (∀ i q, UnderWay menu q → answers i q ∈ menu q) →
    ∃ tr' u, Run p.machine w tr' u ∧ (∀ i, ¬ UnderWay menu (u.phase i)) ∧
      ∀ x ∈ tr', ∃ i, UnderWay menu (x.before.phase i) ∧
        x.event = .act i (answers i (x.before.phase i))

/-- A section of a call that can go on lowers the sum of the ranks. -/
theorem sum_drops (hrank : ∀ i e s q s' q' fs, p.act i e s q = some (s', q', fs) →
    rank q' < rank q) {calls : Finset ι} {i : ι} {e : ε} {s' : σ} {q : π} {fs : List φ}
    (hi : i ∈ calls) (ha : p.act i e w.shared (w.phase i) = some (s', q, fs)) :
    ∑ j ∈ calls, rank (Function.update w.phase i q j) < ∑ j ∈ calls, rank (w.phase j) := by
  have hdrop := hrank _ _ _ _ _ _ _ ha
  refine Finset.sum_lt_sum (fun j _ => ?_) ⟨i, hi, by simpa using hdrop⟩
  by_cases hj : j = i
  · subst hj
    simpa using hdrop.le
  · simp [Function.update_of_ne hj]

theorem completes (hrank : ∀ i e s q s' q' fs, p.act i e s q = some (s', q', fs) → rank q' < rank q)
    (hs : ∀ i, ¬ UnderWay menu (s.phase i))
    (hunstuck : ∀ tr w i, Run p.machine s tr w → UnderWay menu (w.phase i) →
      ∃ j, Ready p menu w j) : Completes p s menu rank := by
  refine ⟨fun tr w i h => sections_le hrank h i, hunstuck, fun tr w answers h hanswers => ?_⟩
  obtain ⟨calls, hcalls⟩ := begun hs h
  -- induction on the sum of the ranks of the calls under way; each section lowers it
  induction hn : ∑ i ∈ calls, rank (w.phase i) using Nat.strong_induction_on generalizing tr w with
  | _ n ih =>
    by_cases hu : ∃ i, UnderWay menu (w.phase i)
    · obtain ⟨i, hi⟩ := hu
      obtain ⟨j, hj, hready⟩ := hunstuck tr w i h hi
      obtain ⟨⟨s', q, fs⟩, ha⟩ := hready _ (hanswers j _ hj)
      have hm := Program.machine_act.mpr ⟨s', q, ha, rfl⟩
      have hlt := sum_drops hrank (hcalls j hj) ha
      have hcalls' : ∀ k, UnderWay menu (Function.update w.phase j q k) → k ∈ calls := by
        intro k hk
        by_cases hkj : k = j
        · exact hkj ▸ hcalls j hj
        · exact hcalls k (by simpa only [Function.update_of_ne hkj] using hk)
      obtain ⟨tr', u, hr, hend, hall⟩ := ih _ (hn ▸ hlt) _ _ (h.snoc hm) hcalls' rfl
      refine ⟨_, u, (Run.single hm).append hr, hend, fun x hx => ?_⟩
      obtain hx | hx := List.mem_append.mp hx
      · obtain rfl := List.mem_singleton.mp hx
        exact ⟨j, hj, rfl⟩
      · exact hall x hx
    · exact ⟨[], w, Run.nil, fun i hi => hu ⟨i, hi⟩, nofun⟩

omit [DecidableEq ι] in
/-- Where calls wait for one lock only: the call that has it can go on, or it is free. -/
theorem ready_of_lock (lock : σ → Option ι) (holds waits : π → Bool)
    (hlock : ∀ i, lock w.shared = some i ↔ holds (w.phase i) = true)
    (hready : ∀ i, UnderWay menu (w.phase i) →
      (waits (w.phase i) = true → lock w.shared = none) → Ready p menu w i)
    (hholds : ∀ q, holds q = true → UnderWay menu q ∧ waits q = false) {i : ι}
    (hi : UnderWay menu (w.phase i)) : ∃ j, Ready p menu w j := by
  cases hl : lock w.shared with
  | none => exact ⟨i, hready i hi fun _ => hl⟩
  | some j =>
    obtain ⟨hu, hw⟩ := hholds _ ((hlock j).mp hl)
    exact ⟨j, hready j hu fun h => by rw [hw] at h; cases h⟩

end BetterAuthBridge.Library.Progress
