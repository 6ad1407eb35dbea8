import Mathlib.Data.List.Rotate
import Mathlib.Dynamics.PeriodicPts.Defs

namespace BetterAuthBridge.Library.Words

open Function

variable {α : Type*} {u v w : List α} {n p : ℕ}

def power (u : List α) (n : ℕ) : List α := (List.replicate n u).flatten

@[simp] theorem power_zero (u : List α) : power u 0 = [] := rfl

theorem power_succ (u : List α) (n : ℕ) : power u (n + 1) = u ++ power u n := by
  rw [power, List.replicate_succ, List.flatten_cons, power]

theorem length_power (u : List α) (n : ℕ) : (power u n).length = n * u.length := by
  induction n with
  | zero => rw [power_zero, List.length_nil, Nat.zero_mul]
  | succ n ih => rw [power_succ, List.length_append, ih, Nat.succ_mul, Nat.add_comm]

theorem append_power (u : List α) (n : ℕ) : u ++ power u n = power u n ++ u := by
  induction n with
  | zero => rw [power_zero, List.append_nil, List.nil_append]
  | succ n ih =>
    rw [power_succ, List.append_assoc, ← ih]

/-- A word that commutes with another of a multiple of its length makes that one up. -/
theorem eq_power_of_comm (h : u ++ w = w ++ u) (hw : w.length = n * u.length) : w = power u n := by
  induction n generalizing w with
  | zero =>
    rw [Nat.zero_mul, List.length_eq_zero_iff] at hw
    exact hw
  | succ n ih =>
    have hle : u.length ≤ w.length := by
      rw [hw, Nat.succ_mul]
      exact Nat.le_add_left _ _
    obtain ⟨t, rfl⟩ : u <+: w :=
      List.prefix_of_prefix_length_le (List.prefix_append u w) (h ▸ List.prefix_append w u) hle
    rw [List.append_assoc, List.append_right_inj] at h
    have ht : t.length = n * u.length := by
      rw [List.length_append, Nat.succ_mul] at hw
      omega
    rw [power_succ, ← ih h ht]

theorem rotate_power (u : List α) (n : ℕ) : (power u (n + 1)).rotate u.length = power u (n + 1) := by
  rw [power_succ, List.rotate_append_length_eq, append_power]

/-- A word that a rotation by a divisor of its length leaves as it is repeats its beginning. -/
theorem eq_power_of_rotate (h : v.rotate p = v) (hd : p ∣ v.length) (hv : v ≠ []) :
    ∃ n, 0 < n ∧ v = power (v.take p) n := by
  obtain ⟨n, hn⟩ := hd
  have hlen := List.length_pos_of_ne_nil hv
  obtain ⟨k, rfl⟩ : ∃ k, n = k + 1 := by
    refine Nat.exists_eq_succ_of_ne_zero ?_
    rintro rfl
    omega
  have hle : p ≤ v.length := Nat.le_of_dvd hlen ⟨_, hn⟩
  have htake : (v.take p).length = p := by
    rw [List.length_take]
    omega
  refine ⟨k + 1, Nat.succ_pos k, ?_⟩
  have hcomm : v.take p ++ v.drop p = v.drop p ++ v.take p := by
    rw [List.take_append_drop, ← List.rotate_eq_drop_append_take hle, h]
  have hdrop : v.drop p = power (v.take p) k := by
    apply eq_power_of_comm hcomm
    rw [List.length_drop, htake, hn, Nat.mul_succ, Nat.add_sub_cancel, Nat.mul_comm]
  rw [power_succ, ← hdrop, List.take_append_drop]

theorem iterate_rotate (v : List α) (p : ℕ) : (fun l : List α => l.rotate 1)^[p] v = v.rotate p := by
  induction p with
  | zero => rw [iterate_zero, id, List.rotate_zero]
  | succ p ih => rw [iterate_succ_apply', ih, List.rotate_rotate]

theorem isPeriodicPt_iff : IsPeriodicPt (fun l : List α => l.rotate 1) p v ↔ v.rotate p = v := by
  rw [IsPeriodicPt, IsFixedPt, iterate_rotate]

/-- The first rotation that leaves a word as it is goes by a divisor of its length. -/
theorem dvd_of_least (hp : 0 < p) (h : v.rotate p = v)
    (hmin : ∀ i, 0 < i → v.rotate i = v → p ≤ i) : p ∣ v.length := by
  have hper := isPeriodicPt_iff.mpr h
  have hle := hper.minimalPeriod_le hp
  have hge := hmin _ (hper.minimalPeriod_pos hp)
    (isPeriodicPt_iff.mp (isPeriodicPt_minimalPeriod _ v))
  rw [Nat.le_antisymm hge hle]
  exact (isPeriodicPt_iff.mpr v.rotate_length).minimalPeriod_dvd

structure IsRoot (u v : List α) : Prop where
  repeats : ∃ n, 0 < n ∧ v = power u n
  least : ∀ t n, 0 < n → v = power t n → u.length ≤ t.length
  unique : ∀ t n, 0 < n → v = power t n → t.length = u.length → t = u

theorem rotate_of_power {t : List α} (hn : 0 < n) (h : v = power t n) : v.rotate t.length = v := by
  obtain ⟨k, rfl⟩ := Nat.exists_eq_succ_of_ne_zero hn.ne'
  rw [h]
  exact rotate_power t k

theorem isRoot_of_least (hv : v ≠ []) (hp : 0 < p) (h : v.rotate p = v)
    (hmin : ∀ i, 0 < i → v.rotate i = v → p ≤ i) : IsRoot (v.take p) v := by
  have hle : p ≤ v.length := hmin _ (List.length_pos_of_ne_nil hv) v.rotate_length
  have htake : (v.take p).length = p := by
    rw [List.length_take]
    omega
  constructor
  · exact eq_power_of_rotate h (dvd_of_least hp h hmin) hv
  · intro t n hn ht
    rw [htake]
    apply hmin _ _ (rotate_of_power hn ht)
    apply List.length_pos_of_ne_nil
    rintro rfl
    have hlen := congrArg List.length ht
    rw [length_power, List.length_nil, Nat.mul_zero, List.length_eq_zero_iff] at hlen
    exact hv hlen
  · intro t n hn ht hlen
    obtain ⟨k, rfl⟩ := Nat.exists_eq_succ_of_ne_zero hn.ne'
    rw [htake] at hlen
    rw [ht, power_succ, ← hlen, List.take_left]

theorem prefix_drop_double (hp : p ≤ v.length) : v <+: (v ++ v).drop p ↔ v.rotate p = v := by
  rw [List.drop_append_of_le_length hp, List.prefix_iff_eq_take, List.rotate_eq_drop_append_take hp,
    List.take_append, List.length_drop, List.take_of_length_le (by rw [List.length_drop]; omega),
    Nat.sub_sub_self hp]
  exact eq_comm

end BetterAuthBridge.Library.Words
