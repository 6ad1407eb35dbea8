import Mathlib.Algebra.Order.Round
import Mathlib.Algebra.Order.Archimedean.Basic
import Mathlib.Data.Int.Log
import Mathlib.Data.Rat.Floor
import Mathlib.Tactic.Linarith
import Mathlib.Tactic.NormNum
import Mathlib.Tactic.Positivity
import Mathlib.Tactic.Ring

namespace BetterAuthBridge.Library.Floats

/-- The nearest integer, and the even one of two that are equally near. -/
def roundEven (q : ℚ) : ℤ :=
  if Int.fract q < 1 / 2 then ⌊q⌋
  else if 1 / 2 < Int.fract q then ⌊q⌋ + 1
  else if ⌊q⌋ % 2 = 0 then ⌊q⌋ else ⌊q⌋ + 1

theorem roundEven_intCast (n : ℤ) : roundEven n = n := by
  rw [roundEven, Int.fract_intCast, if_pos (by norm_num), Int.floor_intCast]

theorem le_roundEven {n : ℤ} {q : ℚ} (h : (n : ℚ) ≤ q) : n ≤ roundEven q := by
  have hf : n ≤ ⌊q⌋ := Int.le_floor.mpr h
  unfold roundEven
  split_ifs <;> omega

theorem roundEven_le {n : ℤ} {q : ℚ} (h : q ≤ n) : roundEven q ≤ n := by
  by_cases hn : q = n
  · rw [hn, roundEven_intCast]
  · have hf : ⌊q⌋ < n := Int.floor_lt.mpr (lt_of_le_of_ne h hn)
    unfold roundEven
    split_ifs <;> omega

/-- Half a step below an even integer is enough to reach it. -/
theorem even_le_roundEven {n : ℤ} {q : ℚ} (hn : n % 2 = 0) (h : (n : ℚ) - 1 / 2 ≤ q) :
    n ≤ roundEven q := by
  by_cases hq : (n : ℚ) ≤ q
  · exact le_roundEven hq
  · have hfloor : ⌊q⌋ = n - 1 := by
      rw [Int.floor_eq_iff]
      push_cast
      constructor <;> linarith
    have hfract : Int.fract q = q - (n - 1) := by
      rw [Int.fract, hfloor]
      push_cast
      ring
    have hhalf : ¬ Int.fract q < 1 / 2 := by
      rw [hfract]
      linarith
    rw [roundEven, if_neg hhalf, hfloor]
    split_ifs <;> omega

theorem roundEven_lt {n : ℤ} {q : ℚ} (h : q < (n : ℚ) - 1 / 2) : roundEven q < n := by
  by_cases hq : q ≤ (n : ℚ) - 1
  · have hle : roundEven q ≤ n - 1 := roundEven_le (by push_cast; exact hq)
    omega
  · have hfloor : ⌊q⌋ = n - 1 := by
      rw [Int.floor_eq_iff]
      push_cast
      constructor <;> linarith
    have hhalf : Int.fract q < 1 / 2 := by
      rw [Int.fract, hfloor]
      push_cast
      linarith
    rw [roundEven, if_pos hhalf, hfloor]
    omega

/-- A binary format: the digits of a significand, the exponent of the smallest step, and the
exponent from which on values are too large. -/
structure Format where
  precision : ℕ
  lowest : ℤ
  overflow : ℤ
  significant : 0 < precision
  fractional : lowest ≤ 0
  wide : precision < overflow

def binary64 : Format := ⟨53, -1074, 1024, by decide, by decide, by decide⟩

inductive Number
  | finite (value : ℚ)
  | negativeZero
  | infinite (sign : Bool)
  | nan
  deriving DecidableEq

namespace Format

variable (f : Format)

def step (q : ℚ) : ℤ := max (Int.log 2 q + 1 - f.precision) f.lowest

def rounded (q : ℚ) : ℚ := roundEven (q / 2 ^ f.step q) * 2 ^ f.step q

def round (q : ℚ) : Number :=
  if 2 ^ f.overflow ≤ f.rounded |q| then .infinite (q < 0)
  else if q < 0 then
    if f.rounded |q| = 0 then .negativeZero else .finite (-f.rounded |q|)
  else .finite (f.rounded |q|)

/-- The number nearest to an integer, `none` where that is too large. -/
def ofInt (n : ℤ) : Option Number :=
  match f.round n with
  | .infinite _ => none
  | number => some number

end Format

namespace Number

/-- The number of a binary64 pattern: a sign, eleven digits of exponent, 52 of a significand. -/
def ofBits (bits : UInt64) : Number :=
  let sign := decide (2 ^ 63 ≤ bits.toNat)
  let exponent : ℕ := bits.toNat / 2 ^ 52 % 2 ^ 11
  let fraction : ℕ := bits.toNat % 2 ^ 52
  if exponent = 2 ^ 11 - 1 then if fraction = 0 then infinite sign else nan
  else
    let magnitude : ℚ :=
      if exponent = 0 then fraction * 2 ^ (-1074 : ℤ)
      else (2 ^ 52 + fraction) * 2 ^ ((exponent : ℤ) - 1075)
    if sign then if magnitude = 0 then negativeZero else finite (-magnitude) else finite magnitude

def value : Number → ℚ
  | finite q => q
  | _ => 0

def formatted : Number → String
  | nan => "nan"
  | infinite sign => if sign then "-inf" else "inf"
  | negativeZero => "-0"
  | finite q => (if q < 0 then "-" else "") ++ toString (roundEven |q|)

def sub (f : Format) : Number → Number → Number
  | nan, _ | _, nan => nan
  | infinite a, infinite b => if a = b then nan else infinite a
  | infinite a, _ => infinite a
  | _, infinite b => infinite (!b)
  | x, y =>
    if x.value = y.value then if x = negativeZero ∧ y ≠ negativeZero then negativeZero else finite 0
    else f.round (x.value - y.value)

def lt : Number → Number → Bool
  | nan, _ | _, nan => false
  | infinite a, infinite b => a && !b
  | infinite a, _ => a
  | _, infinite b => !b
  | x, y => x.value < y.value

def le : Number → Number → Bool
  | nan, _ | _, nan => false
  | infinite a, infinite b => a || !b
  | infinite a, _ => a
  | _, infinite b => !b
  | x, y => x.value ≤ y.value

end Number

namespace Format

variable {f : Format} {q : ℚ} {n : ℤ}

theorem rounded_zero (f : Format) : f.rounded 0 = 0 := by
  rw [rounded, zero_div, ← Int.cast_zero, roundEven_intCast, Int.cast_zero, zero_mul]

theorem le_rounded {k : ℤ} (h : k * 2 ^ f.step q ≤ q) : k * 2 ^ f.step q ≤ f.rounded q := by
  have hpos : (0 : ℚ) < 2 ^ f.step q := zpow_pos (by norm_num) _
  have hle : (k : ℚ) ≤ roundEven (q / 2 ^ f.step q) := by
    exact_mod_cast le_roundEven ((le_div_iff₀ hpos).mpr h)
  exact mul_le_mul_of_nonneg_right hle hpos.le

theorem rounded_le {k : ℤ} (h : q ≤ k * 2 ^ f.step q) : f.rounded q ≤ k * 2 ^ f.step q := by
  have hpos : (0 : ℚ) < 2 ^ f.step q := zpow_pos (by norm_num) _
  have hle : (roundEven (q / 2 ^ f.step q) : ℚ) ≤ k := by
    exact_mod_cast roundEven_le ((div_le_iff₀ hpos).mpr h)
  exact mul_le_mul_of_nonneg_right hle hpos.le

theorem even_le_rounded {k : ℤ} (hk : k % 2 = 0) (h : (k - 1 / 2) * 2 ^ f.step q ≤ q) :
    k * 2 ^ f.step q ≤ f.rounded q := by
  have hpos : (0 : ℚ) < 2 ^ f.step q := zpow_pos (by norm_num) _
  have hle : (k : ℚ) ≤ roundEven (q / 2 ^ f.step q) := by
    exact_mod_cast even_le_roundEven hk ((le_div_iff₀ hpos).mpr h)
  exact mul_le_mul_of_nonneg_right hle hpos.le

theorem rounded_lt {k : ℤ} (h : q < (k - 1 / 2) * 2 ^ f.step q) :
    f.rounded q < k * 2 ^ f.step q := by
  have hpos : (0 : ℚ) < 2 ^ f.step q := zpow_pos (by norm_num) _
  have hlt : (roundEven (q / 2 ^ f.step q) : ℚ) < k := by
    exact_mod_cast roundEven_lt ((div_lt_iff₀ hpos).mpr h)
  exact mul_lt_mul_of_pos_right hlt hpos

theorem steps_of_le {k : ℤ} (h : f.step q ≤ k) : ∃ m : ℤ, (2 : ℚ) ^ k = m * 2 ^ f.step q := by
  obtain ⟨d, hd⟩ := Int.eq_ofNat_of_zero_le (Int.sub_nonneg_of_le h)
  refine ⟨2 ^ d, ?_⟩
  push_cast
  rw [← zpow_natCast, ← zpow_add₀ (by norm_num), ← hd]
  congr 1
  omega

theorem rounded_of_lt {n : ℕ} (h : n < 2 ^ f.precision) : f.rounded n = n := by
  obtain rfl | hn := Nat.eq_zero_or_pos n
  · exact_mod_cast rounded_zero f
  · have hlog : Int.log 2 (n : ℚ) < f.precision := by
      rw [← Int.lt_zpow_iff_log_lt (by norm_num) (by exact_mod_cast hn)]
      exact_mod_cast h
    have hstep : f.step n ≤ 0 := max_le (by omega) f.fractional
    obtain ⟨m, hm⟩ := steps_of_le hstep
    have he : (n : ℚ) = (n * m : ℤ) * 2 ^ f.step n := by
      push_cast
      rw [mul_assoc, ← hm, zpow_zero, mul_one]
    apply le_antisymm
    · calc f.rounded n ≤ (n * m : ℤ) * 2 ^ f.step n := rounded_le he.le
        _ = n := he.symm
    · calc (n : ℚ) = (n * m : ℤ) * 2 ^ f.step n := he
        _ ≤ f.rounded n := le_rounded he.ge

/-- Rounding does not cross an integer of few enough digits. -/
theorem rounded_le_natCast {n : ℕ} (hn : n < 2 ^ f.precision) (hq : 0 ≤ q) (h : q ≤ n) :
    f.rounded q ≤ n := by
  obtain rfl | hpos := hq.eq_or_lt
  · rw [rounded_zero]
    exact h
  · have hlog : Int.log 2 q < f.precision := by
      rw [← Int.lt_zpow_iff_log_lt (by norm_num) hpos]
      exact h.trans_lt (by exact_mod_cast hn)
    have hstep : f.step q ≤ 0 := max_le (by omega) f.fractional
    obtain ⟨m, hm⟩ := steps_of_le hstep
    have he : (n : ℚ) = (n * m : ℤ) * 2 ^ f.step q := by
      push_cast
      rw [mul_assoc, ← hm, zpow_zero, mul_one]
    rw [he]
    exact rounded_le (h.trans_eq he)

theorem rounded_nonneg (hq : 0 ≤ q) : 0 ≤ f.rounded q := by
  have h : ((0 : ℤ) : ℚ) * 2 ^ f.step q ≤ f.rounded q := le_rounded (by simpa using hq)
  simpa using h

theorem value_round {n : ℕ} (hn : n < 2 ^ f.precision) (hq : 0 ≤ q) (h : q ≤ n) :
    (f.round q).value = f.rounded q := by
  have hle : f.rounded q ≤ n := rounded_le_natCast hn hq h
  have hlt : (n : ℚ) < 2 ^ f.overflow := by
    have hpow : (2 : ℚ) ^ (f.precision : ℤ) ≤ 2 ^ f.overflow :=
      zpow_le_zpow_right₀ (by norm_num) f.wide.le
    refine lt_of_lt_of_le ?_ hpow
    exact_mod_cast hn
  rw [round, abs_of_nonneg hq, if_neg (by linarith), if_neg (by linarith)]
  rfl

theorem pow_le_rounded {k : ℤ} (hk : 0 ≤ k) (h : 2 ^ k ≤ q) : 2 ^ k ≤ f.rounded q := by
  have hq : 0 < q := lt_of_lt_of_le (zpow_pos (by norm_num) _) h
  have hp := f.significant
  by_cases hs : f.step q ≤ k
  · obtain ⟨m, hm⟩ := steps_of_le hs
    rw [hm] at h ⊢
    exact le_rounded h
  · have hl : f.step q ≤ Int.log 2 q := by
      have hf := f.fractional
      unfold step at hs ⊢
      omega
    have hone : ((1 : ℤ) : ℚ) * 2 ^ f.step q ≤ q := by
      rw [Int.cast_one, one_mul]
      exact (zpow_le_zpow_right₀ (by norm_num) hl).trans
        (by exact_mod_cast Int.zpow_log_le_self (by norm_num) hq)
    calc (2 : ℚ) ^ k ≤ 2 ^ f.step q := zpow_le_zpow_right₀ (by norm_num) (by omega)
      _ = ((1 : ℤ) : ℚ) * 2 ^ f.step q := by rw [Int.cast_one, one_mul]
      _ ≤ f.rounded q := le_rounded hone

theorem rounded_le_pow {k : ℤ} (hk : 0 ≤ k) (hq : 0 < q) (h : q ≤ 2 ^ k) : f.rounded q ≤ 2 ^ k := by
  have hlog : Int.log 2 q ≤ k := by
    have hlt : q < 2 ^ (k + 1) := lt_of_le_of_lt h (zpow_lt_zpow_right₀ (by norm_num) (by omega))
    have hlog : Int.log 2 q < k + 1 := by
      rw [← Int.lt_zpow_iff_log_lt (by norm_num) hq]
      exact_mod_cast hlt
    exact Int.lt_add_one_iff.mp hlog
  have hstep : f.step q ≤ k := by
    have hp := f.significant
    have hf := f.fractional
    unfold step
    omega
  obtain ⟨m, hm⟩ := steps_of_le hstep
  rw [hm] at h ⊢
  exact rounded_le h

theorem pow_log_le_rounded (hq : 0 < q) (hs : f.step q ≤ Int.log 2 q) :
    2 ^ Int.log 2 q ≤ f.rounded q := by
  have hle : (2 : ℚ) ^ Int.log 2 q ≤ q := by
    exact_mod_cast Int.zpow_log_le_self (by norm_num) hq
  obtain ⟨m, hm⟩ := steps_of_le hs
  rw [hm] at hle ⊢
  exact le_rounded hle

theorem roundEven_step_le (f : Format) (q : ℚ) : roundEven (q / 2 ^ f.step q) ≤ 2 ^ f.precision := by
  have hpos : (0 : ℚ) < 2 ^ f.step q := zpow_pos (by norm_num) _
  apply roundEven_le
  rw [div_le_iff₀ hpos]
  push_cast
  rw [← zpow_natCast, ← zpow_add₀ (by norm_num)]
  have hlog : q < (2 : ℚ) ^ (Int.log 2 q + 1) := by
    exact_mod_cast Int.lt_zpow_succ_log_self (b := 2) (by norm_num) q
  refine hlog.le.trans (zpow_le_zpow_right₀ (by norm_num) ?_)
  unfold step
  omega

/-- Rounding does not cross a rounded number. -/
theorem rounded_le_rounded {p : ℚ} (hq : 0 ≤ q) (h : f.rounded p ≤ q) :
    f.rounded p ≤ f.rounded q := by
  have hprec := f.significant
  obtain rfl | hq := hq.eq_or_lt
  · rwa [rounded_zero]
  by_cases hs : f.step q ≤ f.step p
  · obtain ⟨m, hm⟩ := steps_of_le hs
    have he : f.rounded p = (roundEven (p / 2 ^ f.step p) * m : ℤ) * 2 ^ f.step q := by
      rw [rounded, hm]
      push_cast
      ring
    rw [he] at h ⊢
    exact le_rounded h
  · have hstep : f.step q = Int.log 2 q + 1 - f.precision := by
      unfold step at hs ⊢
      omega
    have hpos : (0 : ℚ) < 2 ^ f.step p := zpow_pos (by norm_num) _
    have hsignificand : (roundEven (p / 2 ^ f.step p) : ℚ) ≤ 2 ^ (f.precision : ℤ) := by
      exact_mod_cast roundEven_step_le f p
    calc f.rounded p ≤ 2 ^ (f.precision : ℤ) * 2 ^ f.step p :=
          mul_le_mul_of_nonneg_right hsignificand hpos.le
      _ = 2 ^ (f.precision + f.step p) := (zpow_add₀ (by norm_num) _ _).symm
      _ ≤ 2 ^ Int.log 2 q := zpow_le_zpow_right₀ (by norm_num) (by omega)
      _ ≤ f.rounded q := pow_log_le_rounded hq (by omega)

theorem overflow_eq (f : Format) : (2 : ℚ) ^ f.overflow =
    ((2 ^ f.precision : ℤ) : ℚ) * 2 ^ (f.overflow - f.precision) := by
  push_cast
  rw [← zpow_natCast, ← zpow_add₀ (by norm_num)]
  congr 1
  omega

/-- Half a step below the power of two behind the last number. -/
theorem overflow_sub_half (f : Format) :
    (2 : ℚ) ^ f.overflow - 2 ^ (f.overflow - f.precision - 1) =
      (((2 ^ f.precision : ℤ) : ℚ) - 1 / 2) * 2 ^ (f.overflow - f.precision) := by
  rw [overflow_eq, zpow_sub_one₀ (by norm_num)]
  ring

theorem step_last (hl : Int.log 2 q = f.overflow - 1) : f.step q = f.overflow - f.precision := by
  have hw := f.wide
  have hlow := f.fractional
  rw [step, hl]
  omega

theorem log_lt_overflow (hq : 0 < q) (h : q < 2 ^ f.overflow) : Int.log 2 q < f.overflow := by
  rw [← Int.lt_zpow_iff_log_lt (by norm_num) hq]
  exact_mod_cast h

/-- What is as near to the power of two as to the last number goes to the power of two, the even
neighbour. -/
theorem overflow_le_rounded (h : 2 ^ f.overflow - 2 ^ (f.overflow - f.precision - 1) ≤ q) :
    2 ^ f.overflow ≤ f.rounded q := by
  have hp := f.significant
  have hw := f.wide
  have hlow := f.fractional
  by_cases hle : (2 : ℚ) ^ f.overflow ≤ q
  · exact pow_le_rounded (by omega) hle
  · have hpos : (0 : ℚ) < 2 ^ (f.overflow - 1) := zpow_pos (by norm_num) _
    have htwice : (2 : ℚ) ^ f.overflow = 2 * 2 ^ (f.overflow - 1) := by
      rw [zpow_sub_one₀ (by norm_num)]
      ring
    have hsmall : (2 : ℚ) ^ (f.overflow - f.precision - 1) ≤ 2 ^ (f.overflow - 1) :=
      zpow_le_zpow_right₀ (by norm_num) (by omega)
    have hq : 0 < q := by linarith
    have hlt := log_lt_overflow hq (not_le.mp hle)
    have hge : f.overflow - 1 ≤ Int.log 2 q := by
      rw [← Int.zpow_le_iff_le_log (by norm_num) hq]
      push_cast
      linarith
    have hstep : f.step q = f.overflow - f.precision := step_last (by omega)
    have heven : (2 ^ f.precision : ℤ) % 2 = 0 := by
      obtain ⟨k, hk⟩ := Nat.exists_eq_succ_of_ne_zero hp.ne'
      rw [hk, pow_succ]
      omega
    have hround := even_le_rounded (f := f) (q := q) heven
      (by rw [hstep, ← overflow_sub_half]; exact h)
    rwa [hstep, ← overflow_eq] at hround

theorem rounded_lt_of_lt (hq : 0 < q)
    (h : q < 2 ^ f.overflow - 2 ^ (f.overflow - f.precision - 1)) :
    f.rounded q < 2 ^ f.overflow := by
  have hw := f.wide
  have hlow := f.fractional
  have hsub : (0 : ℚ) < 2 ^ (f.overflow - f.precision - 1) := zpow_pos (by norm_num) _
  have hlt := log_lt_overflow hq (by linarith)
  by_cases hl : Int.log 2 q = f.overflow - 1
  · have hround := rounded_lt (f := f) (q := q) (k := 2 ^ f.precision)
      (by rw [step_last hl, ← overflow_sub_half]; exact h)
    rwa [step_last hl, ← overflow_eq] at hround
  · have hq1 : q ≤ 2 ^ (f.overflow - 1) := by
      have hlog := Int.lt_zpow_succ_log_self (b := 2) (by norm_num) q
      have hpow : (2 : ℚ) ^ (Int.log 2 q + 1) ≤ 2 ^ (f.overflow - 1) :=
        zpow_le_zpow_right₀ (by norm_num) (by omega)
      exact (lt_of_lt_of_le (by exact_mod_cast hlog) hpow).le
    have hhalf : (2 : ℚ) ^ (f.overflow - 1) < 2 ^ f.overflow :=
      zpow_lt_zpow_right₀ (by norm_num) (by omega)
    exact (rounded_le_pow (by omega) hq hq1).trans_lt hhalf

/-- The largest magnitudes that are not yet too large are those nearer to the last number than to
the power of two behind it. -/
theorem rounded_lt_overflow (hq : 0 ≤ q) : f.rounded q < 2 ^ f.overflow ↔
    q < 2 ^ f.overflow - 2 ^ (f.overflow - f.precision - 1) := by
  constructor
  · intro h
    by_contra hge
    exact not_le.mpr h (overflow_le_rounded (not_lt.mp hge))
  · intro h
    obtain rfl | hq' := hq.eq_or_lt
    · rw [rounded_zero]
      exact zpow_pos (by norm_num) _
    · exact rounded_lt_of_lt hq' h

/-- A natural number is rounded to one, and stays on its side of the integers that are all numbers
of the format. -/
theorem rounded_natCast (f : Format) (n : ℕ) : ∃ m : ℕ, f.rounded n = m ∧
    (n < 2 ^ f.precision → m = n) ∧ (2 ^ f.precision ≤ n → 2 ^ f.precision ≤ m) := by
  by_cases hn : n < 2 ^ f.precision
  · exact ⟨n, rounded_of_lt hn, fun _ => rfl, fun h => absurd h (not_le.mpr hn)⟩
  · have hle : (2 : ℚ) ^ (f.precision : ℤ) ≤ n := by exact_mod_cast not_lt.mp hn
    have hpos : (0 : ℚ) < n := lt_of_lt_of_le (zpow_pos (by norm_num) _) hle
    have hlog : (f.precision : ℤ) ≤ Int.log 2 (n : ℚ) := by
      rw [← Int.zpow_le_iff_le_log (by norm_num) hpos]
      exact_mod_cast hle
    have hstep : 0 ≤ f.step n := by
      unfold step
      omega
    obtain ⟨d, hd⟩ := Int.eq_ofNat_of_zero_le hstep
    have hround : f.rounded n = ((roundEven (n / 2 ^ f.step n) * 2 ^ d : ℤ) : ℚ) := by
      rw [rounded, hd]
      push_cast
      rw [zpow_natCast]
    have hlarge : (2 : ℚ) ^ (f.precision : ℤ) ≤ f.rounded n := pow_le_rounded (by omega) hle
    have hint : (2 : ℤ) ^ f.precision ≤ roundEven (n / 2 ^ f.step n) * 2 ^ d := by
      rw [hround] at hlarge
      exact_mod_cast hlarge
    obtain ⟨m, hm⟩ := Int.eq_ofNat_of_zero_le
      (le_trans (pow_nonneg (by norm_num) f.precision) hint)
    refine ⟨m, by rw [hround, hm]; rfl, fun h => absurd h hn, fun _ => ?_⟩
    rw [hm] at hint
    exact_mod_cast hint

inductive RoundsTo (f : Format) (n : ℤ) : Number → Prop
  | exact : |n| < 2 ^ f.precision → RoundsTo f n (.finite n)
  | large {m : ℤ} : 2 ^ f.precision ≤ n → 2 ^ f.precision ≤ m → RoundsTo f n (.finite m)
  | small {m : ℤ} : n ≤ -2 ^ f.precision → m ≤ -2 ^ f.precision → RoundsTo f n (.finite m)
  | tooLarge : 2 ^ f.precision ≤ n → RoundsTo f n (.infinite false)
  | tooSmall : n ≤ -2 ^ f.precision → RoundsTo f n (.infinite true)

theorem round_intCast (f : Format) (n : ℤ) : RoundsTo f n (f.round n) := by
  have hw : (2 : ℚ) ^ (f.precision : ℤ) ≤ 2 ^ f.overflow :=
    zpow_le_zpow_right₀ (by norm_num) f.wide.le
  obtain ⟨m, hm, hexact, hlarge⟩ := rounded_natCast f n.natAbs
  have habs : |(n : ℚ)| = (n.natAbs : ℕ) := by rw [Nat.cast_natAbs, Int.cast_abs]
  have hsize : ((n.natAbs : ℕ) : ℤ) = |n| := by rw [Int.natCast_natAbs]
  rw [round, habs, hm]
  by_cases hn : n.natAbs < 2 ^ f.precision
  · have hlt : |n| < 2 ^ f.precision := by
      rw [← hsize]
      exact_mod_cast hn
    have hover : ¬ (2 : ℚ) ^ f.overflow ≤ m := by
      rw [hexact hn, not_le]
      exact lt_of_lt_of_le (by exact_mod_cast hn) hw
    rw [if_neg hover, hexact hn]
    by_cases hneg : (n : ℚ) < 0
    · have hneg' : n < 0 := by exact_mod_cast hneg
      have hne : ¬ ((n.natAbs : ℕ) : ℚ) = 0 := by
        rw [Nat.cast_eq_zero]
        omega
      have hval : -((n.natAbs : ℕ) : ℚ) = n := by
        rw [← habs, abs_of_neg hneg]
        ring
      rw [if_pos hneg, if_neg hne, hval]
      exact .exact hlt
    · have hval : ((n.natAbs : ℕ) : ℚ) = n := by rw [← habs, abs_of_nonneg (not_lt.mp hneg)]
      rw [if_neg hneg, hval]
      exact .exact hlt
  · have hm' : (2 : ℤ) ^ f.precision ≤ m := by exact_mod_cast hlarge (not_lt.mp hn)
    have hn' : (2 : ℤ) ^ f.precision ≤ |n| := by
      rw [← hsize]
      exact_mod_cast not_lt.mp hn
    by_cases hneg : (n : ℚ) < 0
    · have hneg' : n < 0 := by exact_mod_cast hneg
      rw [abs_of_neg hneg'] at hn'
      have hp : (0 : ℤ) < 2 ^ f.precision := pow_pos (by norm_num) _
      have hne : ¬ (m : ℚ) = 0 := by
        rw [Nat.cast_eq_zero]
        omega
      have hval : -(m : ℚ) = ((-m : ℤ) : ℚ) := by push_cast; rfl
      rw [if_pos hneg, if_neg hne, decide_eq_true hneg, hval]
      split
      · exact .tooSmall (by omega)
      · exact .small (by omega) (by omega)
    · have hpos : 0 ≤ n := by exact_mod_cast not_lt.mp hneg
      rw [abs_of_nonneg hpos] at hn'
      rw [if_neg hneg, decide_eq_false hneg]
      split
      · exact .tooLarge hn'
      · exact .large hn' hm'

theorem round_zero (f : Format) : f.round 0 = .finite 0 := by
  have hpos : ¬ (2 : ℚ) ^ f.overflow ≤ 0 := not_le.mpr (zpow_pos (by norm_num) _)
  rw [round, abs_zero, rounded_zero, if_neg hpos, if_neg (lt_irrefl _)]

theorem ofInt_eq_none : f.ofInt n = none ↔
    (2 : ℚ) ^ f.overflow - 2 ^ (f.overflow - f.precision - 1) ≤ |(n : ℚ)| := by
  rw [← not_lt, ← rounded_lt_overflow (abs_nonneg _), not_lt, ofInt, round]
  by_cases h : (2 : ℚ) ^ f.overflow ≤ f.rounded |(n : ℚ)|
  · simp [h]
  · simp only [h, if_false]
    split_ifs <;> simp

theorem ofInt_eq_some {x : Number} (h : f.ofInt n = some x) : ∃ m : ℤ, x = .finite m ∧
    (|n| < 2 ^ f.precision ∧ m = n ∨ 2 ^ f.precision ≤ n ∧ 2 ^ f.precision ≤ m ∨
      n ≤ -2 ^ f.precision ∧ m ≤ -2 ^ f.precision) := by
  have hr := round_intCast f n
  rw [ofInt] at h
  generalize f.round n = y at h hr
  cases hr with
  | exact hn =>
    cases h
    exact ⟨n, rfl, .inl ⟨hn, rfl⟩⟩
  | large hn hm =>
    cases h
    exact ⟨_, rfl, .inr (.inl ⟨hn, hm⟩)⟩
  | small hn hm =>
    cases h
    exact ⟨_, rfl, .inr (.inr ⟨hn, hm⟩)⟩
  | tooLarge => cases h
  | tooSmall => cases h

end Format

namespace Number

variable {f : Format}

/-- A number of the format that is no larger than a magnitude is no larger than what it is rounded
to. -/
theorem le_round {p q : ℚ} (hq : 0 ≤ q) (h : f.rounded p ≤ q) :
    le (.finite (f.rounded p)) (f.round q) = true := by
  have hle := Format.rounded_le_rounded hq h
  rw [Format.round, abs_of_nonneg hq, if_neg (not_lt.mpr hq), decide_eq_false (not_lt.mpr hq)]
  split
  · rfl
  · exact decide_eq_true hle

theorem sub_intCast (f : Format) (a b : ℤ) :
    sub f (.finite a) (.finite b) = f.round (a - b : ℤ) := by
  have hsub : sub f (.finite a) (.finite b) =
      if (a : ℚ) = b then .finite 0 else f.round ((a : ℚ) - b) := by
    simp [sub, value]
  rw [hsub]
  by_cases h : (a : ℚ) = b
  · have hab : a - b = 0 := sub_eq_zero.mpr (by exact_mod_cast h)
    rw [if_pos h, hab, Int.cast_zero, Format.round_zero]
  · rw [if_neg h]
    push_cast
    rfl

/-- Rounding an integer does not change on which side of a threshold it lies. -/
theorem round_le_zero (f : Format) (n : ℤ) : le (f.round n) (.finite 0) = true ↔ n ≤ 0 := by
  have hp : (0 : ℤ) < 2 ^ f.precision := pow_pos (by norm_num) _
  have hr := Format.round_intCast f n
  generalize f.round n = x at hr
  cases hr with
  | exact => simp [le, value]
  | large hn hm =>
    have hm' : ¬ (_ : ℤ) ≤ 0 := not_le.mpr (lt_of_lt_of_le hp hm)
    have hn' : ¬ n ≤ 0 := not_le.mpr (lt_of_lt_of_le hp hn)
    simp [le, value, hn', not_le.mp hm']
  | small hn hm =>
    have hm' : (_ : ℤ) ≤ 0 := hm.trans (by omega)
    have hn' : n ≤ 0 := by omega
    simp [le, value, hn', hm']
  | tooLarge hn =>
    have hn' : ¬ n ≤ 0 := not_le.mpr (lt_of_lt_of_le hp hn)
    simp [le, hn']
  | tooSmall hn =>
    have hn' : n ≤ 0 := by omega
    simp [le, hn']

theorem lt_round {c : ℚ} (hc : 0 ≤ c) (hlt : c < 2 ^ f.precision) (n : ℤ) :
    lt (.finite c) (f.round n) = true ↔ c < n := by
  have hp : (0 : ℤ) < 2 ^ f.precision := pow_pos (by norm_num) _
  have above : ∀ m : ℤ, 2 ^ f.precision ≤ m → c < m := by
    intro m hm
    exact lt_of_lt_of_le hlt (by exact_mod_cast hm)
  have below : ∀ m : ℤ, m ≤ -2 ^ f.precision → ¬ c < m := by
    intro m hm
    have hneg : (m : ℚ) ≤ 0 := by exact_mod_cast hm.trans (by omega)
    exact not_lt.mpr (hneg.trans hc)
  have hr := Format.round_intCast f n
  generalize f.round n = x at hr
  cases hr with
  | exact => exact decide_eq_true_iff
  | large hn hm => simp [lt, value, above _ hn, above _ hm]
  | small hn hm =>
    have hn' := below _ hn
    have hm' := below _ hm
    simp [lt, value, hn', hm']
  | tooLarge hn => simp [lt, above _ hn]
  | tooSmall hn =>
    have hn' := below _ hn
    simp [lt, hn']

end Number

end BetterAuthBridge.Library.Floats
