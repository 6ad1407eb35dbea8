import BetterAuthBridge.Library.Procedure

namespace BetterAuthBridge.Library.Failure

open Procedure

variable {ε α β γ : Type} {P : ε → Prop} {x y : Except ε α}

def Fails (P : ε → Prop) (x : Except ε α) : Prop := ∀ e, x = .error e → P e

theorem Fails.ok (a : α) : Fails P (.ok a) := nofun

theorem Fails.error {e : ε} (h : P e) : Fails P (.error e : Except ε α) := by
  rintro _ ⟨⟩
  exact h

theorem Fails.ite {p : Prop} [Decidable p] (hx : Fails P x) (hy : Fails P y) :
    Fails P (if p then x else y) := by
  by_cases hp : p
  · simpa only [if_pos hp] using hx
  · simpa only [if_neg hp] using hy

theorem Fails.dite {p : Prop} [Decidable p] {f : p → Except ε α} {g : ¬ p → Except ε α}
    (hf : ∀ h, Fails P (f h)) (hg : ∀ h, Fails P (g h)) : Fails P (dite p f g) := by
  by_cases hp : p
  · simpa only [dif_pos hp] using hf hp
  · simpa only [dif_neg hp] using hg hp

/-- The continuation only has to be looked at where it is reached. -/
theorem Fails.bind {f : α → Except ε β} (hx : Fails P x) (hf : ∀ a, x = .ok a → Fails P (f a)) :
    Fails P (x >>= f) := by
  cases x with
  | ok a => exact hf a rfl
  | error e => exact .error (hx e rfl)

theorem Fails.map (f : α → β) (hx : Fails P x) : Fails P (f <$> x) := by
  cases x with
  | ok a => exact .ok (f a)
  | error e => exact .error (hx e rfl)

/-- Of a section, whatever it wrote before it raised. -/
theorem Fails.exec_bind {σ : Type} {p : Proc ε σ α} {f : α → Proc ε σ β} {s : σ}
    (hp : Fails P (exec p s).1)
    (hf : ∀ a, (exec p s).1 = .ok a → ∀ t, Fails P (exec (f a) t).1) :
    Fails P (exec (p >>= f) s).1 := by
  rw [Procedure.exec_bind]
  cases h : exec p s with
  | mk r t =>
    rw [h] at hp hf
    cases r with
    | ok a => exact hf a rfl t
    | error e => exact .error (hp e rfl)

theorem Fails.foldlM {f : α → γ → Except ε α} (hf : ∀ a c, Fails P (f a c)) (l : List γ) (a : α) :
    Fails P (l.foldlM f a) := by
  induction l generalizing a with
  | nil => exact .ok a
  | cons c l ih =>
    rw [List.foldlM_cons]
    exact (hf a c).bind fun b _ => ih b

end BetterAuthBridge.Library.Failure
