import Mathlib.Data.Prod.Basic

namespace BetterAuthBridge.Library.Procedure

variable {ε σ α β : Type}

/-- A section of code that reads and writes a state and may raise; what it wrote before raising
stays written. -/
abbrev Proc (ε σ α : Type) := ExceptT ε (StateM σ) α

def exec (p : Proc ε σ α) (s : σ) : Except ε α × σ := StateT.run (ExceptT.run p) s

def check (x : Except ε α) : Proc ε σ α := ExceptT.mk (pure x)

@[simp] theorem exec_pure (a : α) (s : σ) : exec (pure a : Proc ε σ α) s = (.ok a, s) := rfl

@[simp] theorem exec_throw (e : ε) (s : σ) : exec (throw e : Proc ε σ α) s = (.error e, s) := rfl

@[simp] theorem exec_check (x : Except ε α) (s : σ) : exec (check x : Proc ε σ α) s = (x, s) := rfl

@[simp] theorem exec_modify (f : σ → σ) (s : σ) :
    exec (modify f : Proc ε σ PUnit) s = (.ok ⟨⟩, f s) := rfl

theorem exec_bind (p : Proc ε σ α) (f : α → Proc ε σ β) (s : σ) :
    exec (p >>= f) s =
      match exec p s with
      | (.ok a, t) => exec (f a) t
      | (.error e, t) => (.error e, t) := by
  cases h : exec p s with
  | mk r t =>
    have hp : StateT.run (ExceptT.run p) s = (r, t) := h
    cases r with
    | ok a =>
      change StateT.run (ExceptT.run p >>= ExceptT.bindCont f) s = _
      rw [StateT.run_bind, hp]
      rfl
    | error e =>
      change StateT.run (ExceptT.run p >>= ExceptT.bindCont f) s = _
      rw [StateT.run_bind, hp]
      rfl

theorem exec_bind_fst_ok {p : Proc ε σ α} {f : α → Proc ε σ β} {s : σ} {b : β} :
    (exec (p >>= f) s).1 = .ok b ↔
      ∃ a, (exec p s).1 = .ok a ∧ (exec (f a) (exec p s).2).1 = .ok b := by
  rw [exec_bind]
  split
  · rename_i a v hp
    simp [hp]
  · rename_i e v hp
    simp [hp]

theorem exec_check_bind (x : Except ε α) (f : α → Proc ε σ β) (s : σ) :
    exec (check x >>= f) s =
      match x with
      | .ok a => exec (f a) s
      | .error e => (.error e, s) := by
  rw [exec_bind, exec_check]
  cases x <;> rfl

end BetterAuthBridge.Library.Procedure
