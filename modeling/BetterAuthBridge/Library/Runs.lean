import Mathlib.Data.List.Induction
import Mathlib.Logic.Function.Basic

namespace BetterAuthBridge.Library.Runs

variable {σ ε φ γ δ ψ : Type*}

/-- One step as it was taken: where it started, what happened, what it did to the outside
world, and where it ended. -/
structure Transition (σ ε φ : Type*) where
  before : σ
  event : ε
  effects : List φ
  after : σ

/-- The environment picks an event; the machine refuses it or answers with its next state and
the effects of the step. -/
abbrev Machine (σ ε φ : Type*) := σ → ε → Option (σ × List φ)

inductive Run (m : Machine σ ε φ) (s : σ) : List (Transition σ ε φ) → σ → Prop
  | nil : Run m s [] s
  | snoc {tr t e u fs} : Run m s tr t → m t e = some (u, fs) → Run m s (tr ++ [⟨t, e, fs, u⟩]) u

variable {m : Machine σ ε φ} {s t u : σ} {tr tr' : List (Transition σ ε φ)}

/-- What holds at the start and is kept by every step holds along every run. The trace so far is
part of the invariant. -/
theorem Run.invariant {I : List (Transition σ ε φ) → σ → Prop} (h : Run m s tr t) (hs : I [] s)
    (hstep : ∀ tr t e u fs, Run m s tr t → I tr t → m t e = some (u, fs) →
      I (tr ++ [⟨t, e, fs, u⟩]) u) : I tr t := by
  induction h with
  | nil => exact hs
  | snoc hr he ih => exact hstep _ _ _ _ _ hr ih he

theorem Run.preserved {P : σ → Prop} (h : Run m s tr t)
    (hstep : ∀ t e u fs, P t → m t e = some (u, fs) → P u) (hs : P s) : P t :=
  h.invariant (I := fun _ t => P t) hs fun _ _ _ _ _ _ hp he => hstep _ _ _ _ hp he

theorem Run.append (h : Run m s tr t) (h' : Run m t tr' u) : Run m s (tr ++ tr') u := by
  induction h' with
  | nil => simpa using h
  | snoc _ he ih => simpa only [List.append_assoc] using Run.snoc ih he

theorem Run.single {e : ε} {fs : List φ} (h : m s e = some (u, fs)) :
    Run m s [⟨s, e, fs, u⟩] u := by
  have hnil : Run m s [] s := Run.nil
  exact hnil.snoc h

theorem Run.split {a b : List (Transition σ ε φ)} (h : Run m s (a ++ b) u) :
    ∃ t, Run m s a t ∧ Run m t b u := by
  induction b using List.reverseRecOn generalizing u with
  | nil => exact ⟨u, by simpa using h, Run.nil⟩
  | append_singleton b x ih =>
    rw [← List.append_assoc] at h
    generalize hl : a ++ b ++ [x] = l at h
    cases h with
    | nil => simp at hl
    | snoc hr he =>
      obtain ⟨rfl, rfl⟩ : a ++ b = _ ∧ x = _ := by simpa using List.append_inj' hl rfl
      obtain ⟨t, ha, hb⟩ := ih hr
      exact ⟨t, ha, Run.snoc hb he⟩

theorem Run.of_nil (h : Run m s [] u) : u = s := by
  generalize hl : ([] : List (Transition σ ε φ)) = l at h
  cases h with
  | nil => rfl
  | snoc => simp at hl

theorem Run.at {a b : List (Transition σ ε φ)} {x : Transition σ ε φ}
    (h : Run m s (a ++ x :: b) u) :
    Run m s a x.before ∧ m x.before x.event = some (x.after, x.effects) ∧ Run m x.after b u := by
  rw [List.append_cons] at h
  obtain ⟨t, ha, hb⟩ := h.split
  generalize hl : a ++ [x] = l at ha
  cases ha with
  | nil => simp at hl
  | snoc hr he =>
    obtain ⟨rfl, rfl⟩ : a = _ ∧ x = _ := by simpa using List.append_inj' hl rfl
    exact ⟨hr, he, hb⟩

theorem Run.last {x : Transition σ ε φ} (h : Run m s (tr ++ [x]) u) :
    Run m s tr x.before ∧ m x.before x.event = some (x.after, x.effects) ∧ u = x.after := by
  obtain ⟨hr, he, hn⟩ := h.at
  exact ⟨hr, he, hn.of_nil⟩

theorem Run.of_mem {x : Transition σ ε φ} (h : Run m s tr u) (hx : x ∈ tr) :
    ∃ a b, tr = a ++ x :: b ∧ Run m s a x.before ∧ m x.before x.event = some (x.after, x.effects) ∧
      Run m x.after b u := by
  obtain ⟨a, b, rfl⟩ := List.append_of_mem hx
  exact ⟨a, b, rfl, h.at⟩

def latest {α : Type*} (f : φ → Option α) (tr : List (Transition σ ε φ)) : Option α :=
  (tr.flatMap fun x => x.effects.filterMap f).getLast?

section

variable {α : Type*} {f : φ → Option α} {x : Transition σ ε φ}

theorem latest_snoc :
    latest f (tr ++ [x]) = ((x.effects.filterMap f).getLast?).or (latest f tr) := by
  simp [latest, List.getLast?_append]

theorem mem_of_latest {a : α} (h : latest f tr = some a) :
    ∃ x ∈ tr, ∃ e ∈ x.effects, f e = some a := by
  obtain ⟨x, hx, ha⟩ := List.mem_flatMap.mp (List.mem_of_getLast? h)
  obtain ⟨e, he, hf⟩ := List.mem_filterMap.mp ha
  exact ⟨x, hx, e, he, hf⟩

theorem latest_append (h : ∀ x ∈ tr', x.effects.filterMap f = []) :
    latest f (tr ++ tr') = latest f tr := by
  simp [latest, List.flatMap_eq_nil_iff.mpr h]

end

def replay (m : Machine σ ε φ) : σ → List ε → Option (List (Transition σ ε φ) × σ)
  | s, [] => some ([], s)
  | s, e :: es =>
    match m s e with
    | none => none
    | some (u, fs) => (replay m u es).map fun r => (⟨s, e, fs, u⟩ :: r.1, r.2)

theorem Run.of_replay {es : List ε} (h : replay m s es = some (tr, u)) : Run m s tr u := by
  induction es generalizing s tr with
  | nil =>
    simp only [replay, Option.some.injEq, Prod.mk.injEq] at h
    obtain ⟨rfl, rfl⟩ := h
    exact Run.nil
  | cons e es ih =>
    unfold replay at h
    split at h
    · cases h
    · rename_i v fs he
      obtain ⟨⟨tr', u'⟩, hr, heq⟩ := Option.map_eq_some_iff.mp h
      simp only [Prod.mk.injEq] at heq
      obtain ⟨rfl, rfl⟩ := heq
      exact (Run.single he).append (ih hr)

theorem replay_events {es : List ε} (h : replay m s es = some (tr, u)) : tr.map (·.event) = es := by
  induction es generalizing s tr with
  | nil =>
    simp only [replay, Option.some.injEq, Prod.mk.injEq] at h
    rw [← h.1]
    rfl
  | cons e es ih =>
    unfold replay at h
    split at h
    · cases h
    · obtain ⟨⟨tr', u'⟩, hr, heq⟩ := Option.map_eq_some_iff.mp h
      simp only [Prod.mk.injEq] at heq
      obtain ⟨rfl, rfl⟩ := heq
      rw [List.map_cons, ih hr]

/-- What a replay shows of the trace it takes. -/
theorem Run.of_replay_any {P : List (Transition σ ε φ) → Bool} {es : List ε}
    (h : (replay m s es).any (fun r => P r.1) = true) : ∃ tr u, Run m s tr u ∧ P tr = true := by
  cases hr : replay m s es with
  | none =>
    rw [hr] at h
    cases h
  | some r =>
    rw [hr] at h
    exact ⟨r.1, r.2, Run.of_replay hr, h⟩

theorem Run.of_replay_given {P : List (Transition σ ε φ) → Bool} {es : List ε}
    (h : (replay m s es).any (fun r => P r.1) = true) :
    ∃ tr u, Run m s tr u ∧ P tr = true ∧ ∀ x ∈ tr, x.event ∈ es := by
  cases hr : replay m s es with
  | none =>
    rw [hr] at h
    cases h
  | some r =>
    rw [hr] at h
    refine ⟨r.1, r.2, Run.of_replay hr, h, fun x hx => ?_⟩
    rw [← replay_events hr]
    exact List.mem_map_of_mem hx

theorem Run.of_replay_end {P : σ → Bool} {es : List ε}
    (h : (replay m s es).any (fun r => P r.2) = true) : ∃ tr u, Run m s tr u ∧ P u = true := by
  cases hr : replay m s es with
  | none =>
    rw [hr] at h
    cases h
  | some r =>
    rw [hr] at h
    exact ⟨r.1, r.2, Run.of_replay hr, h⟩

/-- Two runs that are shown the same: where no step tells what is hidden of states and events, runs
with the same events, as far as these are shown, end in states that show the same. -/
theorem Run.agree {σ' ε' φ' : Type*} {n : Machine σ' ε' φ'} {s' u' : σ'}
    {tr' : List (Transition σ' ε' φ')} (f : σ → γ) (f' : σ' → γ) (g : ε → δ) (g' : ε' → δ)
    (hstep : ∀ s s' e e' u u' fs fs', f s = f' s' → g e = g' e' → m s e = some (u, fs) →
      n s' e' = some (u', fs') → f u = f' u')
    (h : Run m s tr t) (h' : Run n s' tr' u') (hs : f s = f' s')
    (he : tr.map (fun x => g x.event) = tr'.map fun x => g' x.event) : f t = f' u' := by
  induction h generalizing tr' u' with
  | nil =>
    obtain rfl := List.map_eq_nil_iff.mp he.symm
    rw [h'.of_nil]
    exact hs
  | snoc hr hm ih =>
    cases h' with
    | nil => simp at he
    | snoc hr' hm' =>
      rw [List.map_append, List.map_append] at he
      obtain ⟨hprev, hlast⟩ := List.append_inj' he rfl
      exact hstep _ _ _ _ _ _ _ _ (ih hr' hprev) (by simpa using hlast) hm hm'

/-- Simulation: when every step of a reachable state is matched by a run of the abstract machine
from any related state, so is every run, and the abstract events are the projected ones. -/
theorem Run.simulate {n : Machine γ δ ψ} (Rel : σ → γ → Prop) (proj : Transition σ ε φ → List δ)
    {g : γ} (h : Run m s tr t) (hs : Rel s g)
    (hstep : ∀ tr t e u fs g, Run m s tr t → Rel t g → m t e = some (u, fs) →
      ∃ tr' g', Run n g tr' g' ∧ Rel u g' ∧ tr'.map (·.event) = proj ⟨t, e, fs, u⟩) :
    ∃ tr' g', Run n g tr' g' ∧ Rel t g' ∧ tr'.map (·.event) = tr.flatMap proj := by
  refine h.invariant (I := fun tr t => ∃ tr' g', Run n g tr' g' ∧ Rel t g' ∧
    tr'.map (·.event) = tr.flatMap proj) ⟨[], g, Run.nil, hs, rfl⟩ ?_
  intro tr t e u fs hr ih he
  obtain ⟨tr₁, g₁, h₁, hrel, e₁⟩ := ih
  obtain ⟨tr₂, g₂, h₂, hrel', e₂⟩ := hstep tr t e u fs g₁ hr hrel he
  exact ⟨tr₁ ++ tr₂, g₂, h₁.append h₂, hrel', by simp [e₁, e₂]⟩

end BetterAuthBridge.Library.Runs
