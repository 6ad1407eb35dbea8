import BetterAuthBridge.Library.SingleFlight
import BetterAuthBridge.Library.Tasks

namespace BetterAuthBridge.Library.Throttle

open Runs Tasks SingleFlight

variable {ι σ π ε δ φ τ : Type*}

/-- What one section of a task may do to the stamp of the last attempt and to its own attempt.
A task in the middle of an attempt remembers the stamp it found. -/
inductive Turned [AddCommGroup τ] [LinearOrder τ] (interval now : τ) :
    Option τ → Option (Option τ) → List Kind → Option τ → Option (Option τ) → Prop
  | quiet {l f} : Turned interval now l f [] l f
  | start {l} : May interval now l → Turned interval now l none [.start] (some now) (some l)
  | settle {l prev} : Turned interval now l (some prev) [.settle] l none
  | cancel {l prev} : Turned interval now l (some prev) [.cancel] prev none

/-- How to read the guarded attempts off tasks: the clock and the stamp in the shared state, the
stamp a task found when it began the attempt it is in, and the effects that mark attempts. -/
structure Reading (σ π φ τ : Type*) where
  clock : σ → τ
  last : σ → Option τ
  since : π → Option (Option τ)
  kind : φ → Option Kind

namespace Reading

variable (r : Reading σ π φ τ)

def marks (x : Transition (World ι σ π) (Happening ι ε δ) φ) : List (τ × Mark ι) :=
  match x.event with
  | .act i _ => (x.effects.filterMap r.kind).map fun k => (r.clock x.before.shared, k.mark i)
  | .drift _ => []

def Marks (i : ι) (k : Kind) (x : Transition (World ι σ π) (Happening ι ε δ) φ) : Prop :=
  ∃ f, Did i f x ∧ r.kind f = some k

structure Agrees [LE τ] (w : World ι σ π) (g : Gate ι τ) : Prop where
  now : g.now ≤ r.clock w.shared
  last : g.last = r.last w.shared
  flight : ∀ i prev, g.flight = some (i, prev) ↔ r.since (w.phase i) = some prev

variable {r} {interval : τ} {p : Program ι σ π ε δ φ}

theorem mem_marks {x : Transition (World ι σ π) (Happening ι ε δ) φ} {i : ι} {k : Kind}
    (h : r.Marks i k x) : (r.clock x.before.shared, k.mark i) ∈ r.marks x := by
  obtain ⟨f, ⟨⟨e, he⟩, hf⟩, hk⟩ := h
  rw [marks, he]
  exact List.mem_map.mpr ⟨k, List.mem_filterMap.mpr ⟨f, hf, hk⟩, rfl⟩

theorem marks_of_mem {x : Transition (World ι σ π) (Happening ι ε δ) φ} {i : ι} {c : τ}
    (h : (c, .cancel i) ∈ r.marks x) : r.Marks i .cancel x := by
  obtain ⟨w, e | e, fs, u⟩ := x
  · obtain ⟨k, hk, he⟩ := List.mem_map.mp h
    obtain ⟨f, hf, hkf⟩ := List.mem_filterMap.mp hk
    cases k <;> cases he
    exact ⟨f, ⟨⟨_, rfl⟩, hf⟩, hkf⟩
  · cases h

variable [DecidableEq ι] [AddCommGroup τ] [LinearOrder τ]

omit [AddCommGroup τ] in
/-- After a section of task `i`, its place says whether it attempts, and the gate still speaks for
the others. -/
theorem Agrees.since_update {w : World ι σ π} {g : Gate ι τ} (h : r.Agrees w g) {i j : ι} {q : π}
    {prev : Option τ} : r.since (Function.update w.phase i q j) = some prev ↔
      j = i ∧ r.since q = some prev ∨ j ≠ i ∧ g.flight = some (j, prev) := by
  by_cases hj : j = i
  · subst hj
    simp
  · simp [hj, h.flight]

omit [AddCommGroup τ] in
/-- When the attempt in flight ends, nobody attempts. -/
theorem Agrees.landed {w : World ι σ π} {g : Gate ι τ} (h : r.Agrees w g) {i : ι} {q : π}
    {prev : Option τ} (hf : g.flight = some (i, prev)) (hq : r.since q = none) (j : ι)
    (prev' : Option τ) :
    none = some (j, prev') ↔ r.since (Function.update w.phase i q j) = some prev' := by
  rw [h.since_update, hq, hf]
  simp +contextual [eq_comm]

/-- A section that treats stamp and attempt as it may is a step of the gate, or none. -/
theorem Agrees.act {w : World ι σ π} {g : Gate ι τ} (h : r.Agrees w g) {i : ι} {q : π} {s' : σ}
    {ks : List Kind} (hc : r.clock s' = r.clock w.shared)
    (ht : Turned interval (r.clock w.shared) (r.last w.shared) (r.since (w.phase i)) ks (r.last s')
      (r.since q))
    (hone : ∀ j k, (r.since (Function.update w.phase i q j)).isSome →
      (r.since (Function.update w.phase i q k)).isSome → j = k) :
    ∃ tr' g', Run (SingleFlight.step interval) g tr' g' ∧
      r.Agrees ⟨s', Function.update w.phase i q⟩ g' ∧
      tr'.map (·.event) = ks.map fun k => (r.clock w.shared, k.mark i) := by
  have hnow : g.now ≤ r.clock s' := hc ▸ h.now
  generalize hl : r.last w.shared = l at ht
  generalize hp : r.since (w.phase i) = f at ht
  generalize hl' : r.last s' = l' at ht
  generalize hq : r.since q = f' at ht
  cases ht with
  | quiet =>
    refine ⟨[], g, Run.nil, ⟨hnow, by rw [h.last, hl, hl'], fun j prev => ?_⟩, rfl⟩
    rw [h.since_update, hq, ← hp]
    by_cases hj : j = i
    · subst hj
      simp [h.flight]
    · simp [hj]
  | start hm =>
    have hself : (r.since (Function.update w.phase i q i)).isSome := by simp [hq]
    have hf : g.flight = none := by
      refine Option.eq_none_iff_forall_ne_some.mpr fun ⟨j, prev⟩ hj => ?_
      have hs := (h.flight j prev).mp hj
      by_cases hji : j = i
      · subst hji
        cases hp.symm.trans hs
      · exact hji (hone j i (by simp [Function.update_of_ne hji, hs]) hself)
    have hmay : May interval (r.clock w.shared) g.last := by rwa [h.last, hl]
    refine ⟨_, _, Run.single (step_start h.now hf hmay), ⟨hc.ge, hl'.symm, fun j prev => ?_⟩, rfl⟩
    rw [h.since_update, hq, hf, h.last, hl]
    simp [eq_comm]
  | settle =>
    have hf := (h.flight i _).mpr hp
    refine ⟨_, _, Run.single (step_settle h.now hf), ⟨hc.ge, ?_, h.landed hf hq⟩, rfl⟩
    exact h.last.trans (hl.trans hl'.symm)
  | cancel =>
    have hf := (h.flight i _).mpr hp
    exact ⟨_, _, Run.single (step_cancel h.now hf), ⟨hc.ge, hl'.symm, h.landed hf hq⟩, rfl⟩

/-- Tasks that treat stamp and attempts as they may start their attempts at least the interval
apart, those aside that are cancelled. -/
theorem spaced [IsOrderedAddMonoid τ] {s t : World ι σ π} {tr : Trace ι σ π ε δ φ}
    (h : Run p.machine s tr t) (hl : r.last s.shared = none) (hs : ∀ i, r.since (s.phase i) = none)
    (hact : ∀ tr w i e s' q fs, Run p.machine s tr w →
      p.act i e w.shared (w.phase i) = some (s', q, fs) →
      r.clock s' = r.clock w.shared ∧ Turned interval (r.clock w.shared) (r.last w.shared)
        (r.since (w.phase i)) (fs.filterMap r.kind) (r.last s') (r.since q))
    (hdrift : ∀ d s s', p.drift d s = some s' → r.clock s ≤ r.clock s' ∧ r.last s' = r.last s)
    (hone : ∀ tr w i j, Run p.machine s tr w → (r.since (w.phase i)).isSome →
      (r.since (w.phase j)).isSome → i = j) :
    tr.Pairwise fun x y => ∀ i j, r.Marks i .start x → r.Marks j .start y →
      (∀ z ∈ tr, ¬ r.Marks i .cancel z) → (∀ z ∈ tr, ¬ r.Marks j .cancel z) →
      r.clock x.before.shared + interval ≤ r.clock y.before.shared := by
  obtain ⟨tr', g, hr, -, he⟩ := h.simulate (n := SingleFlight.step interval) r.Agrees
    r.marks (g := ⟨r.clock s.shared, none, none⟩)
    ⟨le_rfl, hl.symm, fun i prev => by simp [hs i]⟩ <| by
    rintro tr w (⟨i, e⟩ | d) u fs g hr hg hu
    · obtain ⟨s', q, ha, rfl⟩ := Program.machine_act.mp hu
      obtain ⟨hc, ht⟩ := hact tr w i e s' q fs hr ha
      exact hg.act hc ht fun j k => hone _ _ j k (hr.snoc hu)
    · obtain ⟨s', hd, rfl, rfl⟩ := Program.machine_drift.mp hu
      obtain ⟨hc, hlast⟩ := hdrift d _ _ hd
      exact ⟨[], g, Run.nil, ⟨hg.now.trans hc, hg.last.trans hlast.symm, hg.flight⟩, rfl⟩
  have hsp := SingleFlight.spaced hr
  rw [he] at hsp
  refine hsp.steps.imp ?_
  intro x y hxy i j hx hy hi hj
  exact hxy i _ j _ (mem_marks hx) (mem_marks hy) (fun z hz c hm => hi z hz (marks_of_mem hm))
    (fun z hz c hm => hj z hz (marks_of_mem hm))

end Reading

end BetterAuthBridge.Library.Throttle
