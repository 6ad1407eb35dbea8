import BetterAuthBridge.Library.Runs

namespace BetterAuthBridge.Library.Tasks

open Runs

variable {ι σ π ε δ φ : Type*} [DecidableEq ι]

/-- Cooperative tasks: one state that all of them share, and where each of them stands. -/
structure World (ι σ π : Type*) where
  shared : σ
  phase : ι → π

/-- Either one task runs its next section on an answer from outside, or the surroundings move. -/
inductive Happening (ι ε δ : Type*)
  | act (i : ι) (e : ε)
  | drift (d : δ)

/-- What a task does between two suspension points, and how the shared state moves by itself. -/
structure Program (ι σ π ε δ φ : Type*) where
  act : ι → ε → σ → π → Option (σ × π × List φ)
  drift : δ → σ → Option σ

namespace Program

variable (p : Program ι σ π ε δ φ)

def machine : Machine (World ι σ π) (Happening ι ε δ) φ
  | w, .act i e => (p.act i e w.shared (w.phase i)).map fun r =>
      (⟨r.1, Function.update w.phase i r.2.1⟩, r.2.2)
  | w, .drift d => (p.drift d w.shared).map fun s => (⟨s, w.phase⟩, [])

variable {p}

theorem machine_act {w u : World ι σ π} {i : ι} {e : ε} {fs : List φ} :
    p.machine w (.act i e) = some (u, fs) ↔
      ∃ s q, p.act i e w.shared (w.phase i) = some (s, q, fs) ∧
        u = ⟨s, Function.update w.phase i q⟩ := by
  unfold machine
  constructor
  · intro h
    obtain ⟨⟨s, q, gs⟩, ha, he⟩ := Option.map_eq_some_iff.mp h
    simp only [Prod.mk.injEq] at he
    obtain ⟨rfl, rfl⟩ := he
    exact ⟨s, q, ha, rfl⟩
  · rintro ⟨s, q, ha, rfl⟩
    simp [ha]

theorem machine_drift {w u : World ι σ π} {d : δ} {fs : List φ} :
    p.machine w (.drift d) = some (u, fs) ↔
      ∃ s, p.drift d w.shared = some s ∧ u = ⟨s, w.phase⟩ ∧ fs = [] := by
  unfold machine
  constructor
  · intro h
    obtain ⟨s, ha, he⟩ := Option.map_eq_some_iff.mp h
    simp only [Prod.mk.injEq] at he
    exact ⟨s, ha, he.1.symm, he.2.symm⟩
  · rintro ⟨s, ha, rfl, rfl⟩
    simp [ha]

/-- Every step of the machine is a section of one task, or the surroundings move. -/
theorem machine_steps {w u : World ι σ π} {h : Happening ι ε δ} {fs : List φ}
    (hu : p.machine w h = some (u, fs)) :
    (∃ i e, h = .act i e ∧ p.act i e w.shared (w.phase i) = some (u.shared, u.phase i, fs) ∧
      ∀ j, j ≠ i → u.phase j = w.phase j) ∨
    ∃ d s, h = .drift d ∧ p.drift d w.shared = some s ∧ u = ⟨s, w.phase⟩ ∧ fs = [] := by
  cases h with
  | act i e =>
    obtain ⟨s, q, ha, rfl⟩ := machine_act.mp hu
    refine .inl ⟨i, e, rfl, ?_, fun j hj => Function.update_of_ne hj ..⟩
    simpa only [Function.update_self] using ha
  | drift d =>
    obtain ⟨s, hd, rfl, rfl⟩ := machine_drift.mp hu
    exact .inr ⟨d, s, rfl, hd, rfl, rfl⟩

section

variable {x : Transition (World ι σ π) (Happening ι ε δ) φ}

theorem act_of_event {i : ι} {e : ε} (hx : p.machine x.before x.event = some (x.after, x.effects))
    (he : x.event = .act i e) : p.act i e x.before.shared (x.before.phase i) =
      some (x.after.shared, x.after.phase i, x.effects) := by
  obtain ⟨_, _, hev, ha, -⟩ | ⟨_, _, hev, -⟩ := machine_steps hx
  · cases he.symm.trans hev
    exact ha
  · cases he.symm.trans hev

theorem act_of_effect {f : φ} (hx : p.machine x.before x.event = some (x.after, x.effects))
    (hf : f ∈ x.effects) : ∃ i e, x.event = .act i e ∧ p.act i e x.before.shared (x.before.phase i) =
      some (x.after.shared, x.after.phase i, x.effects) := by
  obtain ⟨i, e, hev, ha, -⟩ | ⟨_, _, -, -, -, hn⟩ := machine_steps hx
  · exact ⟨i, e, hev, ha⟩
  · rw [hn] at hf
    cases hf

end

def alone (p : Program ι σ π ε δ φ) (i : ι) : σ → π → List ε → Option (List φ)
  | _, _, [] => some []
  | s, q, e :: es =>
    match p.act i e s q with
    | none => none
    | some (s', q', fs) => (p.alone i s' q' es).map (fs ++ ·)

omit [DecidableEq ι] in
theorem alone_cons {i : ι} {s s' : σ} {q q' : π} {e : ε} {es : List ε} {fs : List φ}
    (h : p.act i e s q = some (s', q', fs)) :
    p.alone i s q (e :: es) = (p.alone i s' q' es).map (fs ++ ·) := by
  rw [alone, h]

end Program

abbrev Trace (ι σ π ε δ φ : Type*) := List (Transition (World ι σ π) (Happening ι ε δ) φ)

def Did (i : ι) (f : φ) (x : Transition (World ι σ π) (Happening ι ε δ) φ) : Prop :=
  (∃ e, x.event = .act i e) ∧ f ∈ x.effects

theorem replay_alone {p : Program ι σ π ε δ φ} {w : World ι σ π} {i : ι} {f : φ} {es : List ε} :
    (∃ tr u, replay p.machine w (es.map (.act i)) = some (tr, u) ∧ ∃ x ∈ tr, Did i f x) ↔
      ∃ fs, p.alone i w.shared (w.phase i) es = some fs ∧ f ∈ fs := by
  have key : ∀ w, (replay p.machine w (es.map (.act i))).map (fun r => r.1.flatMap (·.effects)) =
      p.alone i w.shared (w.phase i) es ∧
      ∀ r, replay p.machine w (es.map (.act i)) = some r → ∀ x ∈ r.1, ∃ e, x.event = .act i e := by
    induction es with
    | nil => exact fun w => ⟨rfl, by rintro r ⟨⟩; simp⟩
    | cons e es ih =>
      intro w
      cases ha : p.act i e w.shared (w.phase i) with
      | none => simp [replay, Program.alone, Program.machine, ha]
      | some r =>
        obtain ⟨s, q, fs⟩ := r
        have hm : p.machine w (.act i e) = some (⟨s, Function.update w.phase i q⟩, fs) :=
          Program.machine_act.mpr ⟨s, q, ha, rfl⟩
        obtain ⟨h1, h2⟩ := ih ⟨s, Function.update w.phase i q⟩
        simp only [Function.update_self] at h1
        constructor
        · simp [replay, Program.alone, hm, ha, ← h1, Function.comp_def]
        · intro r hr x hx
          simp only [List.map_cons, replay, hm, Option.map_eq_some_iff] at hr
          obtain ⟨r', hr', rfl⟩ := hr
          obtain rfl | hx := List.mem_cons.mp hx
          · exact ⟨e, rfl⟩
          · exact h2 r' hr' x hx
  obtain ⟨h1, h2⟩ := key w
  rw [← h1]
  constructor
  · rintro ⟨tr, u, hr, x, hx, -, hf⟩
    exact ⟨_, by rw [hr]; rfl, List.mem_flatMap.mpr ⟨x, hx, hf⟩⟩
  · rintro ⟨fs, hfs, hf⟩
    obtain ⟨⟨tr, u⟩, hr, rfl⟩ := Option.map_eq_some_iff.mp hfs
    obtain ⟨x, hx, hf⟩ := List.mem_flatMap.mp hf
    exact ⟨tr, u, hr, x, hx, h2 _ hr x hx, hf⟩

variable {p : Program ι σ π ε δ φ} {s t : World ι σ π} {tr : Trace ι σ π ε δ φ}

/-- Rely and guarantee. A section has to establish the shared invariant and its own assertion,
and may not disturb the assertion of another task; the surroundings disturb neither. -/
theorem rely {I : Trace ι σ π ε δ φ → σ → Prop} {A : ι → Trace ι σ π ε δ φ → σ → π → Prop}
    (h : Run p.machine s tr t) (hI : I [] s.shared) (hA : ∀ i, A i [] s.shared (s.phase i))
    (hact : ∀ tr w i e s' q fs, Run p.machine s tr w → I tr w.shared →
      (∀ j, A j tr w.shared (w.phase j)) → p.act i e w.shared (w.phase i) = some (s', q, fs) →
      let x := ⟨w, .act i e, fs, ⟨s', Function.update w.phase i q⟩⟩
      I (tr ++ [x]) s' ∧ A i (tr ++ [x]) s' q ∧
        ∀ j, j ≠ i → A j (tr ++ [x]) s' (w.phase j))
    (hdrift : ∀ tr w d s', Run p.machine s tr w → I tr w.shared →
      (∀ j, A j tr w.shared (w.phase j)) → p.drift d w.shared = some s' →
      let x := ⟨w, .drift d, [], ⟨s', w.phase⟩⟩
      I (tr ++ [x]) s' ∧ ∀ j, A j (tr ++ [x]) s' (w.phase j)) :
    I tr t.shared ∧ ∀ i, A i tr t.shared (t.phase i) := by
  refine h.invariant (I := fun tr w => I tr w.shared ∧ ∀ i, A i tr w.shared (w.phase i))
    ⟨hI, hA⟩ ?_
  rintro tr w (⟨i, e⟩ | d) u fs hr ⟨hi, ha⟩ he
  · obtain ⟨s', q, hs, rfl⟩ := Program.machine_act.mp he
    obtain ⟨h1, h2, h3⟩ := hact tr w i e s' q fs hr hi ha hs
    refine ⟨h1, fun j => ?_⟩
    by_cases hj : j = i
    · subst hj
      simpa using h2
    · simpa [Function.update_of_ne hj] using h3 j hj
  · obtain ⟨s', hs, rfl, rfl⟩ := Program.machine_drift.mp he
    exact hdrift tr w d s' hr hi ha hs

/-- A task that stands where no section leads to has not acted yet. -/
theorem unmoved {P : π → Prop} (h : Run p.machine s tr t)
    (hact : ∀ i e s q s' q' fs, p.act i e s q = some (s', q', fs) → ¬ P q') {i : ι}
    (hi : P (t.phase i)) : ∀ y ∈ tr, ∀ e, y.event ≠ .act i e := by
  revert hi
  refine h.invariant (I := fun tr w => P (w.phase i) → ∀ y ∈ tr, ∀ e, y.event ≠ .act i e) ?_ ?_
  · intro _ y hy
    cases hy
  · intro tr w ev u fs _ ih hu hi y hy e he
    obtain ⟨j, e', rfl, ha, hother⟩ | ⟨d, s', rfl, -, rfl, rfl⟩ := Program.machine_steps hu
    · by_cases hj : i = j
      · subst hj
        exact hact _ _ _ _ _ _ _ ha hi
      · rw [hother i hj] at hi
        obtain hy | hy := List.mem_append.mp hy
        · exact ih hi y hy e he
        · rw [List.mem_singleton.mp hy] at he
          cases he
          exact hj rfl
    · obtain hy | hy := List.mem_append.mp hy
      · exact ih hi y hy e he
      · rw [List.mem_singleton.mp hy] at he
        cases he

/-- A task that stands where no section begins does not act any more. -/
theorem halted {P : π → Prop} (h : Run p.machine s tr t)
    (hact : ∀ i e s q s' q' fs, p.act i e s q = some (s', q', fs) → ¬ P q) {i : ι}
    (hi : P (s.phase i)) : P (t.phase i) ∧ ∀ y ∈ tr, ∀ e, y.event ≠ .act i e := by
  refine h.invariant (I := fun tr w => P (w.phase i) ∧ ∀ y ∈ tr, ∀ e, y.event ≠ .act i e)
    ⟨hi, nofun⟩ ?_
  rintro tr w ev u fs - ⟨hw, ih⟩ hu
  obtain ⟨j, e', rfl, ha, hother⟩ | ⟨d, s', rfl, -, rfl, rfl⟩ := Program.machine_steps hu
  · by_cases hj : i = j
    · subst hj
      exact (hact _ _ _ _ _ _ _ ha hw).elim
    · refine ⟨by rwa [hother i hj], fun y hy e he => ?_⟩
      obtain hy | hy := List.mem_append.mp hy
      · exact ih y hy e he
      · rw [List.mem_singleton.mp hy] at he
        cases he
        exact hj rfl
  · refine ⟨hw, fun y hy e he => ?_⟩
    obtain hy | hy := List.mem_append.mp hy
    · exact ih y hy e he
    · rw [List.mem_singleton.mp hy] at he
      cases he

/-- How one section of task `i` may treat a lock: leave it, take it when free, or give it back.
The Boolean says whether the task stands where it holds the lock. -/
inductive Locked (i : ι) : Option ι → Bool → Option ι → Bool → Prop
  | kept {l b} : Locked i l b l b
  | taken : Locked i none false (some i) true
  | given {l} : Locked i l true none false

/-- Sections that treat a lock as they may: it is held by the task that stands so. -/
theorem lock_held (lock : σ → Option ι) (holds : π → Bool) (h : Run p.machine s tr t)
    (hl : lock s.shared = none) (hs : ∀ i, holds (s.phase i) = false)
    (hact : ∀ i e s q s' q' fs, p.act i e s q = some (s', q', fs) →
      Locked i (lock s) (holds q) (lock s') (holds q'))
    (hdrift : ∀ d s s', p.drift d s = some s' → lock s' = lock s) (i : ι) :
    lock t.shared = some i ↔ holds (t.phase i) = true := by
  refine (rely (I := fun _ _ => True) (A := fun i _ s q => lock s = some i ↔ holds q = true) h
    trivial (fun i => by simp [hl, hs i]) ?_ ?_).2 i
  · intro tr w i e s' q fs _ _ ha he
    have hi := ha i
    have hk := hact i e _ _ _ _ _ he
    generalize lock w.shared = l at ha hi hk
    generalize holds (w.phase i) = b at hi hk
    generalize lock s' = l' at hk
    generalize holds q = b' at hk
    cases hk with
    | kept => exact ⟨trivial, hi, fun j _ => ha j⟩
    | taken => exact ⟨trivial, by simp, fun j hj => by simp [← ha j, Ne.symm hj]⟩
    | given =>
      obtain rfl := hi.mpr rfl
      exact ⟨trivial, by simp, fun j hj => by simp [← ha j, Ne.symm hj]⟩
  · intro tr w d s' _ _ ha hd
    rw [hdrift d _ _ hd]
    exact ⟨trivial, ha⟩

theorem lock_exclusive (lock : σ → Option ι) (holds : π → Bool) (h : Run p.machine s tr t)
    (hl : lock s.shared = none) (hs : ∀ i, holds (s.phase i) = false)
    (hact : ∀ i e s q s' q' fs, p.act i e s q = some (s', q', fs) →
      Locked i (lock s) (holds q) (lock s') (holds q'))
    (hdrift : ∀ d s s', p.drift d s = some s' → lock s' = lock s) {i j : ι}
    (hi : holds (t.phase i) = true) (hj : holds (t.phase j) = true) : i = j := by
  have hli := (lock_held lock holds h hl hs hact hdrift i).mpr hi
  have hlj := (lock_held lock holds h hl hs hact hdrift j).mpr hj
  exact Option.some.inj (hli.symm.trans hlj)

end BetterAuthBridge.Library.Tasks
