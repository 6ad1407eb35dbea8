import BetterAuthBridge.Library.Runs
import Mathlib.Algebra.Order.Group.Defs
import Mathlib.Data.List.Pairwise

namespace BetterAuthBridge.Library.SingleFlight

open Runs

variable {ι τ : Type*}

/-- The life of one guarded attempt: it starts, and it is either carried to an end or cancelled. -/
inductive Mark (ι : Type*)
  | start (i : ι)
  | settle (i : ι)
  | cancel (i : ι)

inductive Kind
  | start
  | settle
  | cancel

def Kind.mark : Kind → ι → Mark ι
  | start => .start
  | settle => .settle
  | cancel => .cancel

/-- At most one attempt at a time, and a stamp that says when the last one began. A cancelled
attempt gives back the stamp it found. -/
structure Gate (ι τ : Type*) where
  now : τ
  last : Option τ
  flight : Option (ι × Option τ)

def starts (es : List (τ × Mark ι)) : List (ι × τ) :=
  es.filterMap fun | (t, .start i) => some (i, t) | _ => none

def cancelled (es : List (τ × Mark ι)) : List ι :=
  es.filterMap fun | (_, .cancel i) => some i | _ => none

@[simp] theorem starts_append (es fs : List (τ × Mark ι)) :
    starts (es ++ fs) = starts es ++ starts fs := List.filterMap_append ..

@[simp] theorem cancelled_append (es fs : List (τ × Mark ι)) :
    cancelled (es ++ fs) = cancelled es ++ cancelled fs := List.filterMap_append ..

variable [AddCommGroup τ] [LinearOrder τ]

def May (interval now : τ) : Option τ → Prop
  | none => True
  | some l => interval ≤ now - l

instance (interval now : τ) (l : Option τ) : Decidable (May interval now l) := by
  cases l <;> unfold May <;> infer_instance

def step [DecidableEq ι] (interval : τ) : Machine (Gate ι τ) (τ × Mark ι) Empty
  | g, (t, .start i) =>
    if g.now ≤ t ∧ g.flight = none ∧ May interval t g.last then
      some (⟨t, some t, some (i, g.last)⟩, [])
    else none
  | g, (t, .settle i) =>
    match g.flight with
    | some (j, _) => if g.now ≤ t ∧ j = i then some (⟨t, g.last, none⟩, []) else none
    | none => none
  | g, (t, .cancel i) =>
    match g.flight with
    | some (j, prev) => if g.now ≤ t ∧ j = i then some (⟨t, prev, none⟩, []) else none
    | none => none

section

variable [DecidableEq ι] {interval t : τ} {g : Gate ι τ} {i : ι} {prev : Option τ}

theorem step_start (hnow : g.now ≤ t) (hf : g.flight = none) (hm : May interval t g.last) :
    step interval g (t, .start i) = some (⟨t, some t, some (i, g.last)⟩, []) :=
  if_pos ⟨hnow, hf, hm⟩

theorem step_settle (hnow : g.now ≤ t) (hf : g.flight = some (i, prev)) :
    step interval g (t, .settle i) = some (⟨t, g.last, none⟩, []) := by
  simp [step, hf, hnow]

theorem step_cancel (hnow : g.now ≤ t) (hf : g.flight = some (i, prev)) :
    step interval g (t, .cancel i) = some (⟨t, prev, none⟩, []) := by
  simp [step, hf, hnow]

end

/-- Any two attempts that were not cancelled began at least the interval apart. -/
def Spaced (interval : τ) (es : List (τ × Mark ι)) : Prop :=
  (starts es).Pairwise fun x y => x.1 ∉ cancelled es → y.1 ∉ cancelled es → x.2 + interval ≤ y.2

theorem Spaced.snoc_start {interval : τ} {es : List (τ × Mark ι)} (h : Spaced interval es)
    {i : ι} {t : τ} (hl : ∀ x ∈ starts es, x.1 ∉ cancelled es → x.2 + interval ≤ t) :
    Spaced interval (es ++ [(t, .start i)]) := by
  have hc : cancelled (es ++ [(t, .start i)]) = cancelled es := by simp [cancelled]
  have hst : starts (es ++ [(t, .start i)]) = starts es ++ [(i, t)] := by simp [starts]
  unfold Spaced
  rw [hc, hst, List.pairwise_append]
  refine ⟨h, List.pairwise_singleton _ _, fun x hx y hy hcx _ => ?_⟩
  obtain rfl := List.mem_singleton.mp hy
  exact hl x hx hcx

theorem Spaced.snoc_other {interval : τ} {es : List (τ × Mark ι)} (h : Spaced interval es)
    {e : τ × Mark ι} (hs : starts [e] = []) : Spaced interval (es ++ [e]) := by
  unfold Spaced at *
  simp only [starts_append, cancelled_append, hs, List.append_nil, List.mem_append, not_or]
  exact h.imp fun hxy hx hy => hxy hx.1 hy.1

/-- What the stamp remembers about the attempts so far: with none in flight it is no earlier than
any uncancelled start; with one in flight it is that start, and the saved stamp covers the
others. -/
structure Kept (interval : τ) (es : List (τ × Mark ι)) (g : Gate ι τ) : Prop where
  spaced : Spaced interval es
  last_le : ∀ l, g.last = some l → l ≤ g.now
  prev_le : ∀ j p l, g.flight = some (j, some p) → g.last = some l → p ≤ l
  stamped : ∀ j prev, g.flight = some (j, prev) → ∃ l, g.last = some l
  idle : g.flight = none → ∀ x ∈ starts es, x.1 ∉ cancelled es → ∃ l, g.last = some l ∧ x.2 ≤ l
  busy : ∀ j prev l, g.flight = some (j, prev) → g.last = some l → ∀ x ∈ starts es,
    x.1 ∉ cancelled es → x = (j, l) ∨ ∃ p, prev = some p ∧ x.2 ≤ p

theorem Kept.initial (interval t : τ) : Kept interval ([] : List (τ × Mark ι)) ⟨t, none, none⟩ :=
  ⟨by simp [Spaced, starts], by simp, by simp, by simp, by simp [starts], by simp⟩

theorem Kept.start [IsOrderedAddMonoid τ] {interval : τ} {es : List (τ × Mark ι)} {g : Gate ι τ}
    (h : Kept interval es g) {i : ι} {t : τ} (hnow : g.now ≤ t) (hf : g.flight = none)
    (hm : May interval t g.last) :
    Kept interval (es ++ [(t, .start i)]) ⟨t, some t, some (i, g.last)⟩ := by
  have hfar : ∀ x ∈ starts es, x.1 ∉ cancelled es → x.2 + interval ≤ t := by
    intro x hx hc
    obtain ⟨l, hl, hxl⟩ := h.idle hf x hx hc
    rw [hl] at hm
    calc x.2 + interval ≤ l + interval := by gcongr
      _ = interval + l := add_comm _ _
      _ ≤ t := le_sub_iff_add_le.mp hm
  refine ⟨h.spaced.snoc_start hfar, by simp, ?_, by simp, by simp, ?_⟩
  · rintro j p l hj hl
    simp only [Option.some.injEq, Prod.mk.injEq] at hj hl
    exact hl ▸ (h.last_le p hj.2).trans hnow
  · rintro j prev l hj hl x hx hc
    simp only [Option.some.injEq, Prod.mk.injEq] at hj hl
    obtain ⟨rfl, rfl⟩ := hj
    subst hl
    rcases List.mem_append.mp (starts_append es _ ▸ hx) with hx | hx
    · exact Or.inr (h.idle hf x hx (by simpa [cancelled] using hc))
    · exact Or.inl (by simpa [starts] using hx)

theorem Kept.settle {interval : τ} {es : List (τ × Mark ι)} {g : Gate ι τ}
    (h : Kept interval es g) {i : ι} {prev : Option τ} {t : τ} (hnow : g.now ≤ t)
    (hf : g.flight = some (i, prev)) :
    Kept interval (es ++ [(t, .settle i)]) ⟨t, g.last, none⟩ := by
  obtain ⟨l, hl⟩ := h.stamped i prev hf
  refine ⟨h.spaced.snoc_other rfl, fun l hl => (h.last_le l hl).trans hnow, by simp, by simp,
    ?_, by simp⟩
  intro _ x hx hc
  have hx' : x ∈ starts es := by simpa [starts] using hx
  have hc' : x.1 ∉ cancelled es := by simpa [cancelled] using hc
  rcases h.busy i prev l hf hl x hx' hc' with rfl | ⟨p, rfl, hp⟩
  · exact ⟨l, hl, le_rfl⟩
  · exact ⟨l, hl, hp.trans (h.prev_le i p l hf hl)⟩

theorem Kept.cancel {interval : τ} {es : List (τ × Mark ι)} {g : Gate ι τ}
    (h : Kept interval es g) {i : ι} {prev : Option τ} {t : τ} (hnow : g.now ≤ t)
    (hf : g.flight = some (i, prev)) :
    Kept interval (es ++ [(t, .cancel i)]) ⟨t, prev, none⟩ := by
  obtain ⟨l, hl⟩ := h.stamped i prev hf
  refine ⟨h.spaced.snoc_other rfl, ?_, by simp, by simp, ?_, by simp⟩
  · rintro p rfl
    exact ((h.prev_le i p l hf hl).trans (h.last_le l hl)).trans hnow
  · intro _ x hx hc
    have hx' : x ∈ starts es := by simpa [starts] using hx
    have hc' : x.1 ∉ cancelled es ∧ x.1 ≠ i := by simpa [cancelled] using hc
    rcases h.busy i prev l hf hl x hx' hc'.1 with rfl | ⟨p, rfl, hp⟩
    · exact (hc'.2 rfl).elim
    · exact ⟨p, rfl, hp⟩

theorem Kept.step [DecidableEq ι] [IsOrderedAddMonoid τ] {interval : τ} {es : List (τ × Mark ι)}
    {g g' : Gate ι τ} {e : τ × Mark ι} {fs : List Empty} (h : Kept interval es g)
    (he : step interval g e = some (g', fs)) : Kept interval (es ++ [e]) g' := by
  obtain ⟨t, i | i | i⟩ := e
  · obtain ⟨⟨hnow, hf, hm⟩, rfl, -⟩ : (g.now ≤ t ∧ g.flight = none ∧ May interval t g.last) ∧
        _ = g' ∧ [] = fs := by simpa [SingleFlight.step] using he
    exact h.start hnow hf hm
  all_goals
    obtain ⟨now, last, _ | ⟨j, prev⟩⟩ := g
    · cases he
    obtain ⟨⟨hnow, rfl⟩, rfl, -⟩ : (now ≤ t ∧ j = i) ∧ _ = g' ∧ [] = fs := by
      simpa [SingleFlight.step] using he
  · exact h.settle hnow rfl
  · exact h.cancel hnow rfl

/-- In every run of the gate, attempts that are not cancelled start at least the interval apart. -/
theorem spaced [DecidableEq ι] [IsOrderedAddMonoid τ] {interval t₀ : τ}
    {tr : List (Transition (Gate ι τ) (τ × Mark ι) Empty)} {g : Gate ι τ}
    (h : Run (step interval) ⟨t₀, none, none⟩ tr g) : Spaced interval (tr.map (·.event)) := by
  have hk : Kept interval (tr.map (·.event)) g := by
    refine h.invariant (I := fun tr g => Kept interval (tr.map (·.event)) g)
      (Kept.initial interval t₀) ?_
    intro tr g e g' fs _ hk he
    simpa using hk.step he
  exact hk.spaced

/-- The spacing of attempts that a list of steps is marked with, said of the steps. -/
theorem Spaced.steps {α : Type*} {interval : τ} {mark : α → List (τ × Mark ι)} {l : List α}
    (h : Spaced interval (l.flatMap mark)) :
    l.Pairwise fun x y => ∀ i t j u, (t, .start i) ∈ mark x → (u, .start j) ∈ mark y →
      (∀ z ∈ l, ∀ c, (c, .cancel i) ∉ mark z) → (∀ z ∈ l, ∀ c, (c, .cancel j) ∉ mark z) →
      t + interval ≤ u := by
  have hst : starts (l.flatMap mark) = l.flatMap fun x => starts (mark x) :=
    List.filterMap_flatMap ..
  have hmem : ∀ {i t x}, (t, Mark.start i) ∈ mark x → (i, t) ∈ starts (mark x) :=
    fun hx => List.mem_filterMap.mpr ⟨_, hx, rfl⟩
  have hcan : ∀ {i}, (∀ z ∈ l, ∀ c, (c, Mark.cancel i) ∉ mark z) →
      i ∉ cancelled (l.flatMap mark) := by
    intro i hi hc
    obtain ⟨⟨c, k⟩, he, hk⟩ := List.mem_filterMap.mp hc
    obtain ⟨z, hz, hm⟩ := List.mem_flatMap.mp he
    cases k with
    | cancel j =>
      obtain rfl : j = i := by simpa using hk
      exact hi z hz c hm
    | _ => cases hk
  unfold Spaced at h
  rw [hst, List.pairwise_flatMap] at h
  refine h.2.imp ?_
  intro x y hxy i t j u hx hy hi hj
  exact hxy (i, t) (hmem hx) (j, u) (hmem hy) (hcan hi) (hcan hj)

end BetterAuthBridge.Library.SingleFlight
