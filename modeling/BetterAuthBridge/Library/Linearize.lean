import BetterAuthBridge.Library.Tasks
import Mathlib.Data.List.Nodup

namespace BetterAuthBridge.Library.Linearize

open Runs Tasks

variable {ι σ π ε δ α ω ψ : Type*}

inductive Seen (ω ψ : Type*)
  | called (op : ω)
  | returned (answer : List ψ)

/-- How far a call has come: it takes effect once, between its call and its return. -/
inductive Stage (ω ψ : Type*)
  | idle
  | pending (op : ω)
  | decided (op : ω) (answer : List ψ)
  | done

/-- What one section of a call may do, seen against the object whose operations are one step. -/
inductive Moved (obj : Machine α ω ψ) :
    α → Stage ω ψ → List (Seen ω ψ) → α → Stage ω ψ → Prop
  | quiet {a g} : Moved obj a g [] a g
  | called {a op} : Moved obj a .idle [.called op] a (.pending op)
  | decided {a op b answer} : obj a op = some (b, answer) →
      Moved obj a (.pending op) [] b (.decided op answer)
  | returned {a op answer} : Moved obj a (.decided op answer) [.returned answer] a .done

abbrev Order (ι α ω ψ : Type*) := List (ι × Transition α ω ψ)

abbrev History (ι σ π ε δ ω ψ : Type*) := Trace ι σ π ε δ (Seen ω ψ)

variable {tr a b : History ι σ π ε δ ω ψ}
  {x : Transition (World ι σ π) (Happening ι ε δ) (Seen ω ψ)} {order : Order ι α ω ψ}
  {i j : ι} {op : ω} {answer : List ψ}

def Called (tr : History ι σ π ε δ ω ψ) (i : ι) (op : ω) : Prop := ∃ x ∈ tr, Did i (.called op) x

def Returned (tr : History ι σ π ε δ ω ψ) (i : ι) (answer : List ψ) : Prop :=
  ∃ x ∈ tr, Did i (.returned answer) x

/-- Call `i` had returned before call `j` began. -/
def Precedes (tr : History ι σ π ε δ ω ψ) (i j : ι) : Prop :=
  ∃ a b, tr = a ++ b ∧ (∃ answer, Returned a i answer) ∧ ∃ op, Called b j op

def Before (order : Order ι α ω ψ) (i j : ι) : Prop :=
  ∃ a b, order = a ++ b ∧ i ∈ a.map Prod.fst ∧ j ∉ a.map Prod.fst

/-- The calls of a trace answered as the object does when it is asked one call after another, in an
order that agrees with real time. -/
structure Linearizes (obj : Machine α ω ψ) (g : α) (tr : History ι σ π ε δ ω ψ)
    (order : Order ι α ω ψ) (g' : α) : Prop where
  legal : Run obj g (order.map Prod.snd) g'
  once : (order.map Prod.fst).Nodup
  complete : ∀ i answer, Returned tr i answer → ∃ x, (i, x) ∈ order ∧ x.effects = answer
  sound : ∀ i x, (i, x) ∈ order →
    (∀ op, Called tr i op ↔ op = x.event) ∧ ∀ answer, Returned tr i answer → answer = x.effects
  realTime : ∀ i j, Precedes tr i j → Before order i j

theorem called_snoc : Called (tr ++ [x]) i op ↔ Called tr i op ∨ Did i (.called op) x := by
  simp only [Called, List.mem_append, List.mem_singleton, or_and_right, exists_or, exists_eq_left]

theorem returned_snoc :
    Returned (tr ++ [x]) i answer ↔ Returned tr i answer ∨ Did i (.returned answer) x := by
  simp only [Returned, List.mem_append, List.mem_singleton, or_and_right, exists_or,
    exists_eq_left]

theorem called_quiet (h : ¬ Did i (.called op) x) : Called (tr ++ [x]) i op ↔ Called tr i op := by
  rw [called_snoc, or_iff_left h]

theorem returned_quiet (h : ¬ Did i (.returned answer) x) :
    Returned (tr ++ [x]) i answer ↔ Returned tr i answer := by
  rw [returned_snoc, or_iff_left h]

theorem precedes_snoc (h : Precedes (tr ++ [x]) i j) :
    Precedes tr i j ∨ (∃ answer, Returned tr i answer) ∧ ∃ op, Did j (.called op) x := by
  obtain ⟨a, b, hab, hi, op, hj⟩ := h
  induction b using List.reverseRecOn with
  | nil =>
    obtain ⟨_, hm, -⟩ := hj
    cases hm
  | append_singleton b y _ =>
    rw [← List.append_assoc] at hab
    obtain ⟨rfl, hy⟩ := List.append_inj' hab rfl
    obtain rfl : x = y := by simpa using hy
    obtain hj | hj := called_snoc.mp hj
    · exact .inl ⟨a, b, rfl, hi, op, hj⟩
    · obtain ⟨answer, z, hz, hd⟩ := hi
      exact .inr ⟨⟨answer, z, List.mem_append_left _ hz, hd⟩, op, hj⟩

def Stands (tr : History ι σ π ε δ ω ψ) (order : Order ι α ω ψ) (i : ι) : Stage ω ψ → Prop
  | .idle => i ∉ order.map Prod.fst ∧ (∀ op, ¬ Called tr i op) ∧ ∀ answer, ¬ Returned tr i answer
  | .pending op => i ∉ order.map Prod.fst ∧ (∀ op', Called tr i op' ↔ op' = op) ∧
      ∀ answer, ¬ Returned tr i answer
  | .decided op answer =>
    ∃ x, (∀ y, (i, y) ∈ order ↔ y = x) ∧ x.event = op ∧ x.effects = answer ∧
      (∀ op', Called tr i op' ↔ op' = op) ∧ ∀ answer, ¬ Returned tr i answer
  | .done => ∃ x, (∀ y, (i, y) ∈ order ↔ y = x) ∧ (∀ op, Called tr i op ↔ op = x.event) ∧
      ∀ answer, Returned tr i answer → answer = x.effects

/-- A section of another call, and its place in the order, say nothing of this one. -/
theorem Stands.other {g : Stage ω ψ} {more : Order ι α ω ψ} (h : Stands tr order i g)
    (hx : ∀ f, ¬ Did i f x) (hm : i ∉ more.map Prod.fst) :
    Stands (tr ++ [x]) (order ++ more) i g := by
  have hc : ∀ op, Called (tr ++ [x]) i op ↔ Called tr i op := fun op => called_quiet (hx _)
  have hr : ∀ answer, Returned (tr ++ [x]) i answer ↔ Returned tr i answer :=
    fun answer => returned_quiet (hx _)
  have hin : i ∈ (order ++ more).map Prod.fst ↔ i ∈ order.map Prod.fst := by
    rw [List.map_append, List.mem_append, or_iff_left hm]
  have hy : ∀ y, (i, y) ∈ order ++ more ↔ (i, y) ∈ order := fun y => by
    rw [List.mem_append, or_iff_left fun h => hm (List.mem_map_of_mem h)]
  cases g <;> simpa only [Stands, hc, hr, hin, hy] using h

theorem Stands.called (h : Stands tr order i .idle)
    (hx : ∀ f, Did i f x ↔ f ∈ [Seen.called op]) : Stands (tr ++ [x]) order i (.pending op) := by
  obtain ⟨hin, hcalled, hret⟩ := h
  refine ⟨hin, fun op' => ?_, fun answer hr => ?_⟩
  · rw [called_snoc, or_iff_right (hcalled op'), hx, List.mem_singleton, Seen.called.injEq]
  · rw [returned_quiet (by simp [hx])] at hr
    exact hret answer hr

theorem Stands.decided {y : Transition α ω ψ} (h : Stands tr order i (.pending y.event))
    (hx : ∀ f, ¬ Did i f x) :
    Stands (tr ++ [x]) (order ++ [(i, y)]) i (.decided y.event y.effects) := by
  obtain ⟨hin, hcalled, hret⟩ := h
  refine ⟨y, fun z => ?_, rfl, rfl, fun op => ?_, fun answer hr => ?_⟩
  · rw [List.mem_append, List.mem_singleton, Prod.mk.injEq]
    constructor
    · rintro (hz | ⟨-, rfl⟩)
      · exact (hin (List.mem_map_of_mem hz)).elim
      · rfl
    · rintro rfl
      exact .inr ⟨rfl, rfl⟩
  · rw [called_quiet (hx _), hcalled]
  · rw [returned_quiet (hx _)] at hr
    exact hret answer hr

theorem Stands.returned (h : Stands tr order i (.decided op answer))
    (hx : ∀ f, Did i f x ↔ f ∈ [Seen.returned answer]) :
    Stands (tr ++ [x]) order i (.done : Stage ω ψ) := by
  obtain ⟨y, hy, rfl, rfl, hcalled, hret⟩ := h
  refine ⟨y, hy, fun op => ?_, fun answer hr => ?_⟩
  · rw [called_quiet (by simp [hx]), hcalled]
  · rw [returned_snoc, or_iff_right (hret answer), hx, List.mem_singleton,
      Seen.returned.injEq] at hr
    exact hr

/-- Where each call has come is no contradiction to its stage, and so far all is in order. -/
structure Kept (obj : Machine α ω ψ) (g : α) (stage : ι → Stage ω ψ)
    (tr : History ι σ π ε δ ω ψ) (order : Order ι α ω ψ) (g' : α) : Prop where
  legal : Run obj g (order.map Prod.snd) g'
  once : (order.map Prod.fst).Nodup
  stands : ∀ i, Stands tr order i (stage i)
  realTime : ∀ i j, Precedes tr i j → Before order i j

variable {obj : Machine α ω ψ} {g g' g'' : α} {stage : ι → Stage ω ψ}

theorem Stands.mem_of_returned {c : Stage ω ψ} (h : Stands tr order i c)
    (hr : Returned tr i answer) : i ∈ order.map Prod.fst := by
  cases c with
  | idle => exact (h.2.2 _ hr).elim
  | pending => exact (h.2.2 _ hr).elim
  | decided =>
    obtain ⟨_, -, -, -, -, hn⟩ := h
    exact (hn _ hr).elim
  | done =>
    obtain ⟨x, hx, -⟩ := h
    exact List.mem_map.mpr ⟨_, (hx x).mpr rfl, rfl⟩

theorem Kept.linearizes (h : Kept obj g stage tr order g') : Linearizes obj g tr order g' where
  legal := h.legal
  once := h.once
  complete i answer hr := by
    have hs := h.stands i
    cases hc : stage i with
    | idle =>
      rw [hc] at hs
      exact (hs.2.2 _ hr).elim
    | pending =>
      rw [hc] at hs
      exact (hs.2.2 _ hr).elim
    | decided =>
      rw [hc] at hs
      obtain ⟨_, -, -, -, -, hn⟩ := hs
      exact (hn _ hr).elim
    | done =>
      rw [hc] at hs
      obtain ⟨x, hx, -, ha⟩ := hs
      exact ⟨x, (hx x).mpr rfl, (ha _ hr).symm⟩
  sound i x hx := by
    have hs := h.stands i
    have hin : i ∈ order.map Prod.fst := List.mem_map_of_mem hx
    cases hc : stage i with
    | idle =>
      rw [hc] at hs
      exact (hs.1 hin).elim
    | pending =>
      rw [hc] at hs
      exact (hs.1 hin).elim
    | decided =>
      rw [hc] at hs
      obtain ⟨y, hy, rfl, -, hcalled, hn⟩ := hs
      obtain rfl := (hy x).mp hx
      exact ⟨hcalled, fun _ hr => (hn _ hr).elim⟩
    | done =>
      rw [hc] at hs
      obtain ⟨y, hy, hcalled, ha⟩ := hs
      obtain rfl := (hy x).mp hx
      exact ⟨hcalled, ha⟩
  realTime := h.realTime

theorem Kept.realTime_snoc {more : Order ι α ω ψ} (h : Kept obj g stage tr order g')
    (hx : ∀ i op, ¬ Did i (.called op) x) (i j : ι) (hp : Precedes (tr ++ [x]) i j) :
    Before (order ++ more) i j := by
  obtain hp | ⟨-, op, hd⟩ := precedes_snoc hp
  · obtain ⟨a, b, rfl, hi, hj⟩ := h.realTime i j hp
    exact ⟨a, b ++ more, List.append_assoc .., hi, hj⟩
  · exact (hx j op hd).elim

variable {e : ε} {c : Stage ω ψ}

theorem did_self {f : Seen ω ψ} (hx : x.event = .act i e) : Did i f x ↔ f ∈ x.effects :=
  ⟨fun h => h.2, fun h => ⟨⟨e, hx⟩, h⟩⟩

theorem did_other {f : Seen ω ψ} (hx : x.event = .act i e) (hj : j ≠ i) : ¬ Did j f x := by
  rintro ⟨⟨e', he⟩, -⟩
  cases hx.symm.trans he
  exact hj rfl

theorem Kept.drifted {d : δ} (h : Kept obj g stage tr order g') (hx : x.event = .drift d) :
    Kept obj g stage (tr ++ [x]) order g' := by
  have hquiet : ∀ i f, ¬ Did i f x := by
    rintro i f ⟨⟨e, he⟩, -⟩
    cases hx.symm.trans he
  have hnone : ∀ i, i ∉ ([] : Order ι α ω ψ).map Prod.fst := fun _ => List.not_mem_nil
  refine ⟨h.legal, h.once, fun i => ?_, fun i j hp => ?_⟩
  · simpa using (h.stands i).other (hquiet i) (hnone i)
  · obtain ⟨a, b, he, hb⟩ := h.realTime_snoc (fun j op => hquiet j _) i j hp
    exact ⟨a, b, (List.append_nil order).symm.trans he, hb⟩

variable [DecidableEq ι]

theorem Kept.stands_update {more : Order ι α ω ψ} (h : Kept obj g stage tr order g')
    (hx : x.event = .act i e) (hm : ∀ j, j ≠ i → j ∉ more.map Prod.fst)
    (hi : Stands (tr ++ [x]) (order ++ more) i c) (j : ι) :
    Stands (tr ++ [x]) (order ++ more) j (Function.update stage i c j) := by
  by_cases hj : j = i
  · subst hj
    rwa [Function.update_self]
  · rw [Function.update_of_ne hj]
    exact (h.stands j).other (fun f => did_other hx hj) (hm j hj)

/-- One section of a call keeps the order, and may add the call to its end. -/
theorem Kept.moved (h : Kept obj g stage tr order g') (hx : x.event = .act i e)
    (hm : Moved obj g' (stage i) x.effects g'' c) :
    ∃ more, Kept obj g (Function.update stage i c) (tr ++ [x]) (order ++ more) g'' := by
  have hi := h.stands i
  generalize hd : stage i = d at hm hi
  generalize hf : x.effects = fs at hm
  have hdid : ∀ f, Did i f x ↔ f ∈ fs := fun f => by rw [did_self hx, hf]
  have hquiet : ∀ f, f ∉ fs → ∀ j, ¬ Did j f x := by
    intro f hn j hj
    by_cases hji : j = i
    · subst hji
      exact hn ((hdid f).mp hj)
    · exact did_other hx hji hj
  have hnone : ∀ j, j ≠ i → j ∉ ([] : Order ι α ω ψ).map Prod.fst := fun _ _ => List.not_mem_nil
  cases hm with
  | quiet =>
    refine ⟨[], by simpa using h.legal, by simpa using h.once, h.stands_update hx hnone ?_,
      h.realTime_snoc fun j op => hquiet _ List.not_mem_nil j⟩
    exact hi.other (fun f => hquiet f List.not_mem_nil i) List.not_mem_nil
  | @called op =>
    have hin := hi.1
    refine ⟨[], by simpa using h.legal, by simpa using h.once, h.stands_update hx hnone ?_, ?_⟩
    · rw [List.append_nil]
      exact hi.called hdid
    · intro j k hp
      rw [List.append_nil]
      obtain hp | ⟨⟨answer, hr⟩, op', hd'⟩ := precedes_snoc hp
      · exact h.realTime j k hp
      · obtain rfl : k = i := by
          by_contra hne
          exact did_other hx hne hd'
        exact ⟨order, [], (List.append_nil _).symm, (h.stands j).mem_of_returned hr, hin⟩
  | @decided op _ answer hobj =>
    have hin := hi.1
    refine ⟨[(i, ⟨g', op, answer, g''⟩)], ?_, ?_, h.stands_update hx ?_ ?_,
      h.realTime_snoc fun j op => hquiet _ List.not_mem_nil j⟩
    · rw [List.map_append]
      exact h.legal.snoc hobj
    · rw [List.map_append]
      apply h.once.append (List.nodup_singleton i)
      intro j hj hji
      obtain rfl : j = i := List.mem_singleton.mp hji
      exact hin hj
    · intro j hj hji
      exact hj (List.mem_singleton.mp hji)
    · exact Stands.decided (y := ⟨g', op, answer, g''⟩) hi fun f => hquiet f List.not_mem_nil i
  | returned =>
    refine ⟨[], by simpa using h.legal, by simpa using h.once, h.stands_update hx hnone ?_,
      h.realTime_snoc fun j op => hquiet _ (by simp) j⟩
    rw [List.append_nil]
    exact hi.returned hdid

/-- Calls whose sections each move a related object as they may answer as the object does. -/
theorem linearizes {p : Program ι σ π ε δ (Seen ω ψ)} {s t : World ι σ π} (stand : π → Stage ω ψ)
    (Rel : World ι σ π → α → Prop) (h : Run p.machine s tr t) (hs : Rel s g)
    (hidle : ∀ i, stand (s.phase i) = .idle)
    (hact : ∀ tr w i e s' q fs a, Run p.machine s tr w → Rel w a →
      p.act i e w.shared (w.phase i) = some (s', q, fs) →
      ∃ b, Moved obj a (stand (w.phase i)) fs b (stand q) ∧ Rel ⟨s', Function.update w.phase i q⟩ b)
    (hdrift : ∀ tr w d s' a, Run p.machine s tr w → Rel w a → p.drift d w.shared = some s' →
      Rel ⟨s', w.phase⟩ a) :
    ∃ order b, Linearizes obj g tr order b ∧ Rel t b := by
  have hk : ∃ order b, Kept obj g (fun i => stand (t.phase i)) tr order b ∧ Rel t b := by
    refine h.invariant (I := fun tr w => ∃ order b,
      Kept obj g (fun i => stand (w.phase i)) tr order b ∧ Rel w b) ?_ ?_
    · refine ⟨[], g, ⟨Run.nil, List.nodup_nil, fun i => ?_, ?_⟩, hs⟩
      · rw [hidle i]
        exact ⟨List.not_mem_nil, nofun, nofun⟩
      · rintro i j ⟨a, b, hab, -, _, _, hm, -⟩
        rw [(List.append_eq_nil_iff.mp hab.symm).2] at hm
        cases hm
    · rintro tr w (⟨i, e⟩ | d) u fs hr ⟨order, b, hk, hrel⟩ hu
      · obtain ⟨s', q, ha, rfl⟩ := Program.machine_act.mp hu
        obtain ⟨b', hm, hrel'⟩ := hact tr w i e s' q fs b hr hrel ha
        obtain ⟨more, hk'⟩ := hk.moved
          (x := ⟨w, .act i e, fs, ⟨s', Function.update w.phase i q⟩⟩) rfl hm
        refine ⟨order ++ more, b', ?_, hrel'⟩
        have hst : (fun j => stand (Function.update w.phase i q j)) =
            Function.update (fun j => stand (w.phase j)) i (stand q) := Function.comp_update ..
        rwa [hst]
      · obtain ⟨s', hd, rfl, rfl⟩ := Program.machine_drift.mp hu
        exact ⟨order, b, hk.drifted rfl, hdrift tr w d s' b hr hrel hd⟩
  obtain ⟨order, b, hk, hrel⟩ := hk
  exact ⟨order, b, hk.linearizes, hrel⟩

/-- The same, where the object can be read off the state that the calls share. -/
theorem linearizes_read {p : Program ι σ π ε δ (Seen ω ψ)} {s t : World ι σ π}
    (stand : π → Stage ω ψ) (read : σ → α) (h : Run p.machine s tr t) (hs : read s.shared = g)
    (hidle : ∀ i, stand (s.phase i) = .idle)
    (hact : ∀ tr w i e s' q fs, Run p.machine s tr w →
      p.act i e w.shared (w.phase i) = some (s', q, fs) →
      Moved obj (read w.shared) (stand (w.phase i)) fs (read s') (stand q))
    (hdrift : ∀ d s s', p.drift d s = some s' → read s' = read s) :
    ∃ order, Linearizes obj g tr order (read t.shared) := by
  obtain ⟨order, b, hl, hb⟩ : ∃ order b, Linearizes obj g tr order b ∧ read t.shared = b := by
    apply linearizes stand (fun w b => read w.shared = b) h hs hidle
    · rintro tr w i e s' q fs _ hr rfl ha
      exact ⟨_, hact tr w i e s' q fs hr ha, rfl⟩
    · intro tr w d s' a _ hr hd
      exact (hdrift d w.shared s' hd).trans hr
  exact ⟨order, hb ▸ hl⟩

end BetterAuthBridge.Library.Linearize
