import Mathlib.Data.Finset.Card
import BetterAuthBridge.Library.Runs
import BetterAuthBridge.Values

namespace BetterAuthBridge.Outages

open Library.Runs Values

def maxReportedKinds : Nat := 8

inductive Admission
  | report
  | overflow
  | silent
  deriving DecidableEq

structure OutageLatch (κ : Type) where
  reported : Finset κ
  overflowed : Bool

inductive Call (κ : Type)
  | admitKind (kind : κ)
  | rearm

namespace OutageLatch

variable {κ : Type} [DecidableEq κ]

def new : OutageLatch κ := ⟨∅, false⟩

def admitKind (latch : OutageLatch κ) (kind : κ) : OutageLatch κ × Admission :=
  if latch.overflowed = true ∨ kind ∈ latch.reported then (latch, .silent)
  else if maxReportedKinds ≤ latch.reported.card then ({ latch with overflowed := true }, .overflow)
  else ({ latch with reported := insert kind latch.reported }, .report)

def cleared (latch : OutageLatch κ) : OutageLatch κ :=
  { latch with reported := ∅, overflowed := false }

/-- The early return looks at the reported kinds alone. -/
def rearm (latch : OutageLatch κ) : OutageLatch κ :=
  if latch.reported = ∅ then latch else latch.cleared

def step : Machine (OutageLatch κ) (Call κ) (κ × Admission)
  | latch, .admitKind kind => some ((latch.admitKind kind).1, [(kind, (latch.admitKind kind).2)])
  | latch, .rearm => some (latch.rearm, [])

end OutageLatch

abbrev Calls (κ : Type) := List (Transition (OutageLatch κ) (Call κ) (κ × Admission))

section

variable {κ : Type}

def since (tr : Calls κ) : List (κ × Admission) :=
  tr.foldl (fun answers x => match x.event with
    | .admitKind _ => answers ++ x.effects
    | .rearm => []) []

def told (admission : Admission) (answers : List (κ × Admission)) : List κ :=
  (answers.filter fun answer => answer.2 = admission).map Prod.fst

variable {s t : OutageLatch κ} {tr : Calls κ}
  {kind : κ} {admission admission' : Admission} {answers : List (κ × Admission)}

theorem since_admitKind {fs : List (κ × Admission)} :
    since (tr ++ [⟨s, .admitKind kind, fs, t⟩]) = since tr ++ fs := by
  rw [since, List.foldl_append, List.foldl_cons, List.foldl_nil]
  rfl

theorem since_rearm {fs : List (κ × Admission)} : since (tr ++ [⟨s, .rearm, fs, t⟩]) = [] := by
  rw [since, List.foldl_append, List.foldl_cons, List.foldl_nil]

theorem told_snoc : told admission (answers ++ [(kind, admission')]) =
    told admission answers ++ if admission' = admission then [kind] else [] := by
  rw [told, List.filter_append, List.map_append, List.filter_singleton, told]
  by_cases h : admission' = admission
  · simp only [h, decide_true, if_true, Bool.cond_true, List.map_cons, List.map_nil]
  · simp only [h, decide_false, if_false, Bool.cond_false, List.map_nil]

theorem told_silent {admission : Admission} (h : admission ≠ .silent) :
    told admission (answers ++ [(kind, .silent)]) = told admission answers := by
  rw [told_snoc, if_neg h.symm, List.append_nil]

end

variable {κ : Type} [DecidableEq κ] {s t u : OutageLatch κ} {tr a b : Calls κ} {kind : κ}
  {answers : List (κ × Admission)}

def kinds (answers : List (κ × Admission)) : Finset κ := (answers.map Prod.fst).toFinset

theorem kinds_snoc {admission : Admission} :
    kinds (answers ++ [(kind, admission)]) = insert kind (kinds answers) := by
  ext k
  simp only [kinds, List.map_append, List.map_cons, List.map_nil, List.toFinset_append,
    List.toFinset_cons, List.toFinset_nil, Finset.mem_union, Finset.mem_insert, Finset.notMem_empty,
    or_false]
  exact or_comm

def due (kinds : Finset κ) (kind : κ) : Admission :=
  if kind ∈ kinds then .silent
  else if kinds.card < maxReportedKinds then .report
  else if kinds.card = maxReportedKinds then .overflow
  else .silent

/-- The latch holds the first kinds it was told of, as many as it reports, and whether there were
more. -/
structure Holds (answers : List (κ × Admission)) (s : OutageLatch κ) : Prop where
  reported : s.reported = (told .report answers).toFinset
  nodup : (told .report answers).Nodup
  seen : s.reported ⊆ kinds answers
  card : s.reported.card = min maxReportedKinds (kinds answers).card
  overflowed : s.overflowed = true ↔ maxReportedKinds < (kinds answers).card
  overflows : (told .overflow answers).length = if s.overflowed = true then 1 else 0

theorem kinds_nil : kinds ([] : List (κ × Admission)) = ∅ := rfl

theorem holds_new : Holds [] (OutageLatch.new : OutageLatch κ) where
  reported := rfl
  nodup := List.nodup_nil
  seen := Finset.empty_subset _
  card := rfl
  overflowed := iff_of_false nofun (by rw [kinds_nil, Finset.card_empty]; decide)
  overflows := rfl

theorem Holds.all (h : Holds answers s) (hle : (kinds answers).card ≤ maxReportedKinds) :
    s.reported = kinds answers := by
  apply Finset.eq_of_subset_of_card_le h.seen
  rw [h.card]
  omega

theorem Holds.full (h : Holds answers s) (ho : s.overflowed = true) :
    s.reported.card = maxReportedKinds := by
  have hlt := h.overflowed.mp ho
  rw [h.card]
  omega

/-- A failure is of a kind already seen, or of a new one among the first, the one past them or a
later one. -/
theorem Holds.cases (h : Holds answers s) (kind : κ) :
    (kind ∈ kinds answers ∧ s.admitKind kind = (s, .silent)) ∨
    kind ∉ kinds answers ∧ kind ∉ s.reported ∧
      (((kinds answers).card < maxReportedKinds ∧ s.overflowed = false ∧
          s.admitKind kind = ({ s with reported := insert kind s.reported }, .report)) ∨
        ((kinds answers).card = maxReportedKinds ∧ s.overflowed = false ∧
          s.admitKind kind = ({ s with overflowed := true }, .overflow)) ∨
        (maxReportedKinds < (kinds answers).card ∧ s.overflowed = true ∧
          s.admitKind kind = (s, .silent))) := by
  by_cases hk : kind ∈ kinds answers
  · refine .inl ⟨hk, if_pos ?_⟩
    by_cases hlt : maxReportedKinds < (kinds answers).card
    · exact .inl (h.overflowed.mpr hlt)
    · rw [h.all (Nat.le_of_not_lt hlt)]
      exact .inr hk
  · have hr : kind ∉ s.reported := fun hr => hk (h.seen hr)
    refine .inr ⟨hk, hr, ?_⟩
    by_cases hlt : maxReportedKinds < (kinds answers).card
    · have ho := h.overflowed.mpr hlt
      exact .inr (.inr ⟨hlt, ho, if_pos (.inl ho)⟩)
    · have ho : ¬ s.overflowed = true := fun ho => hlt (h.overflowed.mp ho)
      have hnew : ¬ (s.overflowed = true ∨ kind ∈ s.reported) := not_or.mpr ⟨ho, hr⟩
      have hcard := h.card
      rw [OutageLatch.admitKind, if_neg hnew]
      by_cases heq : (kinds answers).card = maxReportedKinds
      · rw [if_pos (by omega)]
        exact .inr (.inl ⟨heq, Bool.eq_false_iff.mpr ho, rfl⟩)
      · rw [if_neg (by omega)]
        exact .inl ⟨by omega, Bool.eq_false_iff.mpr ho, rfl⟩

theorem Holds.due (h : Holds answers s) (kind : κ) :
    (s.admitKind kind).2 = due (kinds answers) kind := by
  rw [Outages.due]
  obtain ⟨hk, he⟩ | ⟨hk, -, ⟨hc, -, he⟩ | ⟨hc, -, he⟩ | ⟨hc, -, he⟩⟩ := h.cases kind
  · rw [he, if_pos hk]
  · rw [he, if_neg hk, if_pos hc]
  · rw [he, if_neg hk, if_neg (by omega), if_pos hc]
  · rw [he, if_neg hk, if_neg (by omega), if_neg (by omega)]

theorem Holds.silent (h : Holds answers s)
    (hs : kind ∈ kinds answers ∨ maxReportedKinds < (kinds answers).card) :
    Holds (answers ++ [(kind, .silent)]) s := by
  have hcard := h.card
  have hover := h.overflowed
  have hkinds : (kinds (answers ++ [(kind, .silent)])).card = (kinds answers).card ∨
      maxReportedKinds < (kinds answers).card ∧
        (kinds answers).card ≤ (kinds (answers ++ [(kind, .silent)])).card := by
    rw [kinds_snoc]
    obtain hk | hlt := hs
    · rw [Finset.insert_eq_of_mem hk]
      exact .inl rfl
    · exact .inr ⟨hlt, Finset.card_le_card (Finset.subset_insert kind _)⟩
  constructor
  · rw [told_silent (by decide)]
    exact h.reported
  · rw [told_silent (by decide)]
    exact h.nodup
  · rw [kinds_snoc]
    exact h.seen.trans (Finset.subset_insert kind _)
  · omega
  · rw [hover]
    omega
  · rw [told_silent (by decide)]
    exact h.overflows

theorem Holds.report (h : Holds answers s) (hk : kind ∉ kinds answers) (hr : kind ∉ s.reported)
    (hlt : (kinds answers).card < maxReportedKinds) (ho : s.overflowed = false) :
    Holds (answers ++ [(kind, .report)]) { s with reported := insert kind s.reported } := by
  have hcard := h.card
  have hkinds : (kinds (answers ++ [(kind, .report)])).card = (kinds answers).card + 1 := by
    rw [kinds_snoc, Finset.card_insert_of_notMem hk]
  constructor
  · rw [told_snoc, if_pos rfl, List.toFinset_append, ← h.reported]
    ext k
    simp only [Finset.mem_insert, Finset.mem_union, List.toFinset_cons, List.toFinset_nil,
      Finset.notMem_empty, or_false]
    exact or_comm
  · rw [told_snoc, if_pos rfl]
    apply h.nodup.append (List.nodup_singleton kind)
    intro k hk' hs
    obtain rfl := List.mem_singleton.mp hs
    rw [h.reported] at hr
    exact hr (List.mem_toFinset.mpr hk')
  · rw [kinds_snoc]
    exact Finset.insert_subset_insert kind h.seen
  · rw [hkinds, Finset.card_insert_of_notMem hr]
    omega
  · rw [hkinds, ho]
    exact iff_of_false nofun (by omega)
  · rw [told_snoc, if_neg (by decide), List.append_nil]
    exact h.overflows

theorem Holds.overflow (h : Holds answers s) (hk : kind ∉ kinds answers)
    (heq : (kinds answers).card = maxReportedKinds) (ho : s.overflowed = false) :
    Holds (answers ++ [(kind, .overflow)]) { s with overflowed := true } := by
  have hcard := h.card
  have hkinds : (kinds (answers ++ [(kind, .overflow)])).card = (kinds answers).card + 1 := by
    rw [kinds_snoc, Finset.card_insert_of_notMem hk]
  constructor
  · rw [told_snoc, if_neg (by decide), List.append_nil]
    exact h.reported
  · rw [told_snoc, if_neg (by decide), List.append_nil]
    exact h.nodup
  · rw [kinds_snoc]
    exact h.seen.trans (Finset.subset_insert kind _)
  · rw [hkinds, hcard]
    omega
  · rw [hkinds]
    exact iff_of_true rfl (by omega)
  · rw [told_snoc, if_pos rfl, List.length_append, h.overflows, ho]
    rfl

theorem Holds.admitKind (h : Holds answers s) (kind : κ) :
    Holds (answers ++ [(kind, (s.admitKind kind).2)]) (s.admitKind kind).1 := by
  obtain ⟨hk, he⟩ | ⟨hk, hr, ⟨hc, ho, he⟩ | ⟨hc, ho, he⟩ | ⟨hc, ho, he⟩⟩ := h.cases kind
  · rw [he]
    exact h.silent (.inl hk)
  · rw [he]
    exact h.report hk hr hc ho
  · rw [he]
    exact h.overflow hk hc ho
  · rw [he]
    exact h.silent (.inr hc)

theorem Holds.rearm (h : Holds answers s) : s.rearm = s.cleared := by
  rw [OutageLatch.rearm]
  split
  · rename_i he
    -- an empty latch cannot have overflowed, for then it would be full
    have ho : s.overflowed = false := by
      rw [Bool.eq_false_iff]
      intro ho
      have hfull := h.full ho
      rw [he, Finset.card_empty] at hfull
      cases hfull
    rw [OutageLatch.cleared, ← he, ← ho]
  · rfl

theorem holds_run (h : Run OutageLatch.step OutageLatch.new tr s) : Holds (since tr) s := by
  apply h.invariant (I := fun tr s => Holds (since tr) s)
  · exact holds_new
  · rintro tr t (kind | _) u fs _ ht he
    · cases he
      rw [since_admitKind]
      exact ht.admitKind kind
    · cases he
      rw [since_rearm, ht.rearm]
      exact holds_new

theorem Holds.told_length (h : Holds answers s) : (told .report answers).length = s.reported.card := by
  rw [h.reported, List.toFinset_card_of_nodup h.nodup]

theorem Holds.told_le (h : Holds answers s) :
    (told .report answers).length ≤ maxReportedKinds := by
  rw [h.told_length, h.card]
  exact min_le_left _ _

theorem Holds.overflows_le (h : Holds answers s) : (told .overflow answers).length ≤ 1 := by
  rw [h.overflows]
  split <;> decide

/-- Once it has overflowed, a latch is silent until it is rearmed. -/
theorem silent_run (h : Run OutageLatch.step s tr t) (ho : s.overflowed = true) :
    (∀ y ∈ tr, y.event ≠ .rearm) →
      t.overflowed = true ∧ ∀ y ∈ tr, ∀ f ∈ y.effects, f.2 = .silent := by
  apply h.invariant (I := fun tr t => (∀ y ∈ tr, y.event ≠ .rearm) →
    t.overflowed = true ∧ ∀ y ∈ tr, ∀ f ∈ y.effects, f.2 = .silent)
  · intro _
    exact ⟨ho, nofun⟩
  · intro tr t e u fs _ ih he hn
    obtain ⟨hover, hsilent⟩ := ih fun y hy => hn y (List.mem_append_left _ hy)
    cases e with
    | rearm => exact absurd rfl (hn _ (List.mem_append_right _ List.mem_cons_self))
    | admitKind kind =>
      have hquiet : t.admitKind kind = (t, .silent) := if_pos (.inl hover)
      cases he
      rw [hquiet]
      refine ⟨hover, fun y hy => ?_⟩
      obtain hy | hy := List.mem_append.mp hy
      · exact hsilent y hy
      · obtain rfl := List.mem_singleton.mp hy
        intro f hf
        obtain rfl := List.mem_singleton.mp hf
        rfl

theorem overflow_cases (h : Holds answers s) (ho : (s.admitKind kind).2 = .overflow) :
    (told .report answers).length = maxReportedKinds ∧ (s.admitKind kind).1.overflowed = true := by
  obtain ⟨-, he⟩ | ⟨-, -, ⟨-, -, he⟩ | ⟨hc, -, he⟩ | ⟨-, -, he⟩⟩ := h.cases kind
  · rw [he] at ho
    cases ho
  · rw [he] at ho
    cases ho
  · have hcard := h.card
    refine ⟨by rw [h.told_length]; omega, ?_⟩
    rw [he]
  · rw [he] at ho
    cases ho

/-- Between two rearms each of the first kinds is told once, one notice covers the rest, and every
rearm makes all of them news again. -/
structure Announces (κ : Type) [DecidableEq κ] : Prop where
  answered : ∀ (tr : Calls κ) s kind, Run OutageLatch.step OutageLatch.new tr s →
    (s.admitKind kind).2 = due (kinds (since tr)) kind
  reported : ∀ (tr : Calls κ) s, Run OutageLatch.step OutageLatch.new tr s →
    (told .report (since tr)).Nodup ∧ (told .report (since tr)).length ≤ maxReportedKinds
  overflowed : ∀ (tr : Calls κ) s, Run OutageLatch.step OutageLatch.new tr s →
    (told .overflow (since tr)).length ≤ 1
  last : ∀ (a b : Calls κ) x s kind, Run OutageLatch.step OutageLatch.new (a ++ x :: b) s →
    (kind, .overflow) ∈ x.effects → (∀ y ∈ b, y.event ≠ .rearm) →
    (told .report (since a)).length = maxReportedKinds ∧ ∀ y ∈ b, ∀ f ∈ y.effects, f.2 = .silent
  full : ∀ (tr : Calls κ) s, Run OutageLatch.step OutageLatch.new tr s → s.overflowed = true →
    s.reported.card = maxReportedKinds
  rearmed : ∀ (tr : Calls κ) s, Run OutageLatch.step OutageLatch.new tr s → s.rearm = s.cleared

theorem outages_announced (κ : Type) [DecidableEq κ] : Announces κ := by
  constructor
  · intro tr s kind h
    exact (holds_run h).due kind
  · intro tr s h
    exact ⟨(holds_run h).nodup, (holds_run h).told_le⟩
  · intro tr s h
    exact (holds_run h).overflows_le
  · rintro a b ⟨before, event, fs, after⟩ s kind h hf hn
    obtain ⟨ha, he, hb⟩ := h.at
    dsimp only at ha he hb
    cases event with
    | rearm =>
      obtain ⟨-, rfl⟩ := Prod.mk.inj (Option.some.inj he)
      cases hf
    | admitKind kind' =>
      obtain ⟨rfl, rfl⟩ := Prod.mk.inj (Option.some.inj he)
      obtain ⟨rfl, ho⟩ := Prod.mk.inj (List.mem_singleton.mp hf)
      obtain ⟨hlen, hover⟩ := overflow_cases (holds_run ha) ho.symm
      exact ⟨hlen, (silent_run hb hover hn).2⟩
  · intro tr s h
    exact (holds_run h).full
  · intro tr s h
    exact (holds_run h).rearm

example : (replay OutageLatch.step OutageLatch.new ((List.range 10).map Call.admitKind ++
    [.admitKind 0, .rearm, .admitKind 9])).map (fun r => (r.1.flatMap (·.effects)).map Prod.snd) =
    some (List.replicate 8 .report ++ [.overflow, .silent, .silent, .report]) := by decide

end BetterAuthBridge.Outages
