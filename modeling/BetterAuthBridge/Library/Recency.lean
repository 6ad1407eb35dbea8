import BetterAuthBridge.Library.Ordered
import Mathlib.Data.List.Dedup
import Mathlib.Order.Basic

namespace BetterAuthBridge.Library.Recency

open Ordered

variable {κ α : Type} [DecidableEq κ] {t u : Table κ α} {k k' : κ} {ks later : List κ} {a : α}
  {e : κ × α} {cap : Nat}

/-- Put a key at the end of a table, wherever it stood. -/
def refresh (t : Table κ α) (k : κ) (a : α) : Table κ α := erase t k ++ [(k, a)]

def Newest (t : Table κ α) (k : κ) : Prop := get t k = none ∨ ∃ u a, t = u ++ [(k, a)]

theorem newest_iff :
    Newest t k ↔ get t k = none ∨ t.getLast?.map Prod.fst = some k := by
  refine or_congr_right ⟨?_, ?_⟩
  · rintro ⟨u, a, rfl⟩
    simp
  · intro h
    obtain ⟨⟨k', a⟩, hl, rfl⟩ := Option.map_eq_some_iff.mp h
    obtain ⟨u, rfl⟩ := List.getLast?_eq_some_iff.mp hl
    exact ⟨u, a, rfl⟩

instance [DecidableEq α] : Decidable (Newest t k) := decidable_of_iff _ newest_iff.symm

/-- The keys of a table stand in the order in which they were last put in. -/
def InOrder (ks : List κ) (t : Table κ α) : Prop := (t.map Prod.fst).Sublist ks.dedup

theorem InOrder.nil (ks : List κ) : InOrder ks ([] : Table κ α) := List.nil_sublist _

theorem InOrder.nodup (h : InOrder ks t) : (t.map Prod.fst).Nodup :=
  List.Sublist.nodup h (List.nodup_dedup ks)

theorem InOrder.sublist (h : InOrder ks t) (hu : u.Sublist t) : InOrder ks u :=
  (hu.map Prod.fst).trans h

theorem erase_of_get_eq_none (h : get t k = none) : erase t k = t := by
  rw [get_eq_none_iff] at h
  refine List.filter_eq_self.mpr fun e he => decide_eq_true ?_
  rintro rfl
  exact h (List.mem_map_of_mem he)

theorem erase_snoc (h : get t k = none) (a : α) : erase (t ++ [(k, a)]) k = t := by
  have hu : (t.filter fun e => e.1 ≠ k) = t := erase_of_get_eq_none h
  rw [erase, List.filter_append, hu]
  simp

theorem map_of_get_eq_none (h : get t k = none) (a : α) :
    (t.map fun e => if e.1 = k then (k, a) else e) = t := by
  conv_rhs => rw [← List.map_id t]
  apply List.map_congr_left
  intro e he
  have hne : e.1 ≠ k := by
    rintro rfl
    exact get_eq_none_iff.mp h (List.mem_map_of_mem he)
  rw [if_neg hne, id]

/-- Setting a key in its place puts it at the end only if it stood there, or nowhere. -/
theorem set_eq_refresh (hn : (t.map Prod.fst).Nodup) (h : Newest t k) (a : α) :
    Ordered.set t k a = refresh t k a := by
  obtain h | ⟨u, b, rfl⟩ := h
  · rw [set_of_get_eq_none h, refresh, erase_of_get_eq_none h]
  · have hu : get u k = none := by
      rw [List.map_append, List.nodup_append] at hn
      rw [get_eq_none_iff]
      intro hm
      exact hn.2.2 k hm k (by simp) rfl
    have hsome : (get (u ++ [(k, b)]) k).isSome = true := by simp [get_append, hu, get_cons]
    rw [Ordered.set, if_pos hsome, refresh, erase_snoc hu, List.map_append,
      map_of_get_eq_none hu]
    simp

theorem dedup_snoc (ks : List κ) (k : κ) :
    (ks ++ [k]).dedup = (ks.dedup.filter fun x => x ≠ k) ++ [k] := by
  induction ks with
  | nil => simp
  | cons x ks ih =>
    by_cases hx : x ∈ ks
    · have hm : x ∈ ks ++ [k] := List.mem_append_left _ hx
      rw [List.cons_append, List.dedup_cons_of_mem hm, List.dedup_cons_of_mem hx, ih]
    · by_cases hk : x = k
      · have hm : x ∈ ks ++ [k] := by simp [hk]
        rw [List.cons_append, List.dedup_cons_of_mem hm, List.dedup_cons_of_notMem hx, ih]
        simp [hk]
      · have hm : x ∉ ks ++ [k] := by simp [hx, hk]
        rw [List.cons_append, List.dedup_cons_of_notMem hm, List.dedup_cons_of_notMem hx, ih]
        simp [hk]

theorem InOrder.refresh (h : InOrder ks t) (k : κ) (a : α) :
    InOrder (ks ++ [k]) (refresh t k a) := by
  rw [InOrder, dedup_snoc, Recency.refresh, List.map_append]
  refine List.Sublist.append ?_ (List.Sublist.refl _)
  have hf : (erase t k).map Prod.fst = (t.map Prod.fst).filter fun x => x ≠ k := by
    rw [erase, List.filter_map]
    rfl
  rw [hf]
  exact h.filter _

theorem dedup_last (h : k ∉ later) (ks : List κ) :
    ∃ earlier, (ks ++ k :: later).dedup = earlier ++ k :: later.dedup ∧ k ∉ earlier := by
  induction ks with
  | nil => exact ⟨[], by simp [h], List.not_mem_nil⟩
  | cons x ks ih =>
    obtain ⟨earlier, he, hn⟩ := ih
    by_cases hx : x ∈ ks ++ k :: later
    · exact ⟨earlier, by rw [List.cons_append, List.dedup_cons_of_mem hx, he], hn⟩
    · have hk : k ≠ x := by
        rintro rfl
        exact hx (by simp)
      refine ⟨x :: earlier, ?_, by simp [hk, hn]⟩
      rw [List.cons_append, List.dedup_cons_of_notMem hx, he, List.cons_append]

omit [DecidableEq κ] in
theorem sublist_past {xs ys zs : List κ} (hn : k ∉ xs) (h : (k :: ys).Sublist (xs ++ k :: zs)) :
    ys.Sublist zs := by
  induction xs with
  | nil => exact List.cons_sublist_cons.mp h
  | cons x xs ih =>
    have hne : k ≠ x := fun he => hn (he ▸ List.mem_cons_self)
    refine ih (fun hm => hn (List.mem_cons_of_mem x hm)) ?_
    cases h with
    | cons _ h => exact h
    | cons_cons => exact (hne rfl).elim

/-- What stands after an entry was put in after it. -/
theorem InOrder.after (h : InOrder (ks ++ k :: later) ((k, a) :: t)) (hk : k ∉ later) :
    InOrder later t := by
  obtain ⟨earlier, he, hn⟩ := dedup_last hk ks
  rw [InOrder, he] at h
  exact sublist_past hn h

/-- `k'` was put in after `k` last was. -/
def PutInSince (ks : List κ) (k k' : κ) : Prop :=
  ∃ earlier later, ks = earlier ++ k :: later ∧ k ∉ later ∧ k' ∈ later

omit [DecidableEq κ] in
theorem exists_last {p : κ → Prop} (h : ∃ x ∈ ks, p x) :
    ∃ earlier x later, ks = earlier ++ x :: later ∧ p x ∧ ∀ y ∈ later, ¬ p y := by
  induction ks with
  | nil =>
    obtain ⟨x, hx, -⟩ := h
    cases hx
  | cons z ks ih =>
    by_cases hrest : ∃ x ∈ ks, p x
    · obtain ⟨earlier, x, later, rfl, hx, hl⟩ := ih hrest
      exact ⟨z :: earlier, x, later, rfl, hx, hl⟩
    · obtain ⟨x, hx, hp⟩ := h
      obtain rfl | hx := List.mem_cons.mp hx
      · exact ⟨[], x, ks, rfl, hp, fun y hy hpy => hrest ⟨y, hy, hpy⟩⟩
      · exact (hrest ⟨x, hx, hp⟩).elim

theorem InOrder.of_mem (h : InOrder ks t) (he : e ∈ t) : e.1 ∈ ks :=
  List.mem_dedup.mp (List.Sublist.subset h (List.mem_map_of_mem he))

theorem InOrder.putInSince (h : InOrder ks (e :: t)) {d : κ × α} (hd : d ∈ t) :
    PutInSince ks e.1 d.1 := by
  obtain ⟨earlier, k, later, rfl, rfl, hl⟩ := exists_last
    (p := fun k => k = e.1) ⟨e.1, h.of_mem List.mem_cons_self, rfl⟩
  have hn : e.1 ∉ later := fun hm => hl _ hm rfl
  exact ⟨earlier, later, rfl, hn, (h.after hn).of_mem hd⟩

theorem length_le_of_inOrder (h : InOrder ks t) : t.length ≤ ks.dedup.length := by
  simpa using List.Sublist.length_le h

section Age

variable {τ : Type} [Preorder τ] {v : Table κ τ} {d : κ × τ} {now : τ}

/-- The entries of a table, which hold the time they were put in at, stand by their age. -/
def Aged (t : Table κ τ) : Prop := t.Pairwise fun d e => d.2 ≤ e.2

omit [DecidableEq κ] in
theorem Aged.sublist {u : Table κ τ} (h : Aged v) (hu : u.Sublist v) : Aged u :=
  List.Pairwise.sublist hu h

omit [DecidableEq κ] in
theorem Aged.snoc (h : Aged v) (hv : ∀ d ∈ v, d.2 ≤ now) (k : κ) : Aged (v ++ [(k, now)]) := by
  rw [Aged, List.pairwise_append]
  refine ⟨h, List.pairwise_singleton _ _, fun d hd e he => ?_⟩
  rw [List.mem_singleton.mp he]
  exact hv d hd

def standingAfter (t : Table κ α) (k : κ) : Table κ α := (t.dropWhile fun e => e.1 ≠ k).tail

/-- A key may be stamped in its place when all that stands after it was stamped just now. -/
theorem Aged.set (h : Aged v) (hn : (v.map Prod.fst).Nodup) (hv : ∀ d ∈ v, d.2 ≤ now)
    (hk : ∀ d ∈ standingAfter v k, d.2 = now) : Aged (Ordered.set v k now) := by
  cases hg : get v k with
  | none =>
    rw [set_of_get_eq_none hg]
    exact h.snoc hv k
  | some stamp =>
    rw [Ordered.set, if_pos (by rw [hg]; rfl)]
    clear hg
    induction v with
    | nil => exact h
    | cons e v ih =>
      obtain ⟨hhead, htail⟩ := List.pairwise_cons.mp h
      obtain ⟨hfresh, hn⟩ := List.nodup_cons.mp hn
      rw [List.map_cons, Aged, List.pairwise_cons]
      by_cases hek : e.1 = k
      · have hnone : get v k = none := get_eq_none_iff.mpr (hek ▸ hfresh)
        have hrest : standingAfter (e :: v) k = v := by simp [standingAfter, hek]
        rw [hrest] at hk
        rw [if_pos hek, map_of_get_eq_none hnone]
        exact ⟨fun d hd => (hk d hd).ge, htail⟩
      · have hrest : standingAfter (e :: v) k = standingAfter v k := by
          simp [standingAfter, hek]
        rw [hrest] at hk
        rw [if_neg hek]
        refine ⟨?_, ih htail hn (fun d hd => hv d (List.mem_cons_of_mem e hd)) hk⟩
        intro d hd
        obtain ⟨d', hd', rfl⟩ := List.mem_map.mp hd
        by_cases hdk : d'.1 = k
        · rw [if_pos hdk]
          exact hv e List.mem_cons_self
        · rw [if_neg hdk]
          exact hhead d' hd'

omit [DecidableEq κ] in
/-- The only entry that a table at its bound gives up is its oldest. -/
theorem Aged.oldest {e : κ × τ} (h : Aged v) (hlen : v.length ≤ cap) (he : e ∈ v)
    (hn : e ∉ evicted cap v) (hd : d ∈ v) : e.2 ≤ d.2 := by
  obtain ⟨-, hv⟩ := evicted_first hlen he hn
  rw [hv] at hd h
  obtain rfl | hd := List.mem_cons.mp hd
  · exact le_refl _
  · exact List.rel_of_pairwise_cons h hd

end Age

end BetterAuthBridge.Library.Recency
