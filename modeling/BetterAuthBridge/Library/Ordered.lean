import Mathlib.Data.List.Basic

namespace BetterAuthBridge.Library.Ordered

variable {κ α : Type}

/-- A dictionary that remembers the order its keys were first put in. -/
abbrev Table (κ α : Type) := List (κ × α)

/-- `while len(t) >= cap: t.pop(next(iter(t)))`. -/
def evicted (cap : Nat) : Table κ α → Table κ α
  | [] => []
  | e :: t => if cap ≤ t.length + 1 then evicted cap t else e :: t

theorem evicted_suffix (cap : Nat) (t : Table κ α) : evicted cap t <:+ t := by
  induction t with
  | nil => exact List.suffix_rfl
  | cons e t ih =>
    unfold evicted
    split
    · exact ih.trans (List.suffix_cons e t)
    · exact List.suffix_rfl

theorem evicted_of_lt {cap : Nat} {t : Table κ α} (h : t.length < cap) : evicted cap t = t := by
  cases t with
  | nil => rfl
  | cons e t => exact if_neg (Nat.not_le.mpr h)

theorem length_evicted_lt {cap : Nat} (hcap : 0 < cap) (t : Table κ α) :
    (evicted cap t).length < cap := by
  induction t with
  | nil => exact hcap
  | cons e t ih =>
    unfold evicted
    split
    · exact ih
    · rename_i h
      exact Nat.not_le.mp h

theorem evicted_first {cap : Nat} {t : Table κ α} {e : κ × α} (hlen : t.length ≤ cap) (he : e ∈ t)
    (hn : e ∉ evicted cap t) : t.length = cap ∧ t = e :: evicted cap t := by
  cases t with
  | nil => cases he
  | cons d t =>
    by_cases hfull : cap ≤ t.length + 1
    · have hrest : evicted cap (d :: t) = t := by
        unfold evicted
        rw [if_pos hfull, evicted_of_lt (Nat.lt_of_succ_le hlen)]
      rw [hrest] at hn ⊢
      obtain rfl | he := List.mem_cons.mp he
      · exact ⟨Nat.le_antisymm hlen hfull, rfl⟩
      · exact (hn he).elim
    · rw [evicted_of_lt (Nat.not_le.mp hfull)] at hn
      exact (hn he).elim

variable [DecidableEq κ]

def get (t : Table κ α) (k : κ) : Option α := (t.find? fun e => e.1 = k).map Prod.snd

/-- An existing key keeps its place. -/
def set (t : Table κ α) (k : κ) (a : α) : Table κ α :=
  if (get t k).isSome then t.map fun e => if e.1 = k then (k, a) else e else t ++ [(k, a)]

def erase (t : Table κ α) (k : κ) : Table κ α := t.filter fun e => e.1 ≠ k

theorem mem_of_get {t : Table κ α} {k : κ} {a : α} (h : get t k = some a) : (k, a) ∈ t := by
  obtain ⟨e, he, rfl⟩ := Option.map_eq_some_iff.mp h
  have hk : e.1 = k := by simpa using List.find?_some he
  exact hk ▸ List.mem_of_find?_eq_some he

theorem get_set_self (t : Table κ α) (k : κ) (a : α) : get (set t k a) k = some a := by
  unfold set
  split
  · rename_i h
    induction t with
    | nil => cases h
    | cons e t ih =>
      by_cases hk : e.1 = k
      · simp [get, hk]
      · simpa [get, hk] using ih (by simpa [get, hk] using h)
  · rename_i h
    have hn : t.find? (fun e => e.1 = k) = none := by
      simpa only [get, Option.isSome_map, Option.not_isSome_iff_eq_none] using h
    simp [get, List.find?_append, hn]

theorem get_cons (e : κ × α) (t : Table κ α) (k : κ) :
    get (e :: t) k = if e.1 = k then some e.2 else get t k := by
  by_cases hk : e.1 = k <;> simp [get, hk]

theorem get_append (t u : Table κ α) (k : κ) : get (t ++ u) k = (get t k).or (get u k) := by
  induction t with
  | nil => rfl
  | cons e t ih =>
    rw [List.cons_append, get_cons, get_cons, ih]
    split <;> rfl

theorem get_eq_none_iff {t : Table κ α} {k : κ} : get t k = none ↔ k ∉ t.map Prod.fst := by
  induction t with
  | nil => simp [get]
  | cons e t ih =>
    rw [get_cons, List.map_cons, List.mem_cons, not_or, ← ih]
    by_cases hk : e.1 = k
    · simp [hk]
    · simp [hk, Ne.symm hk]

theorem set_of_get_eq_none {t : Table κ α} {k : κ} (h : get t k = none) (a : α) :
    set t k a = t ++ [(k, a)] := by
  simp [set, h]

theorem map_fst_set {t : Table κ α} {k : κ} (h : (get t k).isSome = true) (a : α) :
    (set t k a).map Prod.fst = t.map Prod.fst := by
  rw [set, if_pos h, List.map_map]
  apply List.map_congr_left
  intro e _
  by_cases hk : e.1 = k <;> simp [hk]

theorem nodup_set {t : Table κ α} (h : (t.map Prod.fst).Nodup) (k : κ) (a : α) :
    ((set t k a).map Prod.fst).Nodup := by
  cases hg : get t k with
  | some b =>
    rw [map_fst_set (by simp [hg])]
    exact h
  | none =>
    have hfresh : ∀ k' ∈ t.map Prod.fst, k' ≠ k := by
      rintro k' hk rfl
      exact get_eq_none_iff.mp hg hk
    rw [set_of_get_eq_none hg, List.map_append, List.nodup_append]
    exact ⟨h, by simp, by simpa using hfresh⟩

theorem get_set_of_ne {t : Table κ α} {k k' : κ} (h : k' ≠ k) (a : α) :
    get (set t k a) k' = get t k' := by
  have hmap : ∀ u : Table κ α,
      get (u.map fun e => if e.1 = k then (k, a) else e) k' = get u k' := by
    intro u
    induction u with
    | nil => rfl
    | cons e u ih =>
      rw [List.map_cons, get_cons, get_cons, ih]
      by_cases hk : e.1 = k
      · simp [hk, Ne.symm h]
      · simp [hk]
  unfold set
  split
  · exact hmap t
  · rw [get_append, get_cons, if_neg (Ne.symm h)]
    exact Option.or_none

def update (t u : Table κ α) : Table κ α := u.foldl (fun t e => set t e.1 e.2) t

theorem nodup_update {t : Table κ α} (h : (t.map Prod.fst).Nodup) (u : Table κ α) :
    ((update t u).map Prod.fst).Nodup := by
  induction u generalizing t with
  | nil => exact h
  | cons e u ih => exact ih (nodup_set h e.1 e.2)

/-- The last entry for a key is the one that stays. -/
theorem get_update (t u : Table κ α) (k : κ) :
    get (update t u) k = (get u.reverse k).or (get t k) := by
  induction u generalizing t with
  | nil => rfl
  | cons e u ih =>
    rw [update, List.foldl_cons, ← update, ih, List.reverse_cons, get_append, Option.or_assoc]
    congr 1
    rw [get_cons]
    by_cases hk : e.1 = k
    · rw [if_pos hk, ← hk, get_set_self]
      rfl
    · rw [if_neg hk, get_set_of_ne (Ne.symm hk)]
      rfl

theorem mem_map_fst {t : Table κ α} {k : κ} :
    k ∈ t.map Prod.fst ↔ (get t k).isSome = true := by
  rw [← Option.ne_none_iff_isSome, ne_eq, get_eq_none_iff, not_not]

theorem get_of_mem {t : Table κ α} (h : (t.map Prod.fst).Nodup) {e : κ × α} (he : e ∈ t) :
    get t e.1 = some e.2 := by
  induction t with
  | nil => cases he
  | cons d t ih =>
    obtain ⟨hd, ht⟩ := List.nodup_cons.mp h
    rw [get_cons]
    obtain rfl | he := List.mem_cons.mp he
    · exact if_pos rfl
    · have hne : d.1 ≠ e.1 := fun hk => hd (hk ▸ List.mem_map_of_mem he)
      rw [if_neg hne]
      exact ih ht he

theorem mem_set_of_ne {t : Table κ α} {k : κ} {e : κ × α} (he : e ∈ t) (hk : e.1 ≠ k) (a : α) :
    e ∈ set t k a := by
  unfold set
  split
  · exact List.mem_map.mpr ⟨e, he, if_neg hk⟩
  · exact List.mem_append_left _ he

theorem mem_set_self (t : Table κ α) (k : κ) (a : α) : (k, a) ∈ set t k a :=
  mem_of_get (get_set_self t k a)

theorem length_set_of_get {t : Table κ α} {k : κ} (h : (get t k).isSome = true) (a : α) :
    (set t k a).length = t.length := by
  simpa using congrArg List.length (map_fst_set h a)

theorem get_reverse {t : Table κ α} (h : (t.map Prod.fst).Nodup) (k : κ) :
    get t.reverse k = get t k := by
  have hr : (t.reverse.map Prod.fst).Nodup := by
    rw [List.map_reverse]
    exact List.pairwise_reverse.mpr (h.imp Ne.symm)
  cases hg : get t k with
  | none =>
    rw [get_eq_none_iff] at hg ⊢
    simpa using hg
  | some a => exact get_of_mem hr (e := (k, a)) (List.mem_reverse.mpr (mem_of_get hg))

theorem set_of_get {t : Table κ α} (h : (t.map Prod.fst).Nodup) {k : κ} {a : α}
    (hg : get t k = some a) : set t k a = t := by
  unfold set
  rw [if_pos (by simp [hg])]
  conv_rhs => rw [← List.map_id t]
  apply List.map_congr_left
  intro e he
  by_cases hk : e.1 = k
  · have ha : e.2 = a := Option.some.inj ((get_of_mem h he).symm.trans (hk ▸ hg))
    rw [if_pos hk, ← hk, ← ha]
    rfl
  · exact if_neg hk

theorem update_of_get {t u : Table κ α} (h : (t.map Prod.fst).Nodup)
    (hu : ∀ e ∈ u, get t e.1 = some e.2) : update t u = t := by
  induction u with
  | nil => rfl
  | cons e u ih =>
    rw [update, List.foldl_cons, set_of_get h (hu e List.mem_cons_self), ← update]
    exact ih fun d hd => hu d (List.mem_cons_of_mem e hd)

theorem update_append (t u v : Table κ α) : update t (u ++ v) = update (update t u) v :=
  List.foldl_append

/-- Fresh keys are put behind the ones that are there, in their order. -/
theorem update_of_fresh {t u : Table κ α} (h : ((t ++ u).map Prod.fst).Nodup) :
    update t u = t ++ u := by
  induction u generalizing t with
  | nil => exact (List.append_nil t).symm
  | cons e u ih =>
    have hfresh : get t e.1 = none := by
      rw [get_eq_none_iff]
      rw [List.map_append, List.map_cons, List.nodup_append] at h
      intro hm
      exact h.2.2 _ hm _ List.mem_cons_self rfl
    rw [List.append_cons] at h ⊢
    rw [update, List.foldl_cons, set_of_get_eq_none hfresh, ← update]
    exact ih h

theorem mem_of_mem_set {t : Table κ α} {k : κ} {a : α} {e : κ × α} (h : e ∈ set t k a) :
    e = (k, a) ∨ e ∈ t := by
  unfold set at h
  split at h
  · obtain ⟨d, hd, rfl⟩ := List.mem_map.mp h
    by_cases hk : d.1 = k
    · simp [hk]
    · simp [hk, hd]
  · obtain h | h := List.mem_append.mp h
    · exact Or.inr h
    · exact Or.inl (List.mem_singleton.mp h)

theorem mem_of_mem_erase {t : Table κ α} {k : κ} {e : κ × α} (h : e ∈ erase t k) : e ∈ t :=
  (List.mem_filter.mp h).1

end BetterAuthBridge.Library.Ordered
