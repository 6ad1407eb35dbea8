import Mathlib.Data.List.DropRight
import Mathlib.Data.List.Sort
import Mathlib.Data.List.TakeWhile

namespace BetterAuthBridge.Library.Text

variable {α β : Type*}

/-- `xs[:bound]`: a negative bound counts from the end. -/
def slice (xs : List α) (bound : Int) : List α :=
  if bound < 0 then xs.take (xs.length + bound).toNat else xs.take bound.toNat

theorem slice_of_nonneg {bound : Int} (h : 0 ≤ bound) (xs : List α) :
    slice xs bound = xs.take bound.toNat := by
  rw [slice, if_neg (by omega)]

def trim (p : α → Bool) (l : List α) : List α := (l.dropWhile p).rdropWhile p

theorem trim_decomp (p : α → Bool) (l : List α) :
    ∃ a b, l = a ++ trim p l ++ b ∧ (∀ x ∈ a, p x) ∧ ∀ x ∈ b, p x := by
  refine ⟨l.takeWhile p, (l.dropWhile p).rtakeWhile p, ?_, ?_, ?_⟩
  · rw [trim, List.append_assoc, List.rdropWhile_append_rtakeWhile, List.takeWhile_append_dropWhile]
  · exact fun x hx => List.mem_takeWhile_imp hx
  · exact fun x hx => List.mem_rtakeWhile_imp hx

theorem rdropWhile_append_of_pos {p : α → Bool} {l b : List α} (hb : ∀ x ∈ b, p x) :
    (l ++ b).rdropWhile p = l.rdropWhile p := by
  rw [List.rdropWhile, List.reverse_append,
    List.dropWhile_append_of_pos (fun x hx => hb x (List.mem_reverse.mp hx)), List.rdropWhile]

theorem trim_padded {p : α → Bool} {a b c : List α} (ha : ∀ x ∈ a, p x) (hb : ∀ x ∈ b, p x)
    (hc : trim p c = c) : trim p (a ++ c ++ b) = c := by
  rw [trim, List.append_assoc, List.dropWhile_append_of_pos ha, List.dropWhile_append]
  split
  · rename_i h
    have hn : c.dropWhile p = [] := by simpa using h
    have hc' : c = [] := by rw [← hc, trim, hn, List.rdropWhile_nil]
    rw [List.dropWhile_eq_nil_iff.mpr hb, List.rdropWhile_nil, hc']
  · rw [rdropWhile_append_of_pos hb]
    exact hc

theorem dropWhile_rdropWhile (p : α → Bool) (l : List α) :
    ((l.dropWhile p).rdropWhile p).dropWhile p = (l.dropWhile p).rdropWhile p := by
  rw [List.dropWhile_eq_self_iff]
  intro hl
  have hd : 0 < (l.dropWhile p).length := hl.trans_le (List.rdropWhile_prefix p _).length_le
  have hg := List.dropWhile_get_zero_not p l hd
  have he := (List.rdropWhile_prefix p (l.dropWhile p)).getElem hl
  rw [he]
  simpa using hg

theorem trim_trim (p : α → Bool) (l : List α) : trim p (trim p l) = trim p l := by
  rw [trim, trim, dropWhile_rdropWhile, List.rdropWhile_idempotent]

theorem trim_eq_nil_iff {p : α → Bool} {l : List α} : trim p l = [] ↔ ∀ x ∈ l, p x := by
  constructor
  · intro h x hx
    obtain ⟨a, b, hl, ha, hb⟩ := trim_decomp p l
    rw [h, List.append_nil] at hl
    rw [hl, List.mem_append] at hx
    exact hx.elim (ha x) (hb x)
  · intro h
    rw [trim, List.dropWhile_eq_nil_iff.mpr h, List.rdropWhile_nil]

theorem trim_eq_self {p : α → Bool} {l : List α} (h : ∀ x ∈ l, ¬ p x) : trim p l = l := by
  have hd : l.dropWhile p = l := List.dropWhile_eq_self_iff.mpr fun _ => h _ (List.getElem_mem _)
  rw [trim, hd]
  exact List.rdropWhile_eq_self_iff.mpr fun hl => h _ (List.getLast_mem hl)

theorem trim_eq_self_iff {p : α → Bool} {l : List α} :
    trim p l = l ↔ l.dropWhile p = l ∧ l.rdropWhile p = l := by
  constructor
  · intro h
    have hle : l.length ≤ (l.dropWhile p).length := by
      conv_lhs => rw [← h]
      exact (List.rdropWhile_prefix p _).length_le
    have hd : l.dropWhile p = l := (List.dropWhile_suffix p).eq_of_length_le hle
    rw [trim, hd] at h
    exact ⟨hd, h⟩
  · rintro ⟨hd, hr⟩
    rw [trim, hd, hr]

theorem trim_append {p : α → Bool} {a b : List α} (ha : trim p a = a) (hb : trim p b = b)
    (hna : a ≠ []) (hnb : b ≠ []) : trim p (a ++ b) = a ++ b := by
  rw [trim_eq_self_iff, List.dropWhile_eq_self_iff, List.rdropWhile_eq_self_iff] at ha hb ⊢
  constructor
  · intro hl
    rw [List.getElem_append_left (List.length_pos_of_ne_nil hna)]
    exact ha.1 _
  · intro hl
    rw [List.getLast_append_of_ne_nil _ hnb]
    exact hb.2 hnb

theorem trim_around {p : α → Bool} {a b : List α} (ha : trim p a = a) (hb : trim p b = b)
    (hna : a ≠ []) (hnb : b ≠ []) (m : List α) : trim p (a ++ (m ++ b)) = a ++ (m ++ b) := by
  rw [trim_eq_self_iff, List.dropWhile_eq_self_iff, List.rdropWhile_eq_self_iff] at ha hb ⊢
  constructor
  · intro hl
    rw [List.getElem_append_left (List.length_pos_of_ne_nil hna)]
    exact ha.1 _
  · intro hl
    rw [List.getLast_append_of_ne_nil _ (List.append_ne_nil_of_right_ne_nil m hnb),
      List.getLast_append_of_ne_nil _ hnb]
    exact hb.2 hnb

theorem trim_of_ends {p : α → Bool} {a b : List α} (ha : ∀ x ∈ a, ¬ p x) (hb : ∀ x ∈ b, ¬ p x)
    (hna : a ≠ []) (hnb : b ≠ []) (m : List α) : trim p (a ++ (m ++ b)) = a ++ (m ++ b) :=
  trim_around (trim_eq_self ha) (trim_eq_self hb) hna hnb m

theorem trim_flatten {p : α → Bool} {vs : List (List α)} (h : ∀ v ∈ vs, v ≠ [] ∧ trim p v = v) :
    trim p vs.flatten = vs.flatten := by
  induction vs with
  | nil => rfl
  | cons v vs ih =>
    obtain ⟨hn, ht⟩ := h v List.mem_cons_self
    have hrest := ih fun w hw => h w (List.mem_cons_of_mem v hw)
    rw [List.flatten_cons]
    by_cases he : vs.flatten = []
    · rw [he, List.append_nil]
      exact ht
    · exact trim_append ht hrest hn he

theorem mem_of_mem_trim {p : α → Bool} {l : List α} {x : α} (h : x ∈ trim p l) : x ∈ l := by
  obtain ⟨a, b, hl, -, -⟩ := trim_decomp p l
  rw [hl]
  simp [h]

theorem trim_dropWhile (p : α → Bool) (l : List α) : trim p (l.dropWhile p) = trim p l := by
  rw [trim, List.dropWhile_idempotent, trim]

theorem trim_rdropWhile (p : α → Bool) (l : List α) : trim p (l.rdropWhile p) = trim p l := by
  obtain ⟨a, b, hl, ha, hb⟩ := trim_decomp p (l.rdropWhile p)
  have hpad : ∀ x ∈ b ++ l.rtakeWhile p, p x := fun x hx =>
    (List.mem_append.mp hx).elim (hb x) fun hx => List.mem_rtakeWhile_imp hx
  have ht := trim_padded ha hpad (trim_trim p (l.rdropWhile p))
  rw [← List.append_assoc, ← hl, List.rdropWhile_append_rtakeWhile] at ht
  exact ht.symm

theorem dropWhile_flatMap {p : α → Bool} {f : α → List α} (hf : ∀ x, ∀ y ∈ f x, p y = p x)
    (hne : ∀ x, f x ≠ []) (l : List α) : (l.flatMap f).dropWhile p = (l.dropWhile p).flatMap f := by
  induction l with
  | nil => rfl
  | cons x l ih =>
    rw [List.flatMap_cons]
    by_cases hx : p x = true
    · rw [List.dropWhile_append_of_pos fun y hy => by rw [hf x y hy, hx], ih,
        List.dropWhile_cons_of_pos hx]
    · rw [List.dropWhile_cons_of_neg hx, List.flatMap_cons]
      obtain ⟨y, ys, hy⟩ := List.exists_cons_of_ne_nil (hne x)
      rw [hy, List.cons_append, List.dropWhile_cons_of_neg]
      rw [hf x y (by rw [hy]; exact List.mem_cons_self)]
      exact hx

theorem trim_flatMap {p : α → Bool} {f : α → List α} (hf : ∀ x, ∀ y ∈ f x, p y = p x)
    (hne : ∀ x, f x ≠ []) (l : List α) : trim p (l.flatMap f) = (trim p l).flatMap f := by
  have hback : ∀ l : List α, (l.flatMap f).rdropWhile p = (l.rdropWhile p).flatMap f := by
    intro l
    have hr := dropWhile_flatMap (f := List.reverse ∘ f)
      (fun x y hy => hf x y (List.mem_reverse.mp hy))
      (fun x hx => hne x (List.reverse_eq_nil_iff.mp hx)) l.reverse
    rw [List.rdropWhile, List.reverse_flatMap, hr, List.reverse_flatMap, List.rdropWhile]
    congr 1
    funext x
    exact List.reverse_reverse (f x)
  rw [trim, dropWhile_flatMap hf hne, hback, trim]

theorem dropWhile_append_stop {p : α → Bool} {c : α} (hc : ¬ p c) (a b : List α) :
    (a ++ c :: b).dropWhile p = a.dropWhile p ++ c :: b := by
  rw [List.dropWhile_append]
  split
  · rename_i he
    rw [List.dropWhile_cons_of_neg hc, List.isEmpty_iff.mp he, List.nil_append]
  · rfl

theorem rdropWhile_append_stop {p : α → Bool} {c : α} (hc : ¬ p c) (a b : List α) :
    (a ++ c :: b).rdropWhile p = a ++ c :: b.rdropWhile p := by
  simp only [List.rdropWhile, List.reverse_append, List.reverse_cons, List.append_assoc,
    List.singleton_append, dropWhile_append_stop hc, List.reverse_reverse]

/-- A text of unpadded characters is found under its padding in one way only. -/
theorem padded_inj {p : α → Bool} {a b c a' b' c' : List α} (ha : ∀ x ∈ a, p x)
    (hb : ∀ x ∈ b, p x) (hc : ∀ x ∈ c, ¬ p x) (ha' : ∀ x ∈ a', p x) (hb' : ∀ x ∈ b', p x)
    (hc' : ∀ x ∈ c', ¬ p x) (hne : c ≠ []) (hne' : c' ≠ [])
    (h : a ++ c ++ b = a' ++ c' ++ b') : a = a' ∧ c = c' ∧ b = b' := by
  have front : ∀ {x y : List α}, (∀ z ∈ x, p z) → (∀ z ∈ y, ¬ p z) → y ≠ [] → ∀ w,
      (x ++ y ++ w).takeWhile p = x := by
    intro x y hx hy hyn w
    obtain ⟨z, zs, rfl⟩ := List.exists_cons_of_ne_nil hyn
    rw [List.append_assoc, List.takeWhile_append_of_pos hx, List.cons_append,
      List.takeWhile_cons_of_neg (hy z (by simp)), List.append_nil]
  have haa : a = a' := by rw [← front ha hc hne b, h, front ha' hc' hne' b']
  subst haa
  have hrest : c ++ b = c' ++ b' := by
    simpa only [List.append_assoc, List.append_cancel_left_eq] using h
  have middle : ∀ {y w : List α}, (∀ z ∈ y, ¬ p z) → (∀ z ∈ w, p z) →
      (y ++ w).takeWhile (fun z => !p z) = y := by
    intro y w hy hw
    rw [List.takeWhile_append_of_pos (fun z hz => by simp [hy z hz])]
    cases w with
    | nil => simp
    | cons z zs => rw [List.takeWhile_cons_of_neg (by simp [hw z (by simp)]), List.append_nil]
  have hcc : c = c' := by rw [← middle hc hb, hrest, middle hc' hb']
  subst hcc
  exact ⟨rfl, rfl, List.append_cancel_left hrest⟩

variable [DecidableEq α]

theorem mem_splitOn {c : α} {l piece : List α} (h : piece ∈ l.splitOn c) :
    c ∉ piece ∧ piece ⊆ l := by
  induction l generalizing piece with
  | nil =>
    rw [List.splitOn_nil, List.mem_singleton] at h
    subst h
    exact ⟨List.not_mem_nil, List.Subset.refl []⟩
  | cons x l ih =>
    rw [List.splitOn_cons_eq_if_modifyHead] at h
    have later : ∀ {q}, q ∈ l.splitOn c → c ∉ q ∧ q ⊆ x :: l := by
      intro q hq
      exact ⟨(ih hq).1, fun y hy => List.mem_cons_of_mem x ((ih hq).2 hy)⟩
    split at h
    · obtain rfl | h := List.mem_cons.mp h
      · exact ⟨List.not_mem_nil, List.nil_subset _⟩
      · exact later h
    · rename_i hx
      obtain ⟨q, qs, hq⟩ := List.exists_cons_of_ne_nil (List.splitOn_ne_nil c l)
      rw [hq, List.modifyHead_cons] at h
      obtain rfl | h := List.mem_cons.mp h
      · obtain ⟨hn, hs⟩ := ih (hq ▸ List.mem_cons_self)
        have hne : c ≠ x := fun he => hx (beq_iff_eq.mpr he.symm)
        exact ⟨by simp [hn, hne], List.cons_subset_cons x hs⟩
      · exact later (hq ▸ List.mem_cons_of_mem q h)

theorem mem_piece {c x : α} {l : List α} (hx : x ∈ l) (hc : x ≠ c) :
    ∃ piece ∈ l.splitOn c, x ∈ piece := by
  induction l with
  | nil => cases hx
  | cons y l ih =>
    rw [List.splitOn_cons_eq_if_modifyHead]
    split
    · rename_i hy
      obtain rfl | hx := List.mem_cons.mp hx
      · exact (hc (beq_iff_eq.mp hy)).elim
      · obtain ⟨piece, hp, hm⟩ := ih hx
        exact ⟨piece, List.mem_cons_of_mem _ hp, hm⟩
    · obtain ⟨q, qs, hq⟩ := List.exists_cons_of_ne_nil (List.splitOn_ne_nil c l)
      rw [hq, List.modifyHead_cons]
      obtain rfl | hx := List.mem_cons.mp hx
      · exact ⟨_, List.mem_cons_self, List.mem_cons_self⟩
      · obtain ⟨piece, hp, hm⟩ := ih hx
        rw [hq] at hp
        obtain rfl | hp := List.mem_cons.mp hp
        · exact ⟨_, List.mem_cons_self, List.mem_cons_of_mem y hm⟩
        · exact ⟨piece, List.mem_cons_of_mem _ hp, hm⟩

def cut (c : α) : List α → Option (List α × List α)
  | [] => none
  | x :: xs => if x = c then some ([], xs) else (cut c xs).map fun r => (x :: r.1, r.2)

theorem cut_append {c : α} {a : List α} (ha : c ∉ a) (b : List α) :
    cut c (a ++ c :: b) = some (a, b) := by
  induction a with
  | nil => simp [cut]
  | cons x a ih =>
    have hx : x ≠ c := fun h => ha (by simp [h])
    simp [cut, hx, ih fun h => ha (List.mem_cons_of_mem x h)]

theorem cut_eq_some {c : α} {l a b : List α} : cut c l = some (a, b) ↔ l = a ++ c :: b ∧ c ∉ a := by
  constructor
  · induction l generalizing a with
    | nil => simp [cut]
    | cons x l ih =>
      intro h
      unfold cut at h
      split at h
      · rename_i hx
        cases h
        exact ⟨by simp [hx], by simp⟩
      · rename_i hx
        obtain ⟨⟨a', b'⟩, hr, he⟩ := Option.map_eq_some_iff.mp h
        cases he
        obtain ⟨rfl, ha⟩ := ih hr
        exact ⟨rfl, by simp [ha, Ne.symm hx]⟩
  · rintro ⟨rfl, ha⟩
    exact cut_append ha b

theorem cut_eq_none {c : α} {l : List α} : cut c l = none ↔ c ∉ l := by
  induction l with
  | nil => simp [cut]
  | cons x l ih =>
    by_cases hx : x = c
    · simp [cut, hx]
    · simp [cut, hx, ih, Ne.symm hx]

theorem count_eq_succ {c : α} {l : List α} {n : Nat} : l.count c = n + 1 ↔
    ∃ a b, l = a ++ c :: b ∧ c ∉ a ∧ b.count c = n := by
  constructor
  · intro h
    cases hc : cut c l with
    | none =>
      rw [List.count_eq_zero.mpr (cut_eq_none.mp hc)] at h
      cases h
    | some r =>
      obtain ⟨rfl, ha⟩ := cut_eq_some.mp hc
      refine ⟨r.1, r.2, rfl, ha, ?_⟩
      rw [List.count_append, List.count_eq_zero.mpr ha, List.count_cons_self] at h
      omega
  · rintro ⟨a, b, rfl, ha, rfl⟩
    rw [List.count_append, List.count_eq_zero.mpr ha, List.count_cons_self, Nat.zero_add]

/-- Trimming moves the two sides of a cut, not the cut. -/
theorem cut_trim {p : α → Bool} {c : α} (hc : ¬ p c) (l : List α) :
    cut c (trim p l) = (cut c l).map fun r => (r.1.dropWhile p, r.2.rdropWhile p) := by
  cases h : cut c l with
  | none =>
    have hn := cut_eq_none.mp h
    rw [Option.map_none, cut_eq_none]
    exact fun hm => hn (mem_of_mem_trim hm)
  | some r =>
    obtain ⟨a, b⟩ := r
    obtain ⟨rfl, ha⟩ := cut_eq_some.mp h
    rw [trim, dropWhile_append_stop hc, rdropWhile_append_stop hc, Option.map_some]
    exact cut_append (fun hm => ha ((List.dropWhile_sublist p).subset hm)) _

def rcut (c : α) (l : List α) : Option (List α × List α) :=
  (cut c l.reverse).map fun r => (r.2.reverse, r.1.reverse)

theorem rcut_eq_some {c : α} {l a b : List α} :
    rcut c l = some (a, b) ↔ l = a ++ c :: b ∧ c ∉ b := by
  have hrev : l = a ++ c :: b ↔ l.reverse = b.reverse ++ c :: a.reverse := by
    rw [← List.reverse_inj]
    simp
  rw [rcut, Option.map_eq_some_iff, hrev]
  constructor
  · rintro ⟨⟨a', b'⟩, hr, he⟩
    cases he
    simpa using cut_eq_some.mp hr
  · rintro ⟨hl, hb⟩
    exact ⟨(b.reverse, a.reverse), cut_eq_some.mpr ⟨hl, by simpa using hb⟩, by simp⟩

theorem rcut_append {c : α} {b : List α} (a : List α) (hb : c ∉ b) :
    rcut c (a ++ c :: b) = some (a, b) := rcut_eq_some.mpr ⟨rfl, hb⟩

/-- `l'` is `l` with further members put in anywhere, all of them satisfying `P`. -/
inductive Woven (P : α → Prop) : List α → List α → Prop
  | nil : Woven P [] []
  | keep (x : α) {l l' : List α} : Woven P l l' → Woven P (x :: l) (x :: l')
  | add {x : α} {l l' : List α} : P x → Woven P l l' → Woven P l (x :: l')

omit [DecidableEq α] in
theorem Woven.filterMap_eq {P : α → Prop} {f : α → Option β} {l l' : List α} (h : Woven P l l')
    (hf : ∀ x ∈ l', P x → f x = none) : l'.filterMap f = l.filterMap f := by
  induction h with
  | nil => rfl
  | keep x _ ih =>
    simp only [List.filterMap_cons, ih fun y hy => hf y (List.mem_cons_of_mem x hy)]
  | add hx _ ih =>
    rw [List.filterMap_cons, hf _ List.mem_cons_self hx,
      ih fun y hy => hf y (List.mem_cons_of_mem _ hy)]

def numbered (vs : List β) : List (Nat × β) := (List.range vs.length).zip vs

theorem map_fst_numbered (vs : List β) : (numbered vs).map Prod.fst = List.range vs.length :=
  List.map_fst_zip (by simp)

theorem map_snd_numbered (vs : List β) : (numbered vs).map Prod.snd = vs :=
  List.map_snd_zip (by simp)

theorem eq_numbered {l : List (Nat × β)} (h : l.map Prod.fst = List.range l.length) :
    l = numbered (l.map Prod.snd) := by
  rw [numbered, List.length_map, ← h, List.zip_map']
  simp

abbrev byNumber (a b : Nat × β) : Prop := a.1 ≤ b.1

instance : Std.Total (byNumber : Nat × β → Nat × β → Prop) := ⟨fun a b => le_total a.1 b.1⟩

instance : IsTrans (Nat × β) byNumber := ⟨fun _ _ _ => le_trans⟩

theorem insertionSort_of_perm {l : List (Nat × β)} {vs : List β} (h : l.Perm (numbered vs)) :
    l.insertionSort byNumber = numbered vs := by
  have hs : (l.insertionSort byNumber).Pairwise byNumber := List.pairwise_insertionSort byNumber l
  have hn : (numbered vs).Pairwise byNumber := by
    have hr : ((numbered vs).map Prod.fst).Pairwise (· ≤ ·) := by
      rw [map_fst_numbered]
      exact List.pairwise_le_range
    simpa only [List.pairwise_map] using hr
  have hinj : ∀ a ∈ numbered vs, ∀ b ∈ numbered vs, a.1 = b.1 → a = b := by
    apply List.inj_on_of_nodup_map
    rw [map_fst_numbered]
    exact List.nodup_range
  have hp := (List.perm_insertionSort byNumber l).trans h
  exact hp.eq_of_pairwise
    (fun a b ha hb hab hba => hinj a (hp.mem_iff.mp ha) b hb (le_antisymm hab hba)) hs hn

/-- Sorted by their numbers, pieces form a run from 0 exactly when they are some whole's, in any
order. -/
theorem insertionSort_eq_numbered {l : List (Nat × β)} {vs : List β} :
    (l.insertionSort byNumber).map Prod.fst = List.range (l.insertionSort byNumber).length ∧
      (l.insertionSort byNumber).map Prod.snd = vs ↔ l.Perm (numbered vs) := by
  constructor
  · rintro ⟨hf, rfl⟩
    have he := eq_numbered hf
    exact (List.perm_insertionSort byNumber l).symm.trans (he ▸ List.Perm.refl _)
  · intro h
    rw [insertionSort_of_perm h, map_fst_numbered, map_snd_numbered]
    simp [numbered]

/-- `text.find(sub, start)`: where `sub` first stands from `start` on, or -1. -/
def find (text sub : List α) (start : Nat) : Int :=
  match (List.range (text.length + 1)).find? fun i => start ≤ i && sub.isPrefixOf (text.drop i) with
  | some i => i
  | none => -1

theorem find_of_exists {text sub : List α} {start : Nat}
    (h : ∃ i, start ≤ i ∧ i ≤ text.length ∧ sub <+: text.drop i) :
    ∃ i : Nat, find text sub start = i ∧ start ≤ i ∧ sub <+: text.drop i ∧
      ∀ j, start ≤ j → sub <+: text.drop j → i ≤ j := by
  have hstands : ∀ i, (decide (start ≤ i) && sub.isPrefixOf (text.drop i)) = true ↔
      start ≤ i ∧ sub <+: text.drop i := by
    intro i
    rw [Bool.and_eq_true, decide_eq_true_eq, List.isPrefixOf_iff_prefix]
  rw [find]
  cases hf : (List.range (text.length + 1)).find? fun i =>
      start ≤ i && sub.isPrefixOf (text.drop i) with
  | none =>
    obtain ⟨i, hs, hle, hp⟩ := h
    have hnone := List.find?_eq_none.mp hf i (List.mem_range.mpr (Nat.lt_succ_of_le hle))
    exact absurd ((hstands i).mpr ⟨hs, hp⟩) hnone
  | some i =>
    obtain ⟨hi, -, hmin⟩ := List.find?_range_eq_some.mp hf
    obtain ⟨hs, hp⟩ := (hstands i).mp hi
    refine ⟨i, rfl, hs, hp, fun j hsj hpj => ?_⟩
    by_contra hlt
    have hn := hmin j (not_le.mp hlt)
    rw [(hstands j).mpr ⟨hsj, hpj⟩] at hn
    cases hn

end BetterAuthBridge.Library.Text
