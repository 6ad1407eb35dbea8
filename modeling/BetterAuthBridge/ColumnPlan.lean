import Mathlib.Data.List.Basic
import BetterAuthBridge.SqlStore

namespace BetterAuthBridge.ColumnPlan

open Values Errors SqlStore

variable {table : Text} {present : Columns} {required optional admin : List Text}
  {allowed : Option (List Text)} {columns taken : List Text}

def live (present : Columns) (table : Text) : Option (List Text) := (present.lookup table).join

def Allows (columns : List Text) (allowed : Option (List Text)) : Prop :=
  ∀ list, allowed = some list → list ⊆ columns

theorem allows_none : Allows columns none := nofun

theorem allows_some {list : List Text} : Allows columns (some list) ↔ list ⊆ columns := by
  constructor
  · intro h
    exact h list rfl
  · rintro h _ ⟨⟩
    exact h

theorem lacking_eq_nil {names : List Text} :
    (names.filter fun name => name ∉ columns) = [] ↔ names ⊆ columns := by
  rw [List.filter_eq_nil_iff]
  simp only [decide_eq_true_eq, not_not]
  rfl

theorem unknown_eq_nil :
    ((allowed.getD []).filter fun name => name ∉ columns) = [] ↔ Allows columns allowed := by
  rw [lacking_eq_nil]
  cases allowed with
  | none => exact iff_of_true (List.nil_subset _) allows_none
  | some list => exact allows_some.symm

/-- The standing columns: the required ones, and those of the others that exist. -/
def known (columns required optional admin : List Text) : List Text :=
  required ++ (optional ++ admin).filter fun name => name ∈ columns

theorem accepted_ok :
    accepted table present required optional admin allowed = .ok taken ↔
      ∃ columns, live present table = some columns ∧ required ⊆ columns ∧
        Allows columns allowed ∧ taken = known columns required optional admin ++
          extras columns (known columns required optional admin) allowed := by
  rw [accepted, ← live]
  cases hl : live present table with
  | none => simp [throw, throwThe, MonadExceptOf.throw]
  | some columns =>
    have hr : required ⊆ columns ↔ (required.filter fun name => name ∉ columns) = [] :=
      lacking_eq_nil.symm
    simp only [Option.some.injEq, exists_eq_left', ← unknown_eq_nil, hr]
    split_ifs with habsent hunknown
    · exact iff_of_false nofun fun h => habsent h.1
    · exact iff_of_false nofun fun h => hunknown h.2.1
    · rw [not_not] at habsent hunknown
      constructor
      · intro h
        exact ⟨habsent, hunknown, (Except.ok.inj h).symm⟩
      · rintro ⟨-, -, rfl⟩
        rfl

theorem accepted_refused :
    (∃ exc, accepted table present required optional admin allowed = .error exc) ↔
      live present table = none ∨ ∃ columns, live present table = some columns ∧
        (¬ required ⊆ columns ∨ ¬ Allows columns allowed) := by
  have hr : (∃ exc, accepted table present required optional admin allowed = .error exc) ↔
      ¬ ∃ taken, accepted table present required optional admin allowed = .ok taken := by
    cases accepted table present required optional admin allowed with
    | error exc => exact iff_of_true ⟨exc, rfl⟩ nofun
    | ok taken => exact iff_of_false nofun fun h => h ⟨taken, rfl⟩
  rw [hr]
  simp only [accepted_ok]
  cases live present table with
  | none => exact iff_of_true nofun (.inl rfl)
  | some columns =>
    simp only [Option.some.injEq, exists_eq_left', reduceCtorEq, false_or, ← not_and_or]
    apply not_congr
    constructor
    · rintro ⟨_, hsub, ha, -⟩
      exact ⟨hsub, ha⟩
    · rintro ⟨hsub, ha⟩
      exact ⟨_, hsub, ha, rfl⟩

theorem not_subset {names : List Text} : ¬ names ⊆ columns ↔ ∃ name ∈ names, name ∉ columns := by
  constructor
  · intro h
    by_contra hn
    apply h
    intro name hm
    by_contra hc
    exact hn ⟨name, hm, hc⟩
  · rintro ⟨name, hm, hc⟩ h
    exact hc (h hm)

theorem not_allows :
    ¬ Allows columns allowed ↔ ∃ list, allowed = some list ∧ ∃ name ∈ list, name ∉ columns := by
  cases allowed with
  | none => exact iff_of_false (not_not.mpr allows_none) nofun
  | some list =>
    rw [allows_some, not_subset]
    simp only [Option.some.injEq, exists_eq_left']

theorem accepted_error {exc : Exn}
    (h : accepted table present required optional admin allowed = .error exc) :
    ∃ message, exc = configurationError message := by
  rw [accepted] at h
  split at h
  · exact ⟨_, (Except.error.inj h).symm⟩
  · dsimp only at h
    split_ifs at h
    · exact ⟨_, (Except.error.inj h).symm⟩
    · exact ⟨_, (Except.error.inj h).symm⟩
    · cases h

theorem mem_known (hr : required ⊆ columns) {name : Text} :
    name ∈ known columns required optional admin ↔
      name ∈ columns ∧ name ∈ required ++ optional ++ admin := by
  rw [known, List.mem_append, List.mem_filter, decide_eq_true_eq, List.append_assoc,
    List.mem_append (s := required)]
  constructor
  · rintro (h | ⟨h, hc⟩)
    · exact ⟨hr h, .inl h⟩
    · exact ⟨hc, .inr h⟩
  · rintro ⟨hc, h | h⟩
    · exact .inl h
    · exact .inr ⟨h, hc⟩

theorem mem_extras {names : List Text} {name : Text} :
    name ∈ extras columns names allowed ↔
      name ∈ columns ∧ name ∉ names ∧ ∀ list, allowed = some list → name ∈ list := by
  rw [extras, List.mem_filter, decide_eq_true_eq]

theorem extras_sublist {names : List Text} : (extras columns names allowed).Sublist columns :=
  List.filter_sublist

theorem known_nodup (h : (required ++ optional ++ admin).Nodup) :
    (known columns required optional admin).Nodup := by
  rw [List.append_assoc] at h
  exact h.sublist ((List.Sublist.refl _).append List.filter_sublist)

theorem extras_mono {names : List Text} {allowed' : Option (List Text)}
    (h : ∀ name, (∀ list, allowed = some list → name ∈ list) →
      ∀ list, allowed' = some list → name ∈ list) :
    (extras columns names allowed).Sublist (extras columns names allowed') := by
  apply List.monotone_filter_right
  intro name hn
  rw [decide_eq_true_eq] at hn ⊢
  exact ⟨hn.1, h name hn.2⟩

/-- What is selected of the table is its standing columns, then the others in its own order. -/
structure Planned (columns required optional admin : List Text) (allowed : Option (List Text))
    (taken : List Text) : Prop where
  nodup : taken.Nodup
  arranged : ∃ kept tail, taken = required ++ kept ++ tail ∧
    kept.Sublist (optional ++ admin) ∧
    (∀ name, name ∈ kept ↔ name ∈ optional ++ admin ∧ name ∈ columns) ∧
    tail.Sublist columns ∧
    ∀ name, name ∈ tail ↔ name ∈ columns ∧ name ∉ required ++ optional ++ admin ∧
      ∀ list, allowed = some list → name ∈ list
  live : taken ⊆ columns
  standing : ∀ name ∈ required ++ optional ++ admin, name ∈ columns → name ∈ taken
  whole : allowed = none → columns ⊆ taken

theorem planned_of_accepted (hk : (required ++ optional ++ admin).Nodup) (hc : columns.Nodup)
    (hr : required ⊆ columns) :
    Planned columns required optional admin allowed (known columns required optional admin ++
      extras columns (known columns required optional admin) allowed) := by
  have hmem : ∀ {name}, name ∈ extras columns (known columns required optional admin) allowed ↔
      name ∈ columns ∧ name ∉ required ++ optional ++ admin ∧
        ∀ list, allowed = some list → name ∈ list := by
    intro name
    rw [mem_extras, mem_known hr]
    constructor
    · rintro ⟨h, hn, hl⟩
      exact ⟨h, fun hs => hn ⟨h, hs⟩, hl⟩
    · rintro ⟨h, hn, hl⟩
      exact ⟨h, fun hs => hn hs.2, hl⟩
  constructor
  · apply (known_nodup hk).append (hc.sublist extras_sublist)
    intro name hs he
    exact (mem_extras.mp he).2.1 hs
  · refine ⟨_, _, rfl, List.filter_sublist, ?_, extras_sublist, fun name => hmem⟩
    intro name
    rw [List.mem_filter, decide_eq_true_eq]
  · intro name hn
    obtain h | h := List.mem_append.mp hn
    · exact ((mem_known hr).mp h).1
    · exact (mem_extras.mp h).1
  · intro name hs hl
    exact List.mem_append_left _ ((mem_known hr).mpr ⟨hl, hs⟩)
  · rintro rfl name hn
    rw [List.mem_append, mem_known hr, hmem]
    by_cases hs : name ∈ required ++ optional ++ admin
    · exact .inl ⟨hn, hs⟩
    · exact .inr ⟨hn, hs, nofun⟩

structure Accepts (table : Text) (present : Columns) (required optional admin : List Text) :
    Prop where
  refused : ∀ allowed,
    (∃ exc, accepted table present required optional admin allowed = .error exc) ↔
    live present table = none ∨ ∃ columns, live present table = some columns ∧
      ((∃ name ∈ required, name ∉ columns) ∨
        ∃ list, allowed = some list ∧ ∃ name ∈ list, name ∉ columns)
  planned : ∀ allowed taken, accepted table present required optional admin allowed = .ok taken →
    ∃ columns, live present table = some columns ∧
      Planned columns required optional admin allowed taken
  raised : ∀ allowed exc, accepted table present required optional admin allowed = .error exc →
    ∃ message, exc = configurationError message
  wider : ∀ list list' taken', list ⊆ list' →
    accepted table present required optional admin (some list') = .ok taken' →
    ∃ taken, accepted table present required optional admin (some list) = .ok taken ∧
      taken.Sublist taken'
  widest : ∀ list taken, accepted table present required optional admin (some list) = .ok taken →
    ∃ taken', accepted table present required optional admin none = .ok taken' ∧
      taken.Sublist taken'

theorem columns_accepted (table : Text) (present : Columns) (required optional admin : List Text)
    (hk : (required ++ optional ++ admin).Nodup)
    (hl : ∀ columns, live present table = some columns → columns.Nodup) :
    Accepts table present required optional admin := by
  constructor
  · intro allowed
    rw [accepted_refused]
    simp only [not_subset, not_allows]
  · intro allowed taken h
    obtain ⟨columns, hp, hr, -, rfl⟩ := accepted_ok.mp h
    exact ⟨columns, hp, planned_of_accepted hk (hl columns hp) hr⟩
  · intro allowed exc h
    exact accepted_error h
  · intro list list' taken' hsub h
    obtain ⟨columns, hp, hr, ha, rfl⟩ := accepted_ok.mp h
    have hs : list ⊆ columns := List.Subset.trans hsub (allows_some.mp ha)
    refine ⟨_, accepted_ok.mpr ⟨columns, hp, hr, allows_some.mpr hs, rfl⟩, ?_⟩
    apply (List.Sublist.refl _).append
    apply extras_mono
    rintro name hn _ ⟨⟩
    exact hsub (hn list rfl)
  · intro list taken h
    obtain ⟨columns, hp, hr, -, rfl⟩ := accepted_ok.mp h
    refine ⟨_, accepted_ok.mpr ⟨columns, hp, hr, allows_none, rfl⟩, ?_⟩
    apply (List.Sublist.refl _).append
    apply extras_mono
    intro name _ list' hnone
    cases hnone

theorem columns_accepted_sample :
    Accepts "user".toList [("user".toList, some (names ["tenant", "banned", "id", "banExpires"]))]
      userRequired userOptional userAdmin :=
  columns_accepted _ _ _ _ _ (by decide) (by
    rintro _ ⟨⟩
    decide)

example : "banExpires".toList ∈ userRequired ++ userOptional ++ userAdmin ∧
    "impersonatedBy".toList ∈ sessionRequired ++ sessionOptional ++ sessionAdmin := by decide

end BetterAuthBridge.ColumnPlan
