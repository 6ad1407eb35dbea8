import BetterAuthBridge.CookieNames

namespace BetterAuthBridge.CookieOrder

open Library.Text Values Errors Csrf CookieParsing CookieResolution CookieNames

variable {R : Runtime} {base : Text} {pairs pairs' : List Pair}

/-- What becomes of parsed pairs: absence, where `extract` keeps none of them. -/
def resolution (R : Runtime) (base : Text) (pairs : List Pair) :
    Option (Except Exn (Text × Text)) :=
  if matchedPairs base pairs = [] then none
  else some (resolveNamedCookie R (matchedPairs base pairs) base)

def extracted (R : Runtime) (base : Text) (connection : Connection) :
    Option (Except Exn (Text × Text)) :=
  (presented base (joinedCookieHeader connection)).map fun matched =>
    resolveNamedCookie R matched base

def linePairs (connection : Connection) : List Pair :=
  (connection.getlist "cookie").flatMap cookiePairs

theorem resolveNamedCookie_error {e : Exn} (h : resolveNamedCookie R pairs base = .error e) :
    ∃ reason, e = invalidCredential reason := by
  have hvalue : ∀ e, valueForBase R pairs base = .error e →
      ∃ reason, e = invalidCredential reason := by
    intro e h
    rw [valueForBase] at h
    split at h
    · cases h
    · cases h
      exact ⟨_, rfl⟩
    · split at h
      · cases h
        exact ⟨_, rfl⟩
      · cases h
    · rename_i chunks _ _
      rw [reassembled] at h
      dsimp only at h
      split at h
      · cases h
        exact ⟨_, rfl⟩
      · split at h
        · cases h
          exact ⟨_, rfl⟩
        · cases h
  rw [resolveNamedCookie] at h
  cases hv : valueForBase R pairs base with
  | error e' =>
    rw [hv] at h
    cases h
    exact hvalue e hv
  | ok found =>
    rw [hv] at h
    cases found with
    | some value => cases h
    | none =>
      cases h
      exact ⟨_, rfl⟩

theorem reassembled_perm {chunks chunks' : List (Nat × Text)} (h : chunks.Perm chunks') :
    reassembled R chunks base = reassembled R chunks' base := by
  have hlen : (chunks.insertionSort byNumber).length = (chunks'.insertionSort byNumber).length := by
    simpa using h.length_eq
  by_cases hrun : ∃ values, chunks.Perm (numbered values)
  · obtain ⟨values, hv⟩ := hrun
    rw [reassembled, reassembled, insertionSort_of_perm hv, insertionSort_of_perm (h.symm.trans hv)]
  · have hgap : ∀ l : List (Nat × Text), l.Perm chunks →
        (l.insertionSort byNumber).map Prod.fst ≠
          List.range ((l.insertionSort byNumber).map Prod.fst).length := by
      intro l hl he
      rw [List.length_map] at he
      exact hrun ⟨_, hl.symm.trans (insertionSort_eq_numbered.mp ⟨he, rfl⟩)⟩
    rw [reassembled, reassembled]
    dsimp only
    rw [if_pos (hgap chunks (.refl _)), if_pos (hgap chunks' h.symm)]

theorem valueForBase_perm (h : pairs.Perm pairs') :
    valueForBase R pairs base = valueForBase R pairs' base := by
  have hw : (wholeValues pairs base).Perm (wholeValues pairs' base) := (h.filter _).map _
  have hc : (chunkValues pairs base).Perm (chunkValues pairs' base) := (h.filter _).map _
  unfold valueForBase
  generalize wholeValues pairs base = w at hw
  generalize wholeValues pairs' base = w' at hw
  generalize chunkValues pairs base = c at hc
  generalize chunkValues pairs' base = c' at hc
  cases w with
  | nil =>
    obtain rfl := hw.symm.eq_nil
    cases c with
    | nil =>
      obtain rfl := hc.symm.eq_nil
      rfl
    | cons x c =>
      cases c' with
      | nil => cases hc.eq_nil
      | cons x' c' => simp only [reassembled_perm hc]
  | cons v w =>
    cases w' with
    | nil => cases hw.eq_nil
    | cons v' w' =>
      cases c with
      | cons x c =>
        cases c' with
        | nil => cases hc.eq_nil
        | cons x' c' => rfl
      | nil =>
        obtain rfl := hc.symm.eq_nil
        have hl : w.length = w'.length := by simpa using hw.length_eq
        cases w with
        | nil =>
          obtain rfl := List.length_eq_zero_iff.mp hl.symm
          obtain rfl : v = v' := by simpa using hw
          rfl
        | cons u w =>
          cases w' with
          | nil => cases hl
          | cons u' w' => rfl

theorem resolution_congr (h : (matchedPairs base pairs).Perm (matchedPairs base pairs')) :
    resolution R base pairs = resolution R base pairs' := by
  have hn : matchedPairs base pairs = [] ↔ matchedPairs base pairs' = [] :=
    ⟨fun he => (he ▸ h).symm.eq_nil, fun he => (he ▸ h).eq_nil⟩
  simp only [resolution, resolveNamedCookie, valueForBase_perm h, hn]

theorem cookiePair_space (fragment : Text) : cookiePair (' ' :: fragment) = cookiePair fragment := by
  have hs : isSpace ' ' = true := by decide
  rw [cookiePair, cookiePair, strip, strip, trim, trim, List.dropWhile_cons_of_pos hs]

theorem cookiePairs_space (header : Text) : cookiePairs (' ' :: header) = cookiePairs header := by
  rw [cookiePairs, cookiePairs, List.splitOn_cons_eq_if_modifyHead, if_neg (by decide)]
  cases header.splitOn ';' with
  | nil => rfl
  | cons fragment rest => simp [List.modifyHead, List.filterMap_cons, cookiePair_space]

theorem cookiePairs_intercalate (lines : List Text) :
    cookiePairs ("; ".toList.intercalate lines) = lines.flatMap cookiePairs := by
  induction lines with
  | nil => decide
  | cons line lines ih =>
    cases lines with
    | nil => simp
    | cons next lines =>
      have hsep : "; ".toList = [';', ' '] := rfl
      rw [List.intercalate_cons_cons, List.flatMap_cons, ← ih]
      simp only [hsep, List.append_assoc, List.cons_append, List.nil_append]
      conv_lhs => rw [cookiePairs, List.splitOn_append_cons_self, List.filterMap_append]
      congr 1
      exact cookiePairs_space _

theorem extracted_eq {connection : Connection} (h : WithinCaps (joinedCookieHeader connection)) :
    extracted R base connection = resolution R base (linePairs connection) := by
  have hp : cookiePairs (joinedCookieHeader connection) = linePairs connection :=
    cookiePairs_intercalate _
  have hlen : ¬ maxCookiePairs < (linePairs connection).length := hp ▸ not_lt.mpr h.2
  rw [extracted, presented, if_neg (not_lt.mpr h.1), resolution]
  simp only [hp, if_neg hlen]
  by_cases hm : matchedPairs base (linePairs connection) = []
  · rw [if_pos hm, if_pos hm, Option.map_none]
  · rw [if_neg hm, if_neg hm, Option.map_some]

/-- Resolution reads all that `extract` keeps, and nothing else. -/
structure Exact (R : Runtime) (base : Text) : Prop where
  answers : ∀ pairs answer, resolution R base pairs = some (.ok answer) ↔
    ∃ value, Carries base (matchedPairs base pairs) value ∧ answer = (base, value)
  refuses : ∀ pairs, matchedPairs base pairs ≠ [] →
    (∀ value, ¬ Carries base (matchedPairs base pairs) value) →
    ∃ reason, resolution R base pairs = some (.error (invalidCredential reason))
  absent : ∀ pairs, resolution R base pairs = none ↔ matchedPairs base pairs = []
  permuted : ∀ pairs pairs' : List Pair, pairs.Perm pairs' →
    resolution R base pairs = resolution R base pairs'
  inert : ∀ pairs pairs' : List Pair,
    Woven (fun p => p.1 ∉ acceptableNames base ∨ blank p.2 = true) pairs pairs' →
    resolution R base pairs = resolution R base pairs'
  lines : ∀ connection, WithinCaps (joinedCookieHeader connection) →
    extracted R base connection = resolution R base (linePairs connection)
  split : ∀ connection connection', WithinCaps (joinedCookieHeader connection) →
    WithinCaps (joinedCookieHeader connection') →
    (linePairs connection).Perm (linePairs connection') →
    extracted R base connection = extracted R base connection'

theorem resolution_answers {answer : Text × Text} :
    resolution R base pairs = some (.ok answer) ↔
      ∃ value, Carries base (matchedPairs base pairs) value ∧ answer = (base, value) := by
  obtain ⟨name, value⟩ := answer
  have hres : resolveNamedCookie R (matchedPairs base pairs) base = .ok (name, value) ↔
      name = base ∧ Carries base (matchedPairs base pairs) value := by
    rw [resolveNamedCookie_ok, resolveCookieValue_ok fun p hp => acceptable_of_mem_matchedPairs hp]
  by_cases hm : matchedPairs base pairs = []
  · rw [resolution, if_pos hm]
    refine ⟨nofun, ?_⟩
    rintro ⟨value, hc, -⟩
    exact (hc.ne_nil hm).elim
  · rw [resolution, if_neg hm, Option.some.injEq, hres]
    constructor
    · rintro ⟨rfl, hc⟩
      exact ⟨value, hc, rfl⟩
    · rintro ⟨value', hc, he⟩
      cases he
      exact ⟨rfl, hc⟩

theorem resolution_refuses (hm : matchedPairs base pairs ≠ [])
    (hc : ∀ value, ¬ Carries base (matchedPairs base pairs) value) :
    ∃ reason, resolution R base pairs = some (.error (invalidCredential reason)) := by
  rw [resolution, if_neg hm]
  cases h : resolveNamedCookie R (matchedPairs base pairs) base with
  | error e =>
    obtain ⟨reason, rfl⟩ := resolveNamedCookie_error h
    exact ⟨reason, rfl⟩
  | ok answer =>
    have hr : resolution R base pairs = some (.ok answer) := by rw [resolution, if_neg hm, h]
    obtain ⟨value, hv, -⟩ := resolution_answers.mp hr
    exact (hc value hv).elim

theorem matchedPairs_woven
    (h : Woven (fun p => p.1 ∉ acceptableNames base ∨ blank p.2 = true) pairs pairs') :
    matchedPairs base pairs = matchedPairs base pairs' := by
  simp only [matchedPairs, ← List.filterMap_eq_filter]
  refine (h.filterMap_eq fun p _ hp => ?_).symm
  rw [Option.guard_eq_none_iff]
  obtain hp | hp := hp
  · simp [hp]
  · simp [hp]

theorem resolution_exact (R : Runtime) (base : Text) : Exact R base where
  answers _ _ := resolution_answers
  refuses _ hm hc := resolution_refuses hm hc
  absent pairs := by simp [resolution]
  permuted _ _ h := resolution_congr (h.filter _)
  inert _ _ h := resolution_congr (matchedPairs_woven h ▸ .refl _)
  lines _ h := extracted_eq h
  split connection connection' h h' hp := by
    rw [extracted_eq h, extracted_eq h']
    exact resolution_congr (hp.filter _)

end BetterAuthBridge.CookieOrder
