import BetterAuthBridge.CookieParsing

namespace BetterAuthBridge.CookieResolution

open Library.Text Values Errors CookieParsing

variable {R : Runtime} {base name value : Text} {pairs : List Pair}

@[simp] theorem number_decimal (n : Nat) : number (decimal n) = n := Nat.ofDigitChars_ten_toDigits

@[simp] theorem chunkSuffix_chunkName (base : Text) (n : Nat) :
    chunkSuffix (chunkName base n) base = decimal n := by
  have h : (base ++ '.' :: decimal n).drop (base.length + 1) = decimal n := by
    rw [List.append_cons]
    exact List.drop_left' (by simp)
  exact h

theorem isChunk_chunkName {n : Nat} : isChunk (chunkName base n) base = true ↔ n < maxChunks := by
  have hp : (base ++ ['.']).isPrefixOf (chunkName base n) = true := by
    rw [List.isPrefixOf_iff_prefix]
    exact ⟨decimal n, by simp [chunkName]⟩
  have hd : (decimal n).all Char.isDigit = true :=
    List.all_eq_true.mpr fun c hc => Nat.isDigit_of_mem_toDigits (by decide) (by decide) hc
  have hn : decimal n ≠ [] := Nat.toDigits_ne_nil
  simp [isChunk, hp, hd, hn]

theorem not_isChunk_base (base : Text) : isChunk base base = false := by
  have hp : (base ++ ['.']).isPrefixOf base = false := by
    by_contra h
    have hl := (List.isPrefixOf_iff_prefix.mp (eq_true_of_ne_false h)).length_le
    rw [List.length_append, List.length_singleton] at hl
    omega
  simp [isChunk, hp]

theorem mem_acceptableNames :
    name ∈ acceptableNames base ↔ name = base ∨ ∃ n < maxChunks, name = chunkName base n := by
  simp [acceptableNames, eq_comm]

theorem chunkName_ne_base (base : Text) (n : Nat) : chunkName base n ≠ base := by
  intro h
  have hl := congrArg List.length h
  simp [chunkName] at hl

def chunkPair (base : Text) (p : Nat × Text) : Pair := (chunkName base p.1, p.2)

/-- What the matched pairs may look like for a server to have sent them: the cookie whole, or all
its chunks, numbered from 0, in any order. -/
inductive Carries (base : Text) (matched : List Pair) : Text → Prop
  | whole (value : Text) : matched = [(base, value)] → Carries base matched value
  | chunked (values : List Text) : values ≠ [] →
      matched.Perm ((numbered values).map (chunkPair base)) →
      values.flatten.length ≤ maxCookieBytes → Carries base matched values.flatten

section

variable (hacc : ∀ p ∈ pairs, p.1 ∈ acceptableNames base)
include hacc

theorem pairs_of_no_chunk (h : chunkValues pairs base = []) :
    pairs = (wholeValues pairs base).map fun v => (base, v) := by
  have hname : ∀ p ∈ pairs, p.1 = base := by
    intro p hp
    have hc : isChunk p.1 base ≠ true :=
      List.filter_eq_nil_iff.mp (List.map_eq_nil_iff.mp h) p hp
    obtain hb | ⟨n, hn, hb⟩ := mem_acceptableNames.mp (hacc p hp)
    · exact hb
    · exact (hc (hb ▸ isChunk_chunkName.mpr hn)).elim
  have hf : pairs.filter (fun p => p.1 = base) = pairs :=
    List.filter_eq_self.mpr fun p hp => decide_eq_true (hname p hp)
  calc pairs = pairs.map id := (List.map_id _).symm
    _ = pairs.map ((fun v => (base, v)) ∘ Prod.snd) :=
      List.map_congr_left fun p hp => Prod.ext (hname p hp) rfl
    _ = (wholeValues pairs base).map fun v => (base, v) := by rw [wholeValues, hf, List.map_map]

theorem pairs_of_no_whole (h : wholeValues pairs base = []) :
    pairs = (chunkValues pairs base).map (chunkPair base) := by
  have hname : ∀ p ∈ pairs, ∃ n < maxChunks, p.1 = chunkName base n := by
    intro p hp
    have hw : ¬ (p.1 = base) := by
      simpa using List.filter_eq_nil_iff.mp (List.map_eq_nil_iff.mp h) p hp
    exact (mem_acceptableNames.mp (hacc p hp)).resolve_left hw
  have hf : pairs.filter (fun p => isChunk p.1 base) = pairs := by
    apply List.filter_eq_self.mpr
    intro p hp
    obtain ⟨n, hn, he⟩ := hname p hp
    exact he ▸ isChunk_chunkName.mpr hn
  calc pairs = pairs.map id := (List.map_id _).symm
    _ = pairs.map (chunkPair base ∘ fun p => (number (chunkSuffix p.1 base), p.2)) := by
      apply List.map_congr_left
      intro p hp
      obtain ⟨n, -, he⟩ := hname p hp
      simp only [id_eq, Function.comp_apply, chunkPair, he, chunkSuffix_chunkName, number_decimal]
      exact Prod.ext he rfl
    _ = (chunkValues pairs base).map (chunkPair base) := by rw [chunkValues, hf, List.map_map]

end

theorem reassembled_ok {chunks : List (Nat × Text)} :
    reassembled R chunks base = .ok value ↔ ∃ values : List Text, chunks.Perm (numbered values) ∧
      values.flatten.length ≤ maxCookieBytes ∧ values.flatten = value := by
  unfold reassembled
  simp only [List.length_map]
  split
  · rename_i hne
    refine ⟨nofun, ?_⟩
    rintro ⟨values, hp, -⟩
    exact (hne (insertionSort_eq_numbered.mpr hp).1).elim
  · rename_i he
    have he' := not_not.mp he
    have key : ∀ values, chunks.Perm (numbered values) ↔
        (chunks.insertionSort byNumber).map Prod.snd = values := by
      intro values
      rw [← insertionSort_eq_numbered]
      exact and_iff_right he'
    simp only [key, exists_eq_left']
    split
    · rename_i hlt
      exact ⟨nofun, fun h => (hlt.not_ge h.1).elim⟩
    · rename_i hle
      have hle' := not_lt.mp hle
      simp only [pure_eq_ok, Except.ok.injEq, hle', true_and]

theorem valueForBase_ok :
    valueForBase R pairs base = .ok (some value) ↔
      (wholeValues pairs base = [value] ∧ chunkValues pairs base = []) ∨
        (wholeValues pairs base = [] ∧ chunkValues pairs base ≠ [] ∧
          reassembled R (chunkValues pairs base) base = .ok value) := by
  unfold valueForBase
  split
  · rename_i hw hc
    simp [hw, hc]
  · rename_i hw hc
    simp [hw, hc]
  · rename_i v rest hw hc
    by_cases hr : rest = []
    · simp [hw, hc, hr]
    · simp [hw, hc, hr]
  · rename_i hw hc
    have hc' : chunkValues pairs base ≠ [] := hc
    cases hres : reassembled R (chunkValues pairs base) base with
    | ok v => simp [hw, hc']
    | error e => simp [hw]

theorem resolveCookieValue_eq_ok :
    resolveCookieValue R pairs base = .ok value ↔ valueForBase R pairs base = .ok (some value) := by
  unfold resolveCookieValue resolveNamedCookie
  cases h : valueForBase R pairs base with
  | ok found =>
    cases found <;> simp [bind, Except.bind, ]
  | error e => simp [bind, Except.bind]

theorem resolveNamedCookie_ok :
    resolveNamedCookie R pairs base = .ok (name, value) ↔
      name = base ∧ resolveCookieValue R pairs base = .ok value := by
  cases h : valueForBase R pairs base with
  | error e => simp [resolveCookieValue, resolveNamedCookie, h]
  | ok found => cases found <;> simp [resolveCookieValue, resolveNamedCookie, h, eq_comm]

/-- Among pairs under acceptable names, a value is resolved exactly when they carry it. -/
theorem resolveCookieValue_ok (hacc : ∀ p ∈ pairs, p.1 ∈ acceptableNames base) :
    resolveCookieValue R pairs base = .ok value ↔ Carries base pairs value := by
  rw [resolveCookieValue_eq_ok, valueForBase_ok]
  constructor
  · rintro (⟨hw, hc⟩ | ⟨hw, hc, hr⟩)
    · have hp := pairs_of_no_chunk hacc hc
      rw [hw] at hp
      exact .whole value hp
    · obtain ⟨values, hp, hlen, rfl⟩ := reassembled_ok.mp hr
      refine .chunked values ?_ ?_ hlen
      · rintro rfl
        exact hc hp.eq_nil
      · rw [pairs_of_no_whole hacc hw]
        exact hp.map _
  · intro h
    cases h with
    | whole value hp =>
      left
      simp [hp, wholeValues, chunkValues, not_isChunk_base]
    | chunked values hne hp hlen =>
      right
      have hw : wholeValues pairs base = [] := by
        rw [wholeValues, List.map_eq_nil_iff, List.filter_eq_nil_iff]
        intro p hp'
        obtain ⟨q, -, rfl⟩ := List.mem_map.mp (hp.mem_iff.mp hp')
        simp [chunkPair, chunkName_ne_base]
      have hinj : Function.Injective (chunkPair base) := by
        intro a b hab
        have hs := congrArg (fun p : Pair => (number (chunkSuffix p.1 base), p.2)) hab
        simpa [chunkPair, Prod.ext_iff] using hs
      have hperm : (chunkValues pairs base).Perm (numbered values) := by
        rw [pairs_of_no_whole hacc hw] at hp
        exact (List.map_perm_map_iff hinj).mp hp
      refine ⟨hw, ?_, reassembled_ok.mpr ⟨values, hperm, hlen, rfl⟩⟩
      intro hc
      rw [hc] at hperm
      exact hne (by simpa [numbered] using hperm.symm.eq_nil)

theorem Carries.ne_nil (h : Carries base pairs value) : pairs ≠ [] := by
  cases h with
  | whole value hp => simp [hp]
  | chunked values hne hp hlen =>
    rintro rfl
    have hn := hp.symm.eq_nil
    simp [numbered, hne] at hn

theorem acceptable_of_mem_matchedPairs {p : Pair} (h : p ∈ matchedPairs base pairs) :
    p.1 ∈ acceptableNames base := by
  have hp := (List.mem_filter.mp h).2
  simp only [Bool.and_eq_true, decide_eq_true_eq] at hp
  exact hp.1

theorem presented_eq_some {header : Text} {matched : List Pair} :
    presented base header = some matched ↔
      header.length ≤ maxCookieHeaderBytes ∧ (cookiePairs header).length ≤ maxCookiePairs ∧
        matchedPairs base (cookiePairs header) = matched ∧ matched ≠ [] := by
  unfold presented
  by_cases hh : maxCookieHeaderBytes < header.length
  · simp [hh, not_le.mpr hh]
  by_cases hp : maxCookiePairs < (cookiePairs header).length
  · simp [hh, hp, not_le.mpr hp]
  by_cases hm : matchedPairs base (cookiePairs header) = []
  · simp only [hh, hp, hm, if_true, if_false]
    exact ⟨nofun, fun h => (h.2.2.2 h.2.2.1.symm).elim⟩
  · simp only [hh, hp, hm, if_false, Option.some.injEq]
    exact ⟨fun h => ⟨not_lt.mp hh, not_lt.mp hp, h, h ▸ hm⟩, fun h => h.2.2.1⟩

end BetterAuthBridge.CookieResolution
