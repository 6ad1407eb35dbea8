import BetterAuthBridge.CookieResolution

namespace BetterAuthBridge.CookieNames

open Library.Text Values Errors CookieParsing CookieResolution

variable {R : Runtime} {base header fragment name : Text}

/-- What RFC 6265 lets stand around a name in a Cookie header: SP and HTAB. -/
def isPadding (c : Char) : Bool := c == ' ' || c == '\t'

def sentName (fragment : Text) : Option Text := (cut '=' fragment).map fun r => trim isPadding r.1

def SentAcceptably (base fragment : Text) : Prop :=
  ∃ n ∈ acceptableNames base, sentName fragment = some n

def Contributes (base header fragment : Text) : Prop :=
  fragment ∈ header.splitOn ';' ∧ ∃ matched p, presented base header = some matched ∧
    cookiePair fragment = some p ∧ p ∈ matched

/-- A fragment that writes an acceptable name, between whitespace, and gives it a value. -/
structure Writes (base fragment before name after value : Text) : Prop where
  eq : fragment = before ++ name ++ after ++ '=' :: value
  acceptable : name ∈ acceptableNames base
  spaced : ∀ c ∈ before ++ after, isSpace c
  filled : blank value = false

/-- Wherever the header writes an acceptable name with a value, only SP and HTAB stand around it. -/
def CleanlyWritten (base header : Text) : Prop :=
  ∀ fragment ∈ header.splitOn ';', ∀ before name after value,
    Writes base fragment before name after value → ∀ c ∈ before ++ after, isPadding c

def tokenChar (c : Char) : Bool :=
  33 ≤ c.toNat && c.toNat ≤ 126 && !"()<>@,;:\\\"/[]?=\x7b\x7d".toList.contains c

def Token (base : Text) : Prop := base ≠ [] ∧ ∀ c ∈ base, tokenChar c

theorem isSpace_of_isPadding {c : Char} (h : isPadding c) : isSpace c := by
  simp only [isPadding, Bool.or_eq_true, beq_iff_eq] at h
  obtain rfl | rfl := h <;> decide

def Visible (c : Char) : Prop := 33 ≤ c.toNat ∧ c.toNat ≤ 126 ∧ c ≠ '='

theorem Visible.not_isSpace {c : Char} (h : Visible c) : ¬ isSpace c := by
  obtain ⟨hl, hu, -⟩ := h
  simp only [isSpace, Bool.or_eq_true, Bool.and_eq_true, decide_eq_true_eq, beq_iff_eq]
  omega

theorem visible_of_tokenChar {c : Char} (h : tokenChar c) : Visible c := by
  simp only [tokenChar, Bool.and_eq_true, decide_eq_true_eq, Bool.not_eq_true'] at h
  refine ⟨h.1.1, h.1.2, ?_⟩
  rintro rfl
  exact absurd h.2 (by decide)

theorem visible_of_mem_decimal {n : Nat} {c : Char} (h : c ∈ decimal n) : Visible c := by
  have hd := Nat.isDigit_of_mem_toDigits (by decide) (by decide) h
  simp only [Char.isDigit, Bool.and_eq_true, decide_eq_true_eq, ge_iff_le,
    UInt32.le_iff_toNat_le] at hd
  have hl : 48 ≤ c.toNat := hd.1
  have hu : c.toNat ≤ 57 := hd.2
  refine ⟨by omega, by omega, ?_⟩
  rintro rfl
  exact absurd hu (by decide)

theorem visible_of_mem_acceptable (hbase : Token base) (h : name ∈ acceptableNames base) {c : Char}
    (hc : c ∈ name) : Visible c := by
  obtain rfl | ⟨n, -, rfl⟩ := mem_acceptableNames.mp h
  · exact visible_of_tokenChar (hbase.2 c hc)
  · obtain hc | hc := List.mem_append.mp hc
    · exact visible_of_tokenChar (hbase.2 c hc)
    · obtain rfl | hc := List.mem_cons.mp hc
      · exact ⟨by decide, by decide, by decide⟩
      · exact visible_of_mem_decimal hc

theorem acceptable_ne_nil (hbase : Token base) (h : name ∈ acceptableNames base) : name ≠ [] := by
  obtain rfl | ⟨n, -, rfl⟩ := mem_acceptableNames.mp h
  · exact hbase.1
  · simp [chunkName]

theorem cookiePair_eq (fragment : Text) :
    cookiePair fragment = (cut '=' fragment).map fun r => (strip r.1, strip r.2) := by
  have hs : ¬ isSpace '=' := by decide
  simp only [cookiePair, strip, cut_trim hs, Option.map_map, Function.comp_def, trim_dropWhile,
    trim_rdropWhile]

@[simp] theorem blank_strip (t : Text) : blank (strip t) = blank t := by
  rw [Bool.eq_iff_iff, blank_iff, blank_iff, strip, strip, trim_trim]

section

variable {before after value : Text}

theorem Writes.cut_eq (hbase : Token base) (h : Writes base fragment before name after value) :
    cut '=' fragment = some (before ++ name ++ after, value) := by
  rw [h.eq]
  apply cut_append
  intro hm
  rw [List.append_assoc, List.mem_append, List.mem_append] at hm
  have hs : ¬ isSpace '=' := by decide
  obtain hm | hm | hm := hm
  · exact hs (h.spaced _ (List.mem_append_left _ hm))
  · exact (visible_of_mem_acceptable hbase h.acceptable hm).2.2 rfl
  · exact hs (h.spaced _ (List.mem_append_right _ hm))

theorem Writes.cookiePair (hbase : Token base) (h : Writes base fragment before name after value) :
    CookieParsing.cookiePair fragment = some (name, strip value) := by
  have hn : strip (before ++ name ++ after) = name :=
    trim_padded (fun c hc => h.spaced c (List.mem_append_left _ hc))
      (fun c hc => h.spaced c (List.mem_append_right _ hc))
      (trim_eq_self fun c hc => (visible_of_mem_acceptable hbase h.acceptable hc).not_isSpace)
  rw [cookiePair_eq, h.cut_eq hbase, Option.map_some, hn]

/-- What the client sent there is an acceptable name exactly when nothing but SP and HTAB stands
around it. -/
theorem Writes.sentAcceptably_iff (hbase : Token base)
    (h : Writes base fragment before name after value) :
    SentAcceptably base fragment ↔ ∀ c ∈ before ++ after, isPadding c := by
  have hvis : ∀ {n : Text}, n ∈ acceptableNames base → ∀ c ∈ n, ¬ isSpace c :=
    fun hn c hc => (visible_of_mem_acceptable hbase hn hc).not_isSpace
  rw [SentAcceptably, sentName, h.cut_eq hbase]
  simp only [Option.map_some, Option.some.injEq]
  constructor
  · rintro ⟨n, hn, rfl⟩
    obtain ⟨x, y, he, hx, hy⟩ := trim_decomp isPadding (before ++ name ++ after)
    obtain ⟨rfl, -, rfl⟩ := padded_inj (fun c hc => h.spaced c (List.mem_append_left _ hc))
      (fun c hc => h.spaced c (List.mem_append_right _ hc)) (hvis h.acceptable)
      (fun c hc => isSpace_of_isPadding (hx c hc)) (fun c hc => isSpace_of_isPadding (hy c hc))
      (hvis hn) (acceptable_ne_nil hbase h.acceptable) (acceptable_ne_nil hbase hn) he
    exact fun c hc => (List.mem_append.mp hc).elim (hx c) (hy c)
  · intro hp
    refine ⟨name, h.acceptable, trim_padded (fun c hc => hp c (List.mem_append_left _ hc))
      (fun c hc => hp c (List.mem_append_right _ hc)) (trim_eq_self fun c hc hpad => ?_)⟩
    exact hvis h.acceptable c hc (isSpace_of_isPadding hpad)

end

def kept (base fragment : Text) : Option Pair :=
  (CookieParsing.cookiePair fragment).filter fun p => p.1 ∈ acceptableNames base && !blank p.2

theorem matchedPairs_cookiePairs (base header : Text) :
    matchedPairs base (cookiePairs header) = (header.splitOn ';').filterMap (kept base) := by
  rw [matchedPairs, cookiePairs, List.filter_filterMap]
  rfl

theorem exists_writes_of_kept {p : Pair} (h : kept base fragment = some p) :
    ∃ before after value, Writes base fragment before p.1 after value := by
  obtain ⟨hp, hok⟩ := Option.filter_eq_some_iff.mp h
  rw [cookiePair_eq] at hp
  obtain ⟨⟨x, value⟩, hc, rfl⟩ := Option.map_eq_some_iff.mp hp
  obtain ⟨before, after, hx, hb, ha⟩ := trim_decomp isSpace x
  simp only [Bool.and_eq_true, decide_eq_true_eq, blank_strip, Bool.not_eq_true'] at hok
  refine ⟨before, after, value, ?_, hok.1, ?_, hok.2⟩
  · rw [strip, ← hx]
    exact (cut_eq_some.mp hc).1
  · exact fun c hc => (List.mem_append.mp hc).elim (hb c) (ha c)

def WithinCaps (header : Text) : Prop :=
  header.length ≤ maxCookieHeaderBytes ∧ (cookiePairs header).length ≤ maxCookiePairs

/-- Only names that were sent as acceptable ones are read, and cookies sent under other names
change nothing that is presented. -/
structure ReadsAsSent (base header : Text) : Prop where
  sent : ∀ fragment, Contributes base header fragment → SentAcceptably base fragment
  inert : ∀ original, WithinCaps original →
    Woven (fun f => ¬ SentAcceptably base f) (original.splitOn ';') (header.splitOn ';') →
    presented base original = presented base header

theorem presented_eq (h : WithinCaps header) :
    presented base header =
      if (header.splitOn ';').filterMap (kept base) = [] then none
      else some ((header.splitOn ';').filterMap (kept base)) := by
  rw [presented, if_neg (not_lt.mpr h.1), ← matchedPairs_cookiePairs]
  simp only [if_neg (not_lt.mpr h.2)]

theorem contributes_iff (h : WithinCaps header) :
    Contributes base header fragment ↔
      fragment ∈ header.splitOn ';' ∧ ∃ p, kept base fragment = some p := by
  constructor
  · rintro ⟨hf, matched, p, hm, hp, hmem⟩
    obtain ⟨-, -, rfl, -⟩ := presented_eq_some.mp hm
    exact ⟨hf, p, Option.filter_eq_some_iff.mpr ⟨hp, (List.mem_filter.mp hmem).2⟩⟩
  · rintro ⟨hf, p, hk⟩
    have hmem : p ∈ (header.splitOn ';').filterMap (kept base) :=
      List.mem_filterMap.mpr ⟨fragment, hf, hk⟩
    refine ⟨hf, _, p, ?_, (Option.filter_eq_some_iff.mp hk).1, hmem⟩
    rw [presented_eq h, if_neg (List.ne_nil_of_mem hmem)]

theorem readsAsSent_iff (hbase : Token base) (hcaps : WithinCaps header) :
    ReadsAsSent base header ↔ CleanlyWritten base header := by
  constructor
  · intro h fragment hf before name after value hw
    have hk : kept base fragment = some (name, strip value) := by
      refine Option.filter_eq_some_iff.mpr ⟨hw.cookiePair hbase, ?_⟩
      simp [hw.acceptable, hw.filled]
    exact (hw.sentAcceptably_iff hbase).mp (h.sent _ ((contributes_iff hcaps).mpr ⟨hf, _, hk⟩))
  · intro h
    have hsent : ∀ fragment ∈ header.splitOn ';', ∀ p, kept base fragment = some p →
        SentAcceptably base fragment := by
      intro fragment hf p hk
      obtain ⟨before, after, value, hw⟩ := exists_writes_of_kept hk
      exact (hw.sentAcceptably_iff hbase).mpr (h fragment hf _ _ _ _ hw)
    constructor
    · intro fragment hc
      obtain ⟨hf, p, hk⟩ := (contributes_iff hcaps).mp hc
      exact hsent fragment hf p hk
    · intro original hoc hwoven
      have he := hwoven.filterMap_eq fun fragment hf hn =>
        Option.eq_none_iff_forall_ne_some.mpr fun p hk => hn (hsent fragment hf p hk)
      rw [presented_eq hoc, presented_eq hcaps, he]

instance (base : Text) : Decidable (Token base) :=
  decidable_of_iff (base ≠ [] ∧ base.all tokenChar = true) (by rw [Token, List.all_eq_true])

instance (header : Text) : Decidable (WithinCaps header) := inferInstanceAs (Decidable (_ ∧ _))

def defaultBase : Text := defaultSecurePrefix ++ defaultCookieName

theorem readsAsSent_iff_plain :
    ReadsAsSent defaultBase ("theme=dark; ".toList ++ defaultBase ++ "=a.b".toList) ↔
      CleanlyWritten defaultBase ("theme=dark; ".toList ++ defaultBase ++ "=a.b".toList) :=
  readsAsSent_iff (by decide) (by decide)

/-- A cookie whose name begins with a no-break space, which `str.strip` removes. -/
def nbspHeader : Text := '\u00a0' :: defaultBase ++ "=a.b".toList

theorem nbsp_name_is_read : ¬ ∀ base header : Text, Token base → (∀ c ∈ header, c.toNat < 256) →
    WithinCaps header → ReadsAsSent base header := by
  intro h
  have hlatin : nbspHeader.all (fun c => decide (c.toNat < 256)) = true := by decide
  have hr := h defaultBase nbspHeader (by decide)
    (fun c hc => of_decide_eq_true (List.all_eq_true.mp hlatin c hc)) (by decide)
  have hc : Contributes defaultBase nbspHeader nbspHeader :=
    ⟨by decide, [(defaultBase, "a.b".toList)], (defaultBase, "a.b".toList), by decide, by decide,
      by decide⟩
  obtain ⟨n, hn, hs⟩ := hr.sent nbspHeader hc
  have he : sentName nbspHeader = some ('\u00a0' :: defaultBase) := by decide
  obtain rfl : '\u00a0' :: defaultBase = n := Option.some.inj (he.symm.trans hs)
  exact absurd hn (by decide)

end BetterAuthBridge.CookieNames
