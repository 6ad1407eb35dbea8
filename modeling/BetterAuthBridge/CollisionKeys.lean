import BetterAuthBridge.CookieCollisions

namespace BetterAuthBridge.CollisionKeys

open Library.Text Values Labels CookieCollisions

/-- What `str.casefold()` is documented to do: folded text folds to itself, folding neither makes
nor loses whitespace, and no character folds to part of `cookie:` together with more. -/
structure FoldingLaws (F : CaseFolding) : Prop where
  idempotent : ∀ c, ∀ d ∈ F.fold c, F.fold d = [d]
  space : ∀ c, ∀ d ∈ F.fold c, isSpace d = isSpace c
  ne_nil : ∀ c, F.fold c ≠ []
  single : ∀ c a b rest, F.fold c = a :: b :: rest → a ≠ ':' ∧ ¬ [a, b] <:+: cookiePrefix

variable {F : CaseFolding} {n m source folded p lead : Text} {ps : List Text}

def Solid (t : Text) : Prop := ∀ c ∈ t, isSpace c = false

/-- A label of the cookie: `cookie:` in some letter case, then any stack of browser prefixes in any
letter case before the name, with whitespace around each. -/
inductive Spells (F : CaseFolding) (n : Text) : Text → Prop
  | label {before tag between after : Text} {ps : List Text} : blank before = true →
      blank between = true → blank after = true → tag.length = cookiePrefix.length →
      F.casefold tag = cookiePrefix → (∀ p ∈ ps, F.casefold p ∈ browserCookiePrefixes) →
      Spells F n (before ++ (tag ++ (between ++ (ps.flatten ++ n))) ++ after)

def bare (F : CaseFolding) (n : Text) : Text := base (F.casefold n)

theorem casefold_append (F : CaseFolding) (s t : Text) :
    F.casefold (s ++ t) = F.casefold s ++ F.casefold t := List.flatMap_append

theorem casefold_ascii (F : CaseFolding) {t : Text} (h : ∀ c ∈ t, isAscii c = true) :
    F.casefold t = t.map Char.toLower := by
  induction t with
  | nil => rfl
  | cons c t ih =>
    have hc := F.ascii c (h c List.mem_cons_self)
    have ht := ih fun d hd => h d (List.mem_cons_of_mem c hd)
    change F.fold c ++ F.casefold t = _
    rw [hc, ht]
    rfl

theorem fold_of_mem (laws : FoldingLaws F) {t : Text} {d : Char} (h : d ∈ F.casefold t) :
    F.fold d = [d] := by
  obtain ⟨c, -, hc⟩ := List.mem_flatMap.mp h
  exact laws.idempotent c d hc

theorem casefold_of_fixed {t : Text} (h : ∀ d ∈ t, F.fold d = [d]) : F.casefold t = t := by
  induction t with
  | nil => rfl
  | cons d t ih =>
    change F.fold d ++ F.casefold t = _
    rw [h d List.mem_cons_self, ih fun e he => h e (List.mem_cons_of_mem d he)]
    rfl

theorem casefold_casefold (laws : FoldingLaws F) (t : Text) :
    F.casefold (F.casefold t) = F.casefold t :=
  casefold_of_fixed fun _ => fold_of_mem laws

theorem casefold_solid (laws : FoldingLaws F) {t : Text} : Solid (F.casefold t) ↔ Solid t := by
  constructor
  · intro h c hc
    obtain ⟨d, hd⟩ := List.exists_mem_of_ne_nil _ (laws.ne_nil c)
    rw [← laws.space c d hd]
    exact h d (List.mem_flatMap.mpr ⟨c, hc, hd⟩)
  · intro h d hd
    obtain ⟨c, hc, hcd⟩ := List.mem_flatMap.mp hd
    rw [laws.space c d hcd]
    exact h c hc

theorem baseWithin_enough (folded : Text) :
    ∀ rounds, folded.length ≤ rounds → baseWithin rounds folded = base folded := by
  have hsame : ∀ k, ∀ folded : Text, folded.length ≤ k → ∀ rounds, folded.length ≤ rounds →
      baseWithin rounds folded = baseWithin k folded := by
    intro k
    induction k with
    | zero =>
      intro folded hk rounds _
      obtain rfl := List.length_eq_zero_iff.mp (Nat.le_zero.mp hk)
      cases rounds <;> rfl
    | succ k ih =>
      intro folded hk rounds hr
      cases rounds with
      | zero =>
        obtain rfl := List.length_eq_zero_iff.mp (Nat.le_zero.mp hr)
        rfl
      | succ rounds =>
        rw [baseWithin, baseWithin]
        cases hp : browserPrefix folded with
        | none => rfl
        | some p =>
          have hlt := browserPrefix_shortens hp
          exact ih _ (by omega) _ (by omega)
  intro rounds h
  exact hsame folded.length folded le_rfl rounds h

theorem base_of_none (h : browserPrefix folded = none) : base folded = folded := by
  rw [base]
  cases folded with
  | nil => rfl
  | cons c folded => rw [List.length_cons, baseWithin, h]

theorem base_of_some (h : browserPrefix folded = some p) :
    base folded = base (folded.drop p.length) := by
  have hlt := browserPrefix_shortens h
  obtain ⟨rounds, hr⟩ : ∃ rounds, folded.length = rounds + 1 := ⟨folded.length - 1, by omega⟩
  rw [base, hr, baseWithin, h]
  exact baseWithin_enough _ _ (by omega)

theorem browserPrefix_append (hp : p ∈ browserCookiePrefixes) (folded : Text) :
    browserPrefix (p ++ folded) = some p := by
  simp only [browserCookiePrefixes, List.mem_cons, List.not_mem_nil, or_false] at hp
  obtain rfl | rfl := hp <;> rfl

theorem base_append (hp : p ∈ browserCookiePrefixes) (folded : Text) :
    base (p ++ folded) = base folded := by
  rw [base_of_some (browserPrefix_append hp folded), List.drop_left]

theorem bare_stacked (h : ∀ p ∈ ps, F.casefold p ∈ browserCookiePrefixes) (n : Text) :
    bare F (ps.flatten ++ n) = bare F n := by
  induction ps with
  | nil => rfl
  | cons p ps ih =>
    rw [List.flatten_cons, List.append_assoc, bare, casefold_append,
      base_append (h p List.mem_cons_self)]
    exact ih fun q hq => h q (List.mem_cons_of_mem p hq)

theorem base_decomp (folded : Text) : ∃ ps : List Text, (∀ p ∈ ps, p ∈ browserCookiePrefixes) ∧
    folded = ps.flatten ++ base folded := by
  induction hl : folded.length using Nat.strong_induction_on generalizing folded with
  | _ k ih =>
    subst hl
    cases hp : browserPrefix folded with
    | none =>
      rw [base_of_none hp]
      exact ⟨[], nofun, rfl⟩
    | some p =>
      obtain ⟨ps, hps, he⟩ := ih _ (browserPrefix_shortens hp) _ rfl
      refine ⟨p :: ps, ?_, ?_⟩
      · intro q hq
        obtain rfl | hq := List.mem_cons.mp hq
        · exact List.mem_of_find?_eq_some hp
        · exact hps q hq
      · rw [base_of_some hp, List.flatten_cons, List.append_assoc, ← he]
        have hpre : p.isPrefixOf folded = true := by
          rw [browserPrefix] at hp
          exact List.find?_some (p := fun p : Text => p.isPrefixOf folded) hp
        exact (List.prefix_iff_eq_append.mp (List.isPrefixOf_iff_prefix.mp hpre)).symm

theorem not_space {t : Text} (h : Solid t) : ∀ c ∈ t, ¬ isSpace c = true := by
  intro c hc
  rw [h c hc]
  decide

theorem strip_of_solid (h : Solid n) : strip n = n := trim_eq_self (not_space h)

theorem space_of_blank {t : Text} (h : blank t = true) : ∀ c ∈ t, isSpace c = true :=
  List.all_eq_true.mp h

theorem solid_of_folds (laws : FoldingLaws F) {t : Text} (h : Solid (F.casefold t)) : Solid t :=
  (casefold_solid laws).mp h

theorem cookiePrefix_solid : Solid cookiePrefix := by
  have h : (cookiePrefix.all fun c => !isSpace c) = true := by decide
  intro c hc
  have := List.all_eq_true.mp h c hc
  rwa [Bool.not_eq_true'] at this

theorem browserCookiePrefixes_solid (hp : p ∈ browserCookiePrefixes) : Solid p := by
  have h : (browserCookiePrefixes.all fun p => p.all fun c => !isSpace c) = true := by decide
  intro c hc
  have := List.all_eq_true.mp (List.all_eq_true.mp h p hp) c hc
  rwa [Bool.not_eq_true'] at this

theorem cookieNamed_of_spells (laws : FoldingLaws F) (hne : n ≠ []) (hn : Solid n)
    (h : Spells F n source) : ∃ ps : List Text,
      (∀ p ∈ ps, F.casefold p ∈ browserCookiePrefixes) ∧
      cookieNamed F source = some (ps.flatten ++ n) := by
  cases h with
  | @label before tag between after ps hb hw ha hlen htag hps =>
    refine ⟨ps, hps, ?_⟩
    have hstack : Solid (ps.flatten ++ n) := by
      intro c hc
      obtain hc | hc := List.mem_append.mp hc
      · obtain ⟨p, hp, hcp⟩ := List.mem_flatten.mp hc
        exact solid_of_folds laws (browserCookiePrefixes_solid (hps p hp)) c hcp
      · exact hn c hc
    have hsolid : Solid tag := solid_of_folds laws (htag ▸ cookiePrefix_solid)
    have hnil : ps.flatten ++ n ≠ [] := by
      intro he
      exact hne (List.append_eq_nil_iff.mp he).2
    have htagnil : tag ≠ [] := by
      rintro rfl
      cases hlen
    have hcore : trim isSpace (tag ++ (between ++ (ps.flatten ++ n))) =
        tag ++ (between ++ (ps.flatten ++ n)) :=
      trim_of_ends (not_space hsolid) (not_space hstack) htagnil hnil between
    have hstrip : strip (before ++ (tag ++ (between ++ (ps.flatten ++ n))) ++ after) =
        tag ++ (between ++ (ps.flatten ++ n)) :=
      trim_padded (space_of_blank hb) (space_of_blank ha) hcore
    have hname : strip (between ++ (ps.flatten ++ n)) = ps.flatten ++ n := by
      have hpad := trim_padded (space_of_blank hw) (b := []) nofun (strip_of_solid hstack)
      rwa [List.append_nil] at hpad
    rw [cookieNamed, hstrip]
    dsimp only
    rw [casefold_append, htag, if_pos (List.isPrefixOf_iff_prefix.mpr (List.prefix_append _ _)),
      ← hlen, List.drop_left, hname, if_neg hnil]

theorem collisionKey_of_spells (laws : FoldingLaws F) (hne : n ≠ []) (hn : Solid n)
    (h : Spells F n source) : collisionKey F source = cookieSource (bare F n) := by
  obtain ⟨ps, hps, hnamed⟩ := cookieNamed_of_spells laws hne hn h
  rw [collisionKey, hnamed, ← bare_stacked hps, bare]

theorem spells_plain (hn : F.casefold cookiePrefix = cookiePrefix) (n : Text) :
    Spells F n (cookieSource n) := by
  have h : Spells F n ([] ++ (cookiePrefix ++ ([] ++ (List.flatten [] ++ n))) ++ []) :=
    .label rfl rfl rfl rfl hn nofun
  rw [List.append_nil] at h
  exact h

theorem casefold_cookiePrefix (F : CaseFolding) : F.casefold cookiePrefix = cookiePrefix := by
  have h : (cookiePrefix.all isAscii) = true := by decide
  rw [casefold_ascii F (List.all_eq_true.mp h)]
  decide

theorem base_subset (folded : Text) : base folded ⊆ folded := by
  obtain ⟨ps, -, he⟩ := base_decomp folded
  conv_rhs => rw [he]
  exact List.subset_append_right _ _

theorem bare_solid (laws : FoldingLaws F) (hn : Solid n) : Solid (bare F n) := by
  intro c hc
  exact (casefold_solid laws).mpr hn c (base_subset _ hc)

theorem casefold_bare (laws : FoldingLaws F) (n : Text) : F.casefold (bare F n) = bare F n :=
  casefold_of_fixed fun _ hd => fold_of_mem laws (base_subset _ hd)

theorem bare_bare (laws : FoldingLaws F) (n : Text) : bare F (bare F n) = bare F n := by
  rw [bare, casefold_bare laws]
  exact base_of_none (browserPrefix_base _)

theorem key_of_key (laws : FoldingLaws F) (hn : Solid n) :
    collisionKey F (cookieSource (bare F n)) = cookieSource (bare F n) := by
  by_cases hb : bare F n = []
  · rw [hb]
    have hstrip : strip (cookieSource []) = cookiePrefix := strip_of_solid cookiePrefix_solid
    have hnone : cookieNamed F (cookieSource []) = none := by
      rw [cookieNamed, hstrip]
      dsimp only
      rw [casefold_cookiePrefix]
      rfl
    rw [collisionKey, hnone]
    dsimp only
    rw [hstrip, casefold_cookiePrefix]
    rfl
  · have h := collisionKey_of_spells laws hb (bare_solid laws hn)
      (spells_plain (casefold_cookiePrefix F) (bare F n))
    rw [h, bare_bare laws]

theorem casefold_take (laws : FoldingLaws F) {w : Text} (hw : w <:+ cookiePrefix) (t : Text)
    (h : w <+: F.casefold t) : F.casefold (t.take w.length) = w := by
  induction w generalizing t with
  | nil => rfl
  | cons x w ih =>
    cases t with
    | nil => cases List.prefix_nil.mp h
    | cons c t =>
      obtain ⟨a, rest, hc⟩ := List.exists_cons_of_ne_nil (laws.ne_nil c)
      change x :: w <+: F.fold c ++ F.casefold t at h
      rw [hc, List.cons_append, List.cons_prefix_cons] at h
      obtain ⟨rfl, h⟩ := h
      cases rest with
      | nil =>
        have ht := ih ((List.suffix_cons x w).trans hw) t h
        change F.fold c ++ F.casefold (t.take w.length) = _
        rw [hc, ht]
        rfl
      | cons b rest =>
        -- a character that folds to more than one stands in the way
        obtain ⟨hcolon, hpair⟩ := laws.single c x b rest hc
        cases w with
        | nil =>
          obtain ⟨before, he⟩ := hw
          have hlast := congrArg List.getLast? he
          rw [List.getLast?_concat] at hlast
          exact absurd (Option.some.inj hlast) hcolon
        | cons y w =>
          rw [List.cons_append, List.cons_prefix_cons] at h
          obtain ⟨rfl, -⟩ := h
          exact absurd ((List.prefix_append [x, y] w).isInfix.trans hw.isInfix) hpair

theorem strip_casefold (laws : FoldingLaws F) (t : Text) :
    strip (F.casefold t) = F.casefold (strip t) := trim_flatMap laws.space laws.ne_nil t

theorem key_of_other_key (laws : FoldingLaws F) (h : cookieNamed F source = none) :
    collisionKey F (collisionKey F source) = collisionKey F source := by
  have hkey : collisionKey F source = F.casefold (strip source) := by
    rw [collisionKey, h]
  have hstrip : strip (F.casefold (strip source)) = F.casefold (strip source) := by
    rw [strip_casefold laws, strip, strip, trim_trim]
  have hnone : cookieNamed F (F.casefold (strip source)) = none := by
    rw [cookieNamed] at h ⊢
    rw [hstrip]
    dsimp only at h ⊢
    rw [casefold_casefold laws]
    by_cases hp : cookiePrefix.isPrefixOf (F.casefold (strip source)) = true
    · rw [if_pos hp] at h ⊢
      have hempty : strip ((strip source).drop cookiePrefix.length) = [] := by
        by_contra hn
        rw [if_neg hn] at h
        cases h
      have htake := casefold_take laws List.suffix_rfl _ (List.isPrefixOf_iff_prefix.mp hp)
      have hdrop : (F.casefold (strip source)).drop cookiePrefix.length =
          F.casefold ((strip source).drop cookiePrefix.length) := by
        conv_lhs => rw [← List.take_append_drop cookiePrefix.length (strip source),
          casefold_append, htake, List.drop_left]
      rw [hdrop, strip_casefold laws, hempty]
      rfl
    · rw [if_neg hp]
  rw [hkey, collisionKey, hnone]
  dsimp only
  rw [hstrip, casefold_casefold laws]

/-- The collision key picks one name of every credential. -/
structure Canonical (F : CaseFolding) : Prop where
  plain : ∀ n source, n ≠ [] → Solid n → Spells F n source →
    collisionKey F source = collisionKey F (cookieSource n)
  stripped : ∀ folded, browserPrefix (base folded) = none ∧
    ∃ ps : List Text, (∀ p ∈ ps, p ∈ browserCookiePrefixes) ∧ folded = ps.flatten ++ base folded
  same : ∀ n m source source', n ≠ [] → Solid n → m ≠ [] → Solid m → Spells F n source →
    Spells F m source' → (collisionKey F source = collisionKey F source' ↔ bare F n = bare F m)
  equivalence : Equivalence fun source source' => collisionKey F source = collisionKey F source'
  apart : ∀ lead n m source source', lead ++ n ≠ [] → Solid (lead ++ n) → lead ++ m ≠ [] →
    Solid (lead ++ m) → Spells F (lead ++ n) source → Spells F (lead ++ m) source' →
    browserPrefix (F.casefold (lead ++ n)) = none → browserPrefix (F.casefold (lead ++ m)) = none →
    (collisionKey F source = collisionKey F source' ↔ F.casefold n = F.casefold m)
  again : ∀ n source, n ≠ [] → Solid n → Spells F n source →
    collisionKey F (collisionKey F source) = collisionKey F source
  againElsewhere : ∀ source, cookieNamed F source = none →
    collisionKey F (collisionKey F source) = collisionKey F source

theorem keys_same (laws : FoldingLaws F) {source' : Text} (hn : n ≠ []) (hns : Solid n) (hm : m ≠ [])
    (hms : Solid m) (h : Spells F n source) (h' : Spells F m source') :
    collisionKey F source = collisionKey F source' ↔ bare F n = bare F m := by
  rw [collisionKey_of_spells laws hn hns h, collisionKey_of_spells laws hm hms h', cookieSource,
    cookieSource, List.append_right_inj]

theorem keys_canonical (F : CaseFolding) (laws : FoldingLaws F) : Canonical F := by
  constructor
  · intro n source hne hn h
    rw [collisionKey_of_spells laws hne hn h, collisionKey_of_spells laws hne hn
      (spells_plain (casefold_cookiePrefix F) n)]
  · intro folded
    exact ⟨browserPrefix_base folded, base_decomp folded⟩
  · intro n m source source' hn hns hm hms h h'
    exact keys_same laws hn hns hm hms h h'
  · exact ⟨fun _ => rfl, Eq.symm, Eq.trans⟩
  · intro lead n m source source' hn hns hm hms h h' hp hp'
    rw [keys_same laws hn hns hm hms h h', bare, bare, base_of_none hp, base_of_none hp',
      casefold_append, casefold_append, List.append_right_inj]
  · intro n source hne hn h
    rw [collisionKey_of_spells laws hne hn h]
    exact key_of_key laws hn
  · intro source h
    exact key_of_other_key laws h

def foldsToAscii : Text :=
  ['ß', 'ẞ', 'ſ', '\u212a', 'ﬀ', 'ﬁ', 'ﬂ', 'ﬃ', 'ﬄ', 'ﬅ', 'ﬆ']

theorem casefoldChar_cases (c : Char) :
    isAscii c = true ∨ c ∈ foldsToAscii ∨ casefoldChar c = [c] := by
  cases ha : isAscii c with
  | true => exact .inl rfl
  | false =>
    right
    unfold casefoldChar
    split
    all_goals first | exact .inl (by decide) | exact .inr (by rw [toLower_of_not_ascii ha])

/-- What holds of the ASCII characters, of those that fold to ASCII and of those that fold to
themselves holds of all. -/
theorem forall_casefoldChar {P : Char → Prop} (ha : ∀ n : Fin 128, P (Char.ofNat n))
    (hf : foldsToAscii.Forall P) (hs : ∀ c, casefoldChar c = [c] → P c) (c : Char) : P c := by
  obtain h | h | h := casefoldChar_cases c
  · exact forall_ascii ha h
  · exact List.forall_iff_forall_mem.mp hf c h
  · exact hs c h

theorem sampleFolding_laws : FoldingLaws sampleFolding where
  idempotent c d hd := by
    have h := forall_casefoldChar
      (P := fun c => ((casefoldChar c).all fun d => casefoldChar d == [d]) = true) (by decide)
      (by decide) (fun c hc => by rw [hc]; simp [hc]) c
    exact beq_iff_eq.mp (List.all_eq_true.mp h d hd)
  space c d hd := by
    have h := forall_casefoldChar
      (P := fun c => ((casefoldChar c).all fun d => isSpace d == isSpace c) = true)
      (by decide +kernel) (by decide) (fun c hc => by rw [hc]; simp) c
    exact beq_iff_eq.mp (List.all_eq_true.mp h d hd)
  ne_nil c :=
    forall_casefoldChar (P := fun c => casefoldChar c ≠ []) (by decide) (by decide)
      (fun c hc => by rw [hc]; nofun) c
  single c a b rest hc := by
    have h := forall_casefoldChar (P := fun c => (casefoldChar c).length ≤ 1 ∨
      (casefoldChar c).head? = some 's' ∨ (casefoldChar c).head? = some 'f') (by decide) (by decide)
      (fun c hc => .inl (by rw [hc]; rfl)) c
    change casefoldChar c = a :: b :: rest at hc
    rw [hc] at h
    have ha : a = 's' ∨ a = 'f' := by simpa using h
    have hout : a ∉ cookiePrefix := by
      obtain rfl | rfl := ha <;> decide
    refine ⟨?_, fun hin => hout (hin.subset List.mem_cons_self)⟩
    rintro rfl
    exact hout (by decide)

theorem keys_canonical_sample : Canonical sampleFolding ∧
    collisionKey sampleFolding "  COOKIE: __HoSt-__sEcUrE-SID ".toList = "cookie:sid".toList :=
  ⟨keys_canonical sampleFolding sampleFolding_laws, by decide⟩

end BetterAuthBridge.CollisionKeys
