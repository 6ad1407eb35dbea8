import BetterAuthBridge.JwksAnswers

namespace BetterAuthBridge.JwksKeyMap

open Library Values Errors RemoteResponse JwksDocument

variable {κ : Type} {r : Reader κ} {R : Runtime} {entry : Value} {entries : List Value}
  {keys keys' : KeySet κ} {published : Payload} {kid algorithm : Str} {loader : Loader}
  {jwk : Jwk κ}

def loaderOf (algorithm : Str) : Option Loader :=
  (loaders.find? fun l => ofString l.1 = algorithm).map Prod.snd

/-- An entry with what every entry has to have: a kid and an algorithm. -/
structure Declares (entry : Value) (published : Payload) (kid algorithm : Str) : Prop where
  object : entry = .dict published
  kidMember : published.get "kid" = .str kid
  named : kid.blank = false
  algMember : published.get "alg" = .str algorithm
  declared : algorithm ≠ []

def WellFormed (entry : Value) : Prop := ∃ published kid algorithm,
  Declares entry published kid algorithm

structure ForVerifying (published : Payload) : Prop where
  use : published.lookup (ofString "use") = none ∨
    published.lookup (ofString "use") = some (.str (ofString "sig"))
  operations : published.lookup (ofString "key_ops") = none ∨
    ∃ operations, published.lookup (ofString "key_ops") = some (.list operations) ∧
      .str (ofString "verify") ∈ operations

structure Candidate (r : Reader κ) (entry : Value) (published : Payload) (kid algorithm : Str)
    (loader : Loader) : Prop where
  declares : Declares entry published kid algorithm
  supported : loaderOf algorithm = some loader
  allowed : algorithm ∈ r.algorithms
  forVerifying : ForVerifying published

def Usable (r : Reader κ) (entry : Value) (jwk : Jwk κ) : Prop := ∃ loader,
  Candidate r entry jwk.jwk jwk.kid jwk.algorithm loader ∧
    r.library.fromJwk loader jwk.jwk = some jwk.key ∧
    (loader = .rsa → minRsaKeyBits ≤ r.library.keySize jwk.key)

def Unclaimed (r : Reader κ) (entries : List Value) (kid : Str) : Prop :=
  ∀ entry ∈ entries, ∀ jwk, Usable r entry jwk → jwk.kid ≠ kid

def FirstUsable (r : Reader κ) (entries : List Value) (kid : Str) (jwk : Jwk κ) : Prop :=
  ∃ before entry after, entries = before ++ entry :: after ∧ Usable r entry jwk ∧ jwk.kid = kid ∧
    Unclaimed r before kid

def FailsAfter (r : Reader κ) (before : List Value) (entry : Value) : Prop :=
  ∃ published kid algorithm loader, Candidate r entry published kid algorithm loader ∧
    Unclaimed r before kid ∧ r.library.fromJwk loader published = none

def FailsToLoad (r : Reader κ) (entries : List Value) : Prop :=
  ∃ before entry after, entries = before ++ entry :: after ∧ FailsAfter r before entry

def Refused (r : Reader κ) (document : Value) : Prop :=
  (¬ ∃ fields entries, document = .dict fields ∧ Payload.get fields "keys" = .list entries ∧
      entries.length ≤ r.maxKeys) ∨
    ∃ fields entries, document = .dict fields ∧ Payload.get fields "keys" = .list entries ∧
      ((∃ entry ∈ entries, ¬ WellFormed entry) ∨ FailsToLoad r entries)

def isText (text : String) : Value → Bool
  | .str s => s = ofString text
  | _ => false

def offersVerify : Value → Bool
  | .list operations => operations.any (isText "verify")
  | _ => false

theorem notForVerifying_eq (published : Payload) : notForVerifying published =
    if !(published.lookup (ofString "use")).all (isText "sig") then some "use"
    else if !(published.lookup (ofString "key_ops")).all offersVerify then some "key_ops"
    else none := rfl

theorem isText_iff {text : String} {value : Value} :
    isText text value = true ↔ value = .str (ofString text) := by
  cases value <;> simp [isText]

theorem offersVerify_iff {value : Value} : offersVerify value = true ↔
    ∃ operations, value = .list operations ∧ .str (ofString "verify") ∈ operations := by
  cases value <;> simp [offersVerify, isText_iff]

theorem notForVerifying_isSome :
    (notForVerifying published).isSome = false ↔ ForVerifying published := by
  have hall : ∀ (p : Value → Bool) (o : Option Value),
      o.all p = true ↔ o = none ∨ ∃ value, o = some value ∧ p value = true := by
    intro p o
    cases o <;> simp
  have huse : (published.lookup (ofString "use")).all (isText "sig") = true ↔ _ := hall _ _
  have hops : (published.lookup (ofString "key_ops")).all offersVerify = true ↔ _ := hall _ _
  simp only [isText_iff, exists_eq_right] at huse
  simp only [offersVerify_iff, ← exists_and_left] at hops
  rw [notForVerifying_eq]
  constructor
  · intro h
    split at h
    · cases h
    · rename_i hu
      split at h
      · cases h
      · rename_i ho
        refine ⟨huse.mp (by simpa using hu), ?_⟩
        obtain hn | ⟨value, operations, hl, rfl, hm⟩ := hops.mp (by simpa using ho)
        · exact .inl hn
        · exact .inr ⟨operations, hl, hm⟩
  · intro h
    have ho : (published.lookup (ofString "key_ops")).all offersVerify = true := by
      refine hops.mpr (h.operations.imp_right ?_)
      rintro ⟨operations, hl, hm⟩
      exact ⟨_, operations, hl, rfl, hm⟩
    rw [huse.mpr h.use, ho]
    rfl

theorem Declares.unique {published' : Payload} {kid' algorithm' : Str}
    (h : Declares entry published kid algorithm) (h' : Declares entry published' kid' algorithm') :
    published' = published ∧ kid' = kid ∧ algorithm' = algorithm := by
  obtain rfl : published' = published := by
    have he := h'.object.symm.trans h.object
    exact Value.dict.inj he
  exact ⟨rfl, Value.str.inj (h'.kidMember.symm.trans h.kidMember),
    Value.str.inj (h'.algMember.symm.trans h.algMember)⟩

theorem Candidate.unique {published' : Payload} {kid' algorithm' : Str} {loader' : Loader}
    (h : Candidate r entry published kid algorithm loader)
    (h' : Candidate r entry published' kid' algorithm' loader') :
    published' = published ∧ kid' = kid ∧ algorithm' = algorithm ∧ loader' = loader := by
  obtain ⟨rfl, rfl, rfl⟩ := h.declares.unique h'.declares
  exact ⟨rfl, rfl, rfl, Option.some.inj (h'.supported.symm.trans h.supported)⟩

theorem Usable.unique {jwk' : Jwk κ} (h : Usable r entry jwk) (h' : Usable r entry jwk') :
    jwk' = jwk := by
  obtain ⟨loader, hc, hl, -⟩ := h
  obtain ⟨loader', hc', hl', -⟩ := h'
  obtain ⟨hp, hk, ha, rfl⟩ := hc.unique hc'
  rw [hp] at hl'
  obtain ⟨kid, algorithm, key, published⟩ := jwk
  obtain ⟨kid', algorithm', key', published'⟩ := jwk'
  dsimp only at hp hk ha hl hl'
  rw [hp, hk, ha, Option.some.inj (hl'.symm.trans hl)]

theorem collect_malformed (r : Reader κ) (keys : KeySet κ) (h : ¬ WellFormed entry) :
    ∃ exc, r.collect keys entry = .error exc := by
  cases entry with
  | dict published =>
    cases hk : Payload.get published "kid" with
    | str kid =>
      cases ha : Payload.get published "alg" with
      | str algorithm =>
        by_cases hb : kid.blank = true
        · exact ⟨_, by simp only [Reader.collect, hk, ha, hb, if_true]; rfl⟩
        · by_cases he : algorithm = []
          · exact ⟨_, by simp only [Reader.collect, hk, ha, hb, he, if_true]; rfl⟩
          · exact (h ⟨published, kid, algorithm, rfl, hk, eq_false_of_ne_true hb, ha, he⟩).elim
      | _ =>
        by_cases hb : kid.blank = true
        · exact ⟨_, by simp only [Reader.collect, hk, ha, hb, if_true]; rfl⟩
        · exact ⟨_, by simp only [Reader.collect, hk, ha, hb]; rfl⟩
    | _ => exact ⟨_, by simp only [Reader.collect, hk]; rfl⟩
  | _ => exact ⟨_, rfl⟩

theorem collect_declared (h : Declares entry published kid algorithm) : r.collect keys entry =
    match loaderOf algorithm with
    | none => .ok keys
    | some loader =>
      if algorithm ∉ r.algorithms then .ok keys
      else if (Ordered.get keys kid).isSome then .ok keys
      else if (notForVerifying published).isSome then .ok keys
      else r.loaded loader published kid >>= fun key =>
        if loader = .rsa ∧ r.library.keySize key < minRsaKeyBits then pure keys
        else pure (Ordered.set keys kid ⟨kid, algorithm, key, published⟩) := by
  rw [h.object]
  simp only [Reader.collect, h.kidMember, h.algMember, h.named, h.declared, if_false, loaderOf,
    Bool.false_eq_true]
  cases loaders.find? fun l => ofString l.1 = algorithm with
  | none => rfl
  | some l => rfl

theorem collect_needless (hd : Declares entry published kid algorithm)
    (h : (∀ loader, ¬ Candidate r entry published kid algorithm loader) ∨
      (Ordered.get keys kid).isSome = true) : r.collect keys entry = .ok keys := by
  rw [collect_declared hd]
  cases hl : loaderOf algorithm with
  | none => rfl
  | some loader =>
    by_cases ha : algorithm ∈ r.algorithms
    · by_cases hk : (Ordered.get keys kid).isSome = true
      · simp [hk]
      · by_cases hn : (notForVerifying published).isSome = true
        · simp [hn]
        · have hv := notForVerifying_isSome.mp (eq_false_of_ne_true hn)
          obtain h | h := h
          · exact (h loader ⟨hd, hl, ha, hv⟩).elim
          · exact (hk h).elim
    · simp [ha]

theorem collect_candidate (h : Candidate r entry published kid algorithm loader)
    (hk : Ordered.get keys kid = none) :
    r.collect keys entry = r.loaded loader published kid >>= fun key =>
      if loader = .rsa ∧ r.library.keySize key < minRsaKeyBits then pure keys
      else pure (Ordered.set keys kid ⟨kid, algorithm, key, published⟩) := by
  rw [collect_declared h.declares, h.supported]
  simp [h.allowed, hk, notForVerifying_isSome.mpr h.forVerifying]

theorem Candidate.usable {key : κ} (h : Candidate r entry published kid algorithm loader)
    (hl : r.library.fromJwk loader published = some key)
    (hs : ¬ (loader = .rsa ∧ r.library.keySize key < minRsaKeyBits)) :
    Usable r entry ⟨kid, algorithm, key, published⟩ :=
  ⟨loader, h, hl, fun hr => not_lt.mp fun hlt => hs ⟨hr, hlt⟩⟩

theorem Candidate.of_usable (h : Candidate r entry published kid algorithm loader)
    (hu : Usable r entry jwk) : jwk.kid = kid ∧
      ∃ key, r.library.fromJwk loader published = some key ∧ ¬ (loader = .rsa ∧ r.library.keySize key < minRsaKeyBits) := by
  obtain ⟨loader', hc, hl, hs⟩ := hu
  obtain ⟨hp, hk, -, rfl⟩ := h.unique hc
  rw [hp] at hl
  exact ⟨hk, jwk.key, hl, fun hn => not_lt.mpr (hs hn.1) hn.2⟩

section Entries

variable {before : List Value}

theorem unclaimed_snoc : Unclaimed r (before ++ [entry]) kid ↔
    Unclaimed r before kid ∧ ∀ jwk, Usable r entry jwk → jwk.kid ≠ kid := by
  constructor
  · intro h
    exact ⟨fun e he => h e (List.mem_append_left _ he),
      h entry (List.mem_append_right _ (List.mem_singleton_self _))⟩
  · rintro ⟨hb, he⟩ e hm
    obtain hm | hm := List.mem_append.mp hm
    · exact hb e hm
    · rw [List.mem_singleton.mp hm]
      exact he

theorem firstUsable_snoc : FirstUsable r (before ++ [entry]) kid jwk ↔
    FirstUsable r before kid jwk ∨
      Unclaimed r before kid ∧ Usable r entry jwk ∧ jwk.kid = kid := by
  constructor
  · rintro ⟨b, e, a, he, hu, hk, hn⟩
    induction a using List.reverseRecOn with
    | nil =>
      obtain ⟨rfl, hs⟩ := List.append_inj' he rfl
      obtain rfl := List.singleton_inj.mp hs
      exact .inr ⟨hn, hu, hk⟩
    | append_singleton a x =>
      rw [← List.cons_append, ← List.append_assoc] at he
      obtain ⟨rfl, -⟩ := List.append_inj' he rfl
      exact .inl ⟨b, e, a, rfl, hu, hk, hn⟩
  · rintro (⟨b, e, a, rfl, hu, hk, hn⟩ | ⟨hn, hu, hk⟩)
    · exact ⟨b, e, a ++ [entry], by simp, hu, hk, hn⟩
    · exact ⟨before, entry, [], rfl, hu, hk, hn⟩

/-- The map of the entries read so far: each kid's first usable entry, and no more entries than
were read. -/
structure Collected (r : Reader κ) (entries : List Value) (keys : KeySet κ) : Prop where
  first : ∀ kid jwk, Ordered.get keys kid = some jwk ↔ FirstUsable r entries kid jwk
  unclaimed : ∀ kid, Ordered.get keys kid = none ↔ Unclaimed r entries kid
  nodup : (keys.map Prod.fst).Nodup
  length : keys.length ≤ entries.length

theorem Collected.nil : Collected r [] [] where
  first kid jwk := by
    refine iff_of_false (by intro h; cases h) ?_
    rintro ⟨b, e, a, he, -⟩
    cases List.append_eq_nil_iff.mp he.symm with
    | intro _ h => cases h
  unclaimed kid := iff_of_true rfl fun e he => (List.not_mem_nil he).elim
  nodup := List.nodup_nil
  length := le_refl 0

theorem Collected.skip (h : Collected r before keys)
    (hn : ∀ jwk, Usable r entry jwk → (Ordered.get keys jwk.kid).isSome = true) :
    Collected r (before ++ [entry]) keys where
  first kid jwk := by
    rw [firstUsable_snoc, h.first, iff_self_or]
    rintro ⟨hu, hj, rfl⟩
    have hs := hn jwk hj
    rw [(h.unclaimed jwk.kid).mpr hu] at hs
    cases hs
  unclaimed kid := by
    rw [unclaimed_snoc, h.unclaimed, iff_self_and]
    rintro hu jwk hj rfl
    have hs := hn jwk hj
    rw [(h.unclaimed jwk.kid).mpr hu] at hs
    cases hs
  nodup := h.nodup
  length := by
    rw [List.length_append]
    exact h.length.trans (Nat.le_add_right ..)

theorem Collected.add (h : Collected r before keys) (hu : Usable r entry jwk)
    (hn : Ordered.get keys jwk.kid = none) :
    Collected r (before ++ [entry]) (Ordered.set keys jwk.kid jwk) where
  first kid jwk' := by
    rw [firstUsable_snoc]
    by_cases hk : kid = jwk.kid
    · subst hk
      rw [Ordered.get_set_self, ← h.first, hn, ← h.unclaimed, hn]
      constructor
      · intro he
        cases he
        exact .inr ⟨rfl, hu, rfl⟩
      · rintro (he | ⟨-, hu', -⟩)
        · cases he
        · rw [hu.unique hu']
    · rw [Ordered.get_set_of_ne hk, h.first, iff_self_or]
      rintro ⟨-, hu', rfl⟩
      rw [hu.unique hu'] at hk
      exact (hk rfl).elim
  unclaimed kid := by
    rw [unclaimed_snoc]
    by_cases hk : kid = jwk.kid
    · subst hk
      rw [Ordered.get_set_self]
      refine iff_of_false (by intro he; cases he) ?_
      rintro ⟨-, hne⟩
      exact hne jwk hu rfl
    · rw [Ordered.get_set_of_ne hk, h.unclaimed, iff_self_and]
      rintro - jwk' hu' rfl
      rw [hu.unique hu'] at hk
      exact hk rfl
  nodup := Ordered.nodup_set h.nodup _ _
  length := by
    rw [Ordered.set_of_get_eq_none hn, List.length_append, List.length_append]
    exact Nat.add_le_add_right h.length 1

def Breaks (r : Reader κ) (before : List Value) (entry : Value) : Prop :=
  ¬ WellFormed entry ∨ FailsAfter r before entry

/-- One entry either ends the reading, or is read. -/
theorem collect_step (h : Collected r before keys) (entry : Value) :
    (∃ exc, r.collect keys entry = .error exc ∧ Breaks r before entry) ∨
    ∃ keys', r.collect keys entry = .ok keys' ∧ ¬ Breaks r before entry ∧
      Collected r (before ++ [entry]) keys' := by
  by_cases hw : WellFormed entry
  · obtain ⟨published, kid, algorithm, hd⟩ := id hw
    by_cases hneed : (∃ loader, Candidate r entry published kid algorithm loader) ∧
        Ordered.get keys kid = none
    · obtain ⟨⟨loader, hc⟩, hk⟩ := hneed
      rw [collect_candidate hc hk]
      cases hl : r.library.fromJwk loader published with
      | none =>
        have hraise : ∃ exc, r.loaded loader published kid = .error exc :=
          ⟨_, by simp only [Reader.loaded, hl]; rfl⟩
        obtain ⟨exc, he⟩ := hraise
        rw [he]
        exact .inl ⟨exc, rfl, .inr ⟨published, kid, algorithm, loader, hc,
          (h.unclaimed kid).mp hk, hl⟩⟩
      | some key =>
        have hnb : ¬ Breaks r before entry := by
          rintro (hn | ⟨published', kid', algorithm', loader', hc', -, hn⟩)
          · exact hn hw
          · obtain ⟨rfl, -, -, rfl⟩ := hc.unique hc'
            cases hl.symm.trans hn
        rw [loaded_ok.mpr hl, ok_bind]
        by_cases hs : loader = .rsa ∧ r.library.keySize key < minRsaKeyBits
        · refine .inr ⟨keys, by rw [if_pos hs]; rfl, hnb, h.skip fun jwk hu => ?_⟩
          obtain ⟨-, key', hl', hs'⟩ := hc.of_usable hu
          cases hl.symm.trans hl'
          exact (hs' hs).elim
        · refine .inr ⟨_, by rw [if_neg hs]; rfl, hnb, ?_⟩
          exact h.add (hc.usable hl hs) hk
    · have hskip : (∀ loader, ¬ Candidate r entry published kid algorithm loader) ∨
          (Ordered.get keys kid).isSome = true := by
        rw [not_and_or, not_exists, ← Option.isNone_iff_eq_none, Bool.not_eq_true,
          Option.isNone_eq_false_iff] at hneed
        exact hneed
      refine .inr ⟨keys, collect_needless hd hskip, ?_, h.skip fun jwk hu => ?_⟩
      · rintro (hn | ⟨published', kid', algorithm', loader, hc, hu, -⟩)
        · exact hn hw
        · obtain ⟨rfl, rfl, rfl⟩ := hd.unique hc.declares
          exact hneed ⟨⟨loader, hc⟩, (h.unclaimed _).mpr hu⟩
      · obtain ⟨loader, hc, -⟩ := hu
        obtain ⟨hp, hk, ha⟩ := hd.unique hc.declares
        obtain hn | hs := hskip
        · rw [hp, hk, ha] at hc
          exact (hn loader hc).elim
        · rw [hk]
          exact hs
  · obtain ⟨exc, he⟩ := collect_malformed r keys hw
    exact .inl ⟨exc, he, .inl hw⟩

/-- The entries are read to the end, or up to one that refuses them all. -/
theorem foldlM_collected (h : Collected r before keys) :
    (∀ exc, entries.foldlM r.collect keys = .error exc → ∃ b e a, entries = b ++ e :: a ∧
      Breaks r (before ++ b) e) ∧
    ∀ keys', entries.foldlM r.collect keys = .ok keys' →
      (∀ b e a, entries = b ++ e :: a → ¬ Breaks r (before ++ b) e) ∧
      Collected r (before ++ entries) keys' := by
  induction entries generalizing before keys with
  | nil =>
    refine ⟨(by intro exc he; cases he), ?_⟩
    intro keys' hk
    cases hk
    refine ⟨?_, by rwa [List.append_nil]⟩
    intro b e a he
    cases b <;> cases he
  | cons entry entries ih =>
    rw [List.foldlM_cons]
    obtain ⟨exc', he, hb⟩ | ⟨mid, hm, hb, hc⟩ := collect_step h entry
    · rw [he]
      refine ⟨fun _ _ => ⟨[], entry, entries, rfl, by rwa [List.append_nil]⟩, ?_⟩
      intro keys' hk
      cases hk
    · rw [hm, ok_bind]
      obtain ⟨herr, hok⟩ := ih hc
      constructor
      · intro exc he
        obtain ⟨b, e, a, hs, hbreak⟩ := herr exc he
        exact ⟨entry :: b, e, a, by rw [hs]; rfl, by simpa using hbreak⟩
      · intro keys' hk
        obtain ⟨hnone, hcol⟩ := hok keys' hk
        refine ⟨?_, by simpa using hcol⟩
        intro b e a hs
        cases b with
        | nil =>
          cases hs
          rwa [List.append_nil]
        | cons x b =>
          obtain ⟨rfl, htail⟩ := List.cons.inj hs
          simpa using hnone b e a htail

end Entries

def Served (response : TransportResponse) : Prop :=
  response.statusCode = 200 ∧ mediaType response ∈ jwksMediaTypes

theorem checkAnswer_ok {response : TransportResponse} {u : Unit} :
    r.checkAnswer response = .ok u ↔ Served response := by
  rw [Reader.checkAnswer, Served]
  by_cases hs : response.statusCode = 200
  · by_cases hm : mediaType response ∈ jwksMediaTypes <;> simp [hs, hm]
  · simp [hs]

/-- A map with each kid's first usable entry, of the algorithms that are both supported and
configured. -/
structure KeyMap (r : Reader κ) (value : Value) (keys : KeySet κ) : Prop where
  first : ∃ fields entries, value = .dict fields ∧ Payload.get fields "keys" = .list entries ∧
    ∀ kid jwk, Ordered.get keys kid = some jwk ↔ FirstUsable r entries kid jwk
  nodup : (keys.map Prod.fst).Nodup
  length : keys.length ≤ r.maxKeys
  algorithms : ∀ kid jwk, Ordered.get keys kid = some jwk →
    jwk.algorithm ∈ loaders.map (ofString ∘ Prod.fst) ∧ jwk.algorithm ∈ r.algorithms

theorem loaderOf_listed (h : loaderOf algorithm = some loader) :
    algorithm ∈ loaders.map (ofString ∘ Prod.fst) := by
  obtain ⟨l, hl, -⟩ := Option.map_eq_some_iff.mp h
  have hn : ofString l.1 = algorithm := by simpa using List.find?_some hl
  exact List.mem_map.mpr ⟨l, List.mem_of_find?_eq_some hl, hn⟩

theorem refused_iff {fields : Payload} (hk : Payload.get fields "keys" = .list entries)
    (hlen : entries.length ≤ r.maxKeys) :
    Refused r (.dict fields) ↔ ∃ b e a, entries = b ++ e :: a ∧ Breaks r b e := by
  constructor
  · rintro (hn | ⟨fields', entries', hf, hk', h⟩)
    · exact (hn ⟨fields, entries, rfl, hk, hlen⟩).elim
    · obtain rfl := Value.dict.inj hf
      obtain rfl := Value.list.inj (hk'.symm.trans hk)
      obtain ⟨e, he, hw⟩ | ⟨b, e, a, hs, hb⟩ := h
      · obtain ⟨b, a, hs⟩ := List.append_of_mem he
        exact ⟨b, e, a, hs, .inl hw⟩
      · exact ⟨b, e, a, hs, .inr hb⟩
  · rintro ⟨b, e, a, rfl, hw | hb⟩
    · exact .inr ⟨fields, _, rfl, hk, .inl ⟨e, by simp, hw⟩⟩
    · exact .inr ⟨fields, _, rfl, hk, .inr ⟨b, e, a, rfl, hb⟩⟩

/-- A value that is read as a key set is refused as the document it is, or gives its map. -/
theorem read_exact {response : TransportResponse} {value : Value} (hs : Served response)
    (hv : R.loads (.bytes response.content) = some value) :
    ((∃ exc, r.parsed R response = .error exc) ↔ Refused r value) ∧
      ∀ keys, r.parsed R response = .ok keys → KeyMap r value keys := by
  have hcheck : r.checkAnswer response = .ok () := checkAnswer_ok.mpr hs
  rw [Reader.parsed, hcheck, ok_bind, Reader.document, hv]
  have hshape : ∀ x : Except Exn (KeySet κ), (∃ exc, x = .error exc) → Refused r value →
      ((∃ exc, x = .error exc) ↔ Refused r value) ∧ ∀ keys, x = .ok keys → KeyMap r value keys := by
    rintro x ⟨exc, rfl⟩ hr
    refine ⟨iff_of_true ⟨exc, rfl⟩ hr, ?_⟩
    intro keys hk
    cases hk
  cases value with
  | dict fields =>
    simp only [pure_eq_ok, ok_bind]
    cases hk : Payload.get fields "keys" with
    | list entries =>
      by_cases hlen : r.maxKeys < entries.length
      · refine hshape _ ⟨_, by simp only [hlen, if_true]; rfl⟩ (.inl ?_)
        rintro ⟨fields', entries', hf, hk', hle⟩
        obtain rfl := Value.dict.inj hf
        obtain rfl := Value.list.inj (hk'.symm.trans hk)
        exact not_lt.mpr hle hlen
      · simp only [hlen, if_false]
        rw [refused_iff hk (not_lt.mp hlen)]
        cases hfold : entries.foldlM r.collect [] with
        | error exc =>
          have hbreak := (foldlM_collected Collected.nil).1 exc hfold
          refine ⟨iff_of_true ⟨exc, rfl⟩ (by simpa using hbreak), ?_⟩
          intro keys he
          cases he
        | ok keys =>
          obtain ⟨hnone, hc⟩ := (foldlM_collected Collected.nil).2 keys hfold
          refine ⟨iff_of_false (by rintro ⟨exc, he⟩; cases he) ?_, ?_⟩
          · rintro ⟨b, e, a, hs, hb⟩
            exact hnone b e a hs hb
          · intro keys' he
            cases he
            refine ⟨⟨fields, entries, rfl, hk, hc.first⟩, hc.nodup,
              hc.length.trans (not_lt.mp hlen), fun kid jwk hg => ?_⟩
            obtain ⟨b, e, a, -, ⟨loader, hcand, -⟩, -⟩ := (hc.first kid jwk).mp hg
            exact ⟨loaderOf_listed hcand.supported, hcand.allowed⟩
    | _ =>
      refine hshape _ ⟨_, rfl⟩ (.inl ?_)
      rintro ⟨fields', entries', hf, hk', -⟩
      obtain rfl := Value.dict.inj hf
      cases hk'.symm.trans hk
  | _ =>
    refine hshape _ ⟨_, rfl⟩ (.inl ?_)
    rintro ⟨fields, entries, hf, -⟩
    cases hf

theorem parsed_keyMap {response : TransportResponse} (h : r.parsed R response = .ok keys) :
    Served response ∧
      ∃ value, R.loads (.bytes response.content) = some value ∧ KeyMap r value keys := by
  obtain ⟨u, hcheck, hread⟩ := bind_eq_ok.mp h
  obtain ⟨document, hd, -⟩ := bind_eq_ok.mp hread
  have hs : Served response := checkAnswer_ok.mp hcheck
  cases hv : R.loads (.bytes response.content) with
  | none =>
    rw [Reader.document, hv] at hd
    cases hd
  | some value => exact ⟨hs, value, rfl, (read_exact hs hv).2 keys h⟩

/-- `_parsed` refuses just what is not served, not JSON or no key set, and reads everything else
into each kid's first usable entry. -/
theorem parsed_exact (r : Reader κ) (R : Runtime) (response : TransportResponse) :
    ((∃ exc, r.parsed R response = .error exc) ↔ ¬ Served response ∨
      R.loads (.bytes response.content) = none ∨
      ∃ value, R.loads (.bytes response.content) = some value ∧ Refused r value) ∧
    ∀ keys, r.parsed R response = .ok keys → Served response ∧
      ∃ value, R.loads (.bytes response.content) = some value ∧ KeyMap r value keys := by
  refine ⟨?_, fun keys hk => parsed_keyMap hk⟩
  by_cases hs : Served response
  · cases hv : R.loads (.bytes response.content) with
    | some value => simp [(read_exact (r := r) hs hv).1, hs]
    | none =>
      have hcheck : r.checkAnswer response = .ok () := checkAnswer_ok.mpr hs
      have hraise : r.parsed R response = .error (r.unusable "it is not JSON") := by
        rw [Reader.parsed, hcheck, ok_bind, Reader.document, hv]
        rfl
      exact iff_of_true ⟨_, hraise⟩ (.inr (.inl rfl))
  · cases hc : r.checkAnswer response with
    | ok u => exact (hs (checkAnswer_ok.mp hc)).elim
    | error exc =>
      rw [Reader.parsed, hc, error_bind]
      exact iff_of_true ⟨exc, rfl⟩ (.inl hs)

end BetterAuthBridge.JwksKeyMap
