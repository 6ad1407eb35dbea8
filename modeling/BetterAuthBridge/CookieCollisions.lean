import BetterAuthBridge.Composition
import BetterAuthBridge.RemoteSoundness

namespace BetterAuthBridge.CookieCollisions

open Library Library.Text Values Errors Csrf CookieParsing CookieResolution Labels Urls
open BetterAuthBridge.Composition

variable {F : CaseFolding} {R : Runtime} {base base' : Text}

/-- Two cookies that no name, and so no pair a request presents, can belong to at once. -/
structure Apart (base base' : Text) : Prop where
  names : ∀ name ∈ acceptableNames base, name ∉ acceptableNames base'
  pairs : ∀ connection matched matched',
    presented base (joinedCookieHeader connection) = some matched →
    presented base' (joinedCookieHeader connection) = some matched' → ∀ p ∈ matched, p ∉ matched'

def NamesChunk (base base' : Text) : Prop := ∃ index < maxChunks, base = chunkName base' index

theorem dot_not_mem_decimal (n : Nat) : '.' ∉ decimal n := by
  intro h
  have hd := Nat.isDigit_of_mem_toDigits (by decide) (by decide) h
  exact absurd hd (by decide)

theorem chunkName_injective {i j : Nat} (h : chunkName base i = chunkName base' j) :
    base = base' := by
  have hc := congrArg (rcut '.') h
  rw [chunkName, chunkName, rcut_append base (dot_not_mem_decimal i),
    rcut_append base' (dot_not_mem_decimal j)] at hc
  exact (Prod.mk.inj (Option.some.inj hc)).1

theorem names_apart_iff (hne : base ≠ base') :
    (∀ name ∈ acceptableNames base, name ∉ acceptableNames base') ↔
      ¬ NamesChunk base base' ∧ ¬ NamesChunk base' base := by
  constructor
  · intro h
    refine ⟨fun hc => ?_, fun ⟨index, hi, he⟩ => ?_⟩
    · exact h base (mem_acceptableNames.mpr (.inl rfl)) (mem_acceptableNames.mpr (.inr hc))
    · exact h base' (mem_acceptableNames.mpr (.inr ⟨index, hi, he⟩))
        (mem_acceptableNames.mpr (.inl rfl))
  · rintro ⟨hl, hr⟩ name hn hn'
    obtain rfl | ⟨i, hi, rfl⟩ := mem_acceptableNames.mp hn
    · exact (mem_acceptableNames.mp hn').elim hne hl
    · obtain he | ⟨j, -, he⟩ := mem_acceptableNames.mp hn'
      · exact hr ⟨i, hi, he.symm⟩
      · exact hne (chunkName_injective he)

theorem apart_iff_names :
    Apart base base' ↔ ∀ name ∈ acceptableNames base, name ∉ acceptableNames base' := by
  refine ⟨fun h => h.names, fun h => ⟨h, fun connection matched matched' hm hm' p hp hp' => ?_⟩⟩
  obtain ⟨-, -, rfl, -⟩ := presented_eq_some.mp hm
  obtain ⟨-, -, rfl, -⟩ := presented_eq_some.mp hm'
  exact h p.1 (acceptable_of_mem_matchedPairs hp) (acceptable_of_mem_matchedPairs hp')

def Uncollided (F : CaseFolding) : List Checked → Prop :=
  List.Pairwise fun a b => collisionKey F a.source ≠ collisionKey F b.source

theorem rejectCollision_ok {verifier : Checked} {seen : List Checked} {u : Unit} :
    rejectCollision F R verifier seen = .ok u ↔
      ∀ s ∈ seen, collisionKey F s.source ≠ collisionKey F verifier.source := by
  rw [rejectCollision]
  cases hf : seen.find? fun s => collisionKey F s.source = collisionKey F verifier.source with
  | none =>
    refine ⟨fun _ s hs => ?_, fun _ => rfl⟩
    simpa using List.find?_eq_none.mp hf s hs
  | some clash =>
    have hclash := List.find?_some hf
    rw [decide_eq_true_eq] at hclash
    exact ⟨nofun, fun h => (h clash (List.mem_of_find?_eq_some hf) hclash).elim⟩

theorem validateSource_ok {source : Setting} {place : String} {t : Text}
    (h : validateSource R source place = .ok t) : source = .text t := by
  unfold validateSource at h
  cases source with
  | other typeName rendered => cases h
  | text t =>
    dsimp only at h
    split at h
    · cases h
    · cases h
      rfl

theorem validateVerifier_ok {declared : Declared} {index : Nat} {source : Text}
    (h : validateVerifier R declared index = .ok source) :
    declared.credentialSource = .text source := by
  simp only [validateVerifier, bind_eq_ok, pure_eq_ok, Except.ok.injEq] at h
  obtain ⟨-, -, -, -, -, -, source, hs, -, -, rfl⟩ := h
  exact validateSource_ok hs

/-- One entry more keeps the labels apart, so all of them are. -/
theorem checkedFrom_ok {entries : List Entry} {index : Nat} {seen checked : List Checked}
    (h : checkedFrom F R index seen entries = .ok checked) (hseen : Uncollided F seen) :
    ∃ rest, checked = seen ++ rest ∧ rest.map Checked.entry = entries ∧ Uncollided F checked ∧
      ∀ c ∈ rest, c.entry.candidate.declared.credentialSource = .text c.source := by
  induction entries generalizing index seen with
  | nil =>
    cases h
    exact ⟨[], by simp, rfl, hseen, by simp⟩
  | cons entry entries ih =>
    simp only [checkedFrom, bind_eq_ok] at h
    obtain ⟨source, hs, -, -, u, hu, h⟩ := h
    have hnext : Uncollided F (seen ++ [⟨entry, source⟩]) := by
      refine List.pairwise_append.mpr ⟨hseen, List.pairwise_singleton _ _, fun s hm c hc => ?_⟩
      obtain rfl := List.mem_singleton.mp hc
      exact rejectCollision_ok.mp hu s hm
    obtain ⟨rest, rfl, hmap, hall, hsource⟩ := ih h hnext
    refine ⟨⟨entry, source⟩ :: rest, by simp, by rw [List.map_cons, hmap], hall, fun c hc => ?_⟩
    obtain rfl | hc := List.mem_cons.mp hc
    · exact validateVerifier_ok hs
    · exact hsource c hc

theorem validated_ok {verifiers : Verifiers} {checked : List Checked}
    (h : validated F R verifiers = .ok checked) : Uncollided F checked ∧
      ∀ c ∈ checked, c.entry.candidate.declared.credentialSource = .text c.source := by
  unfold validated at h
  split at h
  · cases h
  · cases h
  · obtain ⟨rest, rfl, -, hall, hsource⟩ := checkedFrom_ok h List.Pairwise.nil
    exact ⟨hall, hsource⟩

theorem source_of_reads {candidate : Candidate} {names : CookieNames}
    (h : candidate.reads = some names) :
    candidate.declared.credentialSource = .text (cookieSource names.base) := by
  cases candidate with
  | cookie v | remote v =>
    cases h
    rfl
  | other declared => cases h

theorem Uncollided.key_ne {checked : List Checked} (h : Uncollided F checked) {i j : Nat}
    (hij : i ≠ j) {c d : Checked} (hc : checked[i]? = some c) (hd : checked[j]? = some d) :
    collisionKey F c.source ≠ collisionKey F d.source := by
  obtain ⟨hi, rfl⟩ := List.getElem?_eq_some_iff.mp hc
  obtain ⟨hj, rfl⟩ := List.getElem?_eq_some_iff.mp hd
  obtain hlt | hlt := Nat.lt_or_gt_of_ne hij
  · exact List.pairwise_iff_getElem.mp h i j hi hj hlt
  · exact (List.pairwise_iff_getElem.mp h j i hj hi hlt).symm

/-- In an accepted list, two shipped verifiers at different places read cookies of different
names. -/
theorem bases_ne {verifiers : Verifiers} {accepted : List Entry}
    (h : init F R verifiers = .ok accepted) {i j : Nat} (hij : i ≠ j) {first second : Entry}
    (hi : accepted[i]? = some first) (hj : accepted[j]? = some second) {names names' : CookieNames}
    (hn : first.candidate.reads = some names) (hn' : second.candidate.reads = some names') :
    names.base ≠ names'.base := by
  obtain ⟨checked, hv, h⟩ := bind_eq_ok.mp h
  obtain ⟨-, -, h⟩ := bind_eq_ok.mp h
  cases h
  obtain ⟨hall, hsource⟩ := validated_ok hv
  rw [List.getElem?_map, Option.map_eq_some_iff] at hi hj
  obtain ⟨c, hc, rfl⟩ := hi
  obtain ⟨d, hd, rfl⟩ := hj
  have hcs := (source_of_reads hn).symm.trans (hsource c (List.mem_of_getElem? hc))
  have hds := (source_of_reads hn').symm.trans (hsource d (List.mem_of_getElem? hd))
  intro he
  refine hall.key_ne hij hc hd ?_
  rw [← Setting.text.inj hcs, ← Setting.text.inj hds, he]

/-- Two composed cookie verifiers are apart exactly when neither reads a chunk of the other. -/
theorem composed_apart_iff {verifiers : Verifiers} {accepted : List Entry}
    (h : init F R verifiers = .ok accepted) {i j : Nat} (hij : i ≠ j) {first second : Entry}
    (hi : accepted[i]? = some first) (hj : accepted[j]? = some second) {names names' : CookieNames}
    (hn : first.candidate.reads = some names) (hn' : second.candidate.reads = some names') :
    Apart names.base names'.base ↔
      ¬ NamesChunk names.base names'.base ∧ ¬ NamesChunk names'.base names.base := by
  rw [apart_iff_names, names_apart_iff (bases_ne h hij hi hj hn hn')]

section Sample

/-- Case folding, exact where it comes out as ASCII. -/
def sampleFolding : CaseFolding where
  fold := casefoldChar
  ascii _ := forall_ascii (P := fun c => casefoldChar c = [c.toLower]) (by decide)

theorem defaultSecurePrefix_legal : defaultSecurePrefix.any illegalInACookieName = false := by
  decide

def plainNames (name : Text) (named : blank name = false ∧ name.any illegalInACookieName = false) :
    CookieNames :=
  ⟨name, defaultSecurePrefix, false, named, defaultSecurePrefix_legal⟩

def remoteReading (names : CookieNames) : Candidate :=
  .remote { RemoteSoundness.sampleVerifier with names := names }

def sidNames : CookieNames := plainNames "sid".toList (by decide)

def chunkNames : CookieNames := plainNames "sid.0".toList (by decide)

def otherNames : CookieNames := plainNames "session".toList (by decide)

def sampleList (names : CookieNames) : List Entry :=
  [⟨0, remoteReading sidNames⟩, ⟨1, remoteReading names⟩]

end Sample

theorem composed_apart_sample : Apart sidNames.base otherNames.base ↔
    ¬ NamesChunk sidNames.base otherNames.base ∧ ¬ NamesChunk otherNames.base sidNames.base :=
  @composed_apart_iff sampleFolding RemoteSoundness.sampleRuntime (.sequence (sampleList otherNames))
    (sampleList otherNames) rfl 0 1 (by decide) _ _ rfl rfl _ _ rfl rfl

/-- A plain `sid` and a plain `sid.0` are accepted together, and one cookie is both. -/
theorem sid_and_its_chunk_meet : ¬ ∀ (F : CaseFolding) (R : Runtime) (verifiers : Verifiers)
    (accepted : List Entry), init F R verifiers = .ok accepted → ∀ i j : Nat, i ≠ j →
    ∀ first second : Entry, accepted[i]? = some first → accepted[j]? = some second →
    ∀ names names', first.candidate.reads = some names → second.candidate.reads = some names' →
    Apart names.base names'.base := by
  intro h
  have ha := h sampleFolding RemoteSoundness.sampleRuntime (.sequence (sampleList chunkNames))
    (sampleList chunkNames) rfl 0 1 (by decide) _ _ rfl rfl sidNames chunkNames rfl rfl
  exact ha.names "sid.0".toList (by decide) (by decide)

end BetterAuthBridge.CookieCollisions
