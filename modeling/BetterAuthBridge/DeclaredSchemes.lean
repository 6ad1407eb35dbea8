import BetterAuthBridge.CollisionKeys
import BetterAuthBridge.CookieCollisions
import BetterAuthBridge.Library.Ordered

namespace BetterAuthBridge.DeclaredSchemes

open Library Library.Text Values Errors CookieParsing Labels CollisionKeys
open BetterAuthBridge.Composition (Checked Entry Verifiers cookieScheme cookieSchemeName
  bearerSchemeName schemeChar)

inductive SecurityModel
  | httpBearer (description : Text)
  | apiKeyCookie (name description : Text)
  deriving DecidableEq

structure DeclaredScheme where
  model : SecurityModel
  schemeName : Text
  deriving DecidableEq

def bearerDescription : Text := ("The session token your Better Auth server issued, sent as"
  ++ " `Authorization: Bearer <token>`.").toList

def cookieDescription (name : Text) : Text := "The Better Auth session cookie `".toList ++ name
  ++ "`, which the browser sends on its own once the user has signed in.".toList

section Schemes

variable (F : CaseFolding) (R : Runtime)

def schemeFor (source : Text) (soleCookie : Bool) : Option DeclaredScheme :=
  if F.casefold (strip source) = bearerSource then
    some ⟨.httpBearer bearerDescription, bearerSchemeName⟩
  else (cookieNamed F source).map fun cookie =>
    ⟨.apiKeyCookie cookie (cookieDescription cookie), cookieScheme cookie soleCookie⟩

def rejectNameCollision (scheme : DeclaredScheme) (verifier : Checked) (seen : List DeclaredScheme) :
    Except Exn Unit :=
  if seen.all fun each => each.schemeName != scheme.schemeName then pure ()
  else throw (configurationError
    ("BetterAuth(verifiers=...) has two verifiers that would both be published as"
      ++ s!" {R.repr scheme.schemeName}: {verifier.typeName} declares"
      ++ s!" credential_source={R.repr verifier.source}, and an earlier verifier's label"
      ++ " sanitizes onto the same OpenAPI name. One definition would silently replace the"
      ++ " other, so /docs would name a credential nothing reads."))

def schemesFrom (soleCookie : Bool) (declared : List DeclaredScheme) :
    List Checked → Except Exn (List DeclaredScheme)
  | [] => pure declared
  | verifier :: rest =>
    match schemeFor F verifier.source soleCookie with
    | none => schemesFrom soleCookie declared rest
    | some scheme => do
      rejectNameCollision R scheme verifier declared
      schemesFrom soleCookie (declared ++ [scheme]) rest

def declaresACookie (verifier : Checked) : Bool := (cookieNamed F verifier.source).isSome

def schemesFor (verifiers : List Checked) : Except Exn (List DeclaredScheme) :=
  schemesFrom F R ((verifiers.filter (declaresACookie F)).length == 1) [] verifiers

end Schemes

/-- FastAPI, as far as the document goes: a dependency that is a scheme, one that is a callable with
these parameters, what an operation with a dependency requires, and `components.securitySchemes` of
an application with these dependencies. -/
structure FastApi (δ : Type) where
  scheme : DeclaredScheme → δ
  callable : List δ → δ
  flat : δ → List DeclaredScheme
  components : List δ → Ordered.Table Text SecurityModel

/-- What it promises: requirements are collected depth-first and in parameter order, and a definition
is stored under the name of its scheme, in the place of an earlier one of that name. -/
structure FastApiLaws {δ : Type} (A : FastApi δ) : Prop where
  scheme : ∀ scheme, A.flat (A.scheme scheme) = [scheme]
  callable : ∀ below, A.flat (A.callable below) = below.flatMap A.flat
  components : ∀ declared, A.components declared =
    Ordered.update [] ((declared.flatMap A.flat).map fun scheme => (scheme.schemeName, scheme.model))

section Declaring

variable {δ : Type} (A : FastApi δ)

def link (scheme : DeclaredScheme) : Option δ → δ
  | none => A.callable [A.scheme scheme]
  | some inner => A.callable [A.scheme scheme, inner]

def declaring (schemes : List DeclaredScheme) : Option δ :=
  schemes.reverse.foldl (fun chain scheme => some (link A scheme chain)) none

def resolve (declared : Option δ) : δ := A.callable declared.toList

/-- A dependency of the bridge: a session dependency hangs off the resolver, a gate off a session
dependency. -/
inductive Bridged (resolver : δ) : δ → Prop
  | session : Bridged resolver (A.callable [resolver])
  | gate {current : δ} : Bridged resolver current → Bridged resolver (A.callable [current])

end Declaring

variable {F : CaseFolding} {R : Runtime} {source cookie description : Text} {sole : Bool}
  {scheme : DeclaredScheme} {declared schemes : List DeclaredScheme} {verifiers : List Checked}

def readable (F : CaseFolding) (sole : Bool) (verifiers : List Checked) : List DeclaredScheme :=
  verifiers.filterMap fun verifier => schemeFor F verifier.source sole

theorem readable_cons (verifier : Checked) (rest : List Checked) :
    readable F sole (verifier :: rest) =
      (schemeFor F verifier.source sole).toList ++ readable F sole rest := by
  unfold readable
  cases h : schemeFor F verifier.source sole with
  | none => exact List.filterMap_cons_none h
  | some scheme => exact List.filterMap_cons_some h

theorem rejectNameCollision_ok {verifier : Checked} {u : Unit} :
    rejectNameCollision R scheme verifier declared = .ok u ↔
      scheme.schemeName ∉ declared.map DeclaredScheme.schemeName := by
  unfold rejectNameCollision
  split
  · rename_i h
    refine iff_of_true rfl ?_
    simpa [List.all_eq_true] using h
  · rename_i h
    refine iff_of_false nofun ?_
    simpa [List.all_eq_true] using h

theorem schemesFrom_none {verifier : Checked} {rest : List Checked}
    (h : schemeFor F verifier.source sole = none) :
    schemesFrom F R sole declared (verifier :: rest) = schemesFrom F R sole declared rest := by
  rw [schemesFrom, h]

theorem schemesFrom_fresh {verifier : Checked} {rest : List Checked}
    (h : schemeFor F verifier.source sole = some scheme)
    (hfresh : scheme.schemeName ∉ declared.map DeclaredScheme.schemeName) :
    schemesFrom F R sole declared (verifier :: rest) =
      schemesFrom F R sole (declared ++ [scheme]) rest := by
  have hreject : rejectNameCollision R scheme verifier declared = .ok () :=
    rejectNameCollision_ok.mpr hfresh
  rw [schemesFrom, h]
  dsimp only
  rw [hreject]
  rfl

theorem schemesFrom_clash {verifier : Checked} {rest : List Checked}
    (h : schemeFor F verifier.source sole = some scheme)
    (hclash : scheme.schemeName ∈ declared.map DeclaredScheme.schemeName) :
    schemesFrom F R sole declared (verifier :: rest) ≠ .ok schemes := by
  rw [schemesFrom, h]
  intro he
  obtain ⟨u, hu, -⟩ := bind_eq_ok.mp he
  exact rejectNameCollision_ok.mp hu hclash

/-- A scheme more is accepted exactly if its key is a fresh one, so all of them are. -/
theorem schemesFrom_ok (hd : (declared.map DeclaredScheme.schemeName).Nodup) :
    schemesFrom F R sole declared verifiers = .ok schemes ↔
      schemes = declared ++ readable F sole verifiers ∧
        (schemes.map DeclaredScheme.schemeName).Nodup := by
  induction verifiers generalizing declared with
  | nil =>
    rw [show readable F sole [] = [] from rfl, List.append_nil]
    constructor
    · intro h
      cases h
      exact ⟨rfl, hd⟩
    · rintro ⟨rfl, -⟩
      rfl
  | cons verifier rest ih =>
    rw [readable_cons]
    cases hs : schemeFor F verifier.source sole with
    | none =>
      rw [schemesFrom_none hs]
      exact ih hd
    | some scheme =>
      rw [Option.toList_some, ← List.append_assoc]
      by_cases hclash : scheme.schemeName ∈ declared.map DeclaredScheme.schemeName
      · refine iff_of_false (schemesFrom_clash hs hclash) ?_
        rintro ⟨rfl, hn⟩
        rw [List.map_append, List.map_append, List.nodup_append, List.nodup_append] at hn
        exact hn.1.2.2 _ hclash _ List.mem_cons_self rfl
      · rw [schemesFrom_fresh hs hclash]
        apply ih
        rw [List.map_append, List.nodup_append]
        refine ⟨hd, List.nodup_singleton _, fun a ha b hb => ?_⟩
        obtain rfl := List.mem_singleton.mp hb
        rintro rfl
        exact hclash ha

theorem map_schemeName_schemeFor (source : Text) (sole : Bool) :
    (schemeFor F source sole).map DeclaredScheme.schemeName =
      Composition.schemeFor F source sole := by
  unfold schemeFor Composition.schemeFor
  split
  · rfl
  · rw [Option.map_map]
    rfl

theorem map_schemeName_schemesFrom (sole : Bool) (declared : List DeclaredScheme)
    (verifiers : List Checked) :
    (schemesFrom F R sole declared verifiers).map (List.map DeclaredScheme.schemeName) =
      Composition.published F R sole (declared.map DeclaredScheme.schemeName) verifiers := by
  induction verifiers generalizing declared with
  | nil => rfl
  | cons verifier rest ih =>
    rw [Composition.published, ← map_schemeName_schemeFor]
    cases hs : schemeFor F verifier.source sole with
    | none =>
      rw [schemesFrom_none hs]
      exact ih declared
    | some scheme =>
      rw [Option.map_some]
      dsimp only
      by_cases hclash : scheme.schemeName ∈ declared.map DeclaredScheme.schemeName
      · have hall : ¬ (declared.all fun each => each.schemeName != scheme.schemeName) = true := by
          simpa [List.all_eq_true] using hclash
        rw [if_pos hclash, schemesFrom, hs]
        dsimp only
        rw [rejectNameCollision, if_neg hall]
        rfl
      · rw [if_neg hclash, schemesFrom_fresh hs hclash, ih, List.map_append]
        rfl

theorem map_schemeName_schemesFor (verifiers : List Checked) :
    (schemesFor F R verifiers).map (List.map DeclaredScheme.schemeName) =
      Composition.schemesFor F R verifiers :=
  map_schemeName_schemesFrom _ [] verifiers

section Documents

variable {δ : Type} {A : FastApi δ} {resolver dependant : δ} {dependants : List δ}

theorem declaring_cons (scheme : DeclaredScheme) (schemes : List DeclaredScheme) :
    declaring A (scheme :: schemes) = some (link A scheme (declaring A schemes)) := by
  rw [declaring, List.reverse_cons, List.foldl_append, ← declaring]
  rfl

theorem flat_link (laws : FastApiLaws A) (scheme : DeclaredScheme) (chain : Option δ) :
    A.flat (link A scheme chain) = scheme :: chain.toList.flatMap A.flat := by
  cases chain with
  | none => rw [link, laws.callable, List.flatMap_singleton, laws.scheme]; rfl
  | some inner => rw [link, laws.callable, List.flatMap_cons, laws.scheme]; rfl

/-- The chain is flattened into the schemes it was folded from, in their order. -/
theorem flatMap_declaring (laws : FastApiLaws A) (schemes : List DeclaredScheme) :
    (declaring A schemes).toList.flatMap A.flat = schemes := by
  induction schemes with
  | nil => rfl
  | cons scheme schemes ih =>
    rw [declaring_cons, Option.toList_some, List.flatMap_singleton, flat_link laws, ih]

theorem Bridged.flat_eq (laws : FastApiLaws A) (h : Bridged A resolver dependant) :
    A.flat dependant = A.flat resolver := by
  induction h with
  | session => rw [laws.callable, List.flatMap_singleton]
  | gate _ ih => rw [laws.callable, List.flatMap_singleton, ih]

theorem flat_bridged (laws : FastApiLaws A)
    (h : Bridged A (resolve A (declaring A schemes)) dependant) : A.flat dependant = schemes := by
  rw [h.flat_eq laws, resolve, laws.callable]
  exact flatMap_declaring laws schemes

def definitions (schemes : List DeclaredScheme) : Ordered.Table Text SecurityModel :=
  schemes.map fun scheme => (scheme.schemeName, scheme.model)

theorem map_fst_definitions (schemes : List DeclaredScheme) :
    (definitions schemes).map Prod.fst = schemes.map DeclaredScheme.schemeName := by
  rw [definitions, List.map_map]
  rfl

/-- However often the schemes are declared, no definition replaces another. -/
theorem components_bridged (laws : FastApiLaws A)
    (hn : (schemes.map DeclaredScheme.schemeName).Nodup) (hne : dependants ≠ [])
    (hb : ∀ d ∈ dependants, Bridged A (resolve A (declaring A schemes)) d) :
    A.components dependants = definitions schemes := by
  rw [← map_fst_definitions] at hn
  have hall : ∀ ds : List δ, (∀ d ∈ ds, Bridged A (resolve A (declaring A schemes)) d) →
      ∀ e ∈ definitions (ds.flatMap A.flat), Ordered.get (definitions schemes) e.1 = some e.2 := by
    intro ds
    induction ds with
    | nil => exact fun _ e he => absurd he List.not_mem_nil
    | cons d ds ih =>
      intro hds e he
      rw [List.flatMap_cons, flat_bridged laws (hds d List.mem_cons_self), definitions,
        List.map_append] at he
      obtain he | he := List.mem_append.mp he
      · exact Ordered.get_of_mem hn he
      · exact ih (fun d hd => hds d (List.mem_cons_of_mem _ hd)) e he
  cases dependants with
  | nil => exact absurd rfl hne
  | cons d ds =>
    have hfirst : Ordered.update [] (definitions schemes) = definitions schemes :=
      Ordered.update_of_fresh hn
    rw [laws.components, List.flatMap_cons, flat_bridged laws (hb d List.mem_cons_self),
      List.map_append, Ordered.update_append]
    change Ordered.update (Ordered.update [] (definitions schemes))
      (definitions (ds.flatMap A.flat)) = _
    rw [hfirst]
    exact Ordered.update_of_get hn (hall ds fun d hd => hb d (List.mem_cons_of_mem _ hd))

end Documents

section Labels

def isCookie (scheme : DeclaredScheme) : Bool :=
  match scheme.model with
  | .httpBearer _ => false
  | .apiKeyCookie .. => true

theorem schemeFor_cases (h : schemeFor F source sole = some scheme) :
    (cookieNamed F source = none ∧
        scheme = ⟨.httpBearer bearerDescription, bearerSchemeName⟩) ∨
      ∃ cookie, cookieNamed F source = some cookie ∧
        scheme = ⟨.apiKeyCookie cookie (cookieDescription cookie), cookieScheme cookie sole⟩ := by
  unfold schemeFor at h
  split at h
  · rename_i hb
    cases h
    refine .inl ⟨?_, rfl⟩
    have hprefix : ¬ cookiePrefix.isPrefixOf bearerSource = true := by decide
    rw [cookieNamed, hb]
    exact if_neg hprefix
  · obtain ⟨cookie, hc, rfl⟩ := Option.map_eq_some_iff.mp h
    exact .inr ⟨cookie, hc, rfl⟩

theorem isCookie_schemeFor (h : schemeFor F source sole = some scheme) :
    isCookie scheme = (cookieNamed F source).isSome := by
  obtain ⟨hn, rfl⟩ | ⟨cookie, hc, rfl⟩ := schemeFor_cases h
  · rw [hn]
    rfl
  · rw [hc]
    rfl

theorem cookieNamed_of_schemeFor_none (h : schemeFor F source sole = none) :
    cookieNamed F source = none := by
  unfold schemeFor at h
  split at h
  · cases h
  · exact Option.map_eq_none_iff.mp h

theorem length_cookies (sole : Bool) (verifiers : List Checked) :
    ((readable F sole verifiers).filter isCookie).length =
      (verifiers.filter (declaresACookie F)).length := by
  induction verifiers with
  | nil => rfl
  | cons verifier rest ih =>
    rw [readable_cons, List.filter_append, List.length_append, ih, List.filter_cons]
    cases hs : schemeFor F verifier.source sole with
    | none =>
      have hnone : declaresACookie F verifier = false := by
        rw [declaresACookie, cookieNamed_of_schemeFor_none hs]
        rfl
      rw [if_neg (by simp [hnone])]
      exact Nat.zero_add _
    | some scheme =>
      have hsame : isCookie scheme = declaresACookie F verifier := isCookie_schemeFor hs
      cases hc : declaresACookie F verifier with
      | false => simp [hsame, hc]
      | true => simp [hsame, hc, Nat.add_comm]

theorem cookieScheme_eq (cookie : Text) (sole : Bool) :
    cookieScheme cookie sole = cookieSchemeName ↔ sole = true := by
  cases sole with
  | true => exact iff_of_true rfl rfl
  | false =>
    refine iff_of_false (fun h => ?_) Bool.false_ne_true
    have hlen := congrArg List.length h
    rw [cookieScheme, if_neg Bool.false_ne_true, List.length_append, List.length_cons] at hlen
    omega

def Legal (key : Text) : Prop := key ≠ [] ∧ ∀ c ∈ key, schemeChar c = true

theorem legal_cookieScheme (cookie : Text) (sole : Bool) : Legal (cookieScheme cookie sole) := by
  have hname : (cookieSchemeName.all schemeChar) = true := by decide
  cases sole with
  | true =>
    rw [(cookieScheme_eq cookie true).mpr rfl]
    exact ⟨by decide, List.all_eq_true.mp hname⟩
  | false =>
    refine ⟨fun h => ?_, fun c hc => ?_⟩
    · have hlen := congrArg List.length h
      rw [cookieScheme, if_neg Bool.false_ne_true, List.length_append, List.length_cons] at hlen
      cases hlen
    · rw [cookieScheme, if_neg Bool.false_ne_true] at hc
      obtain hc | hc := List.mem_append.mp hc
      · exact List.all_eq_true.mp hname c hc
      · obtain rfl | hc := List.mem_cons.mp hc
        · decide
        · obtain ⟨d, -, rfl⟩ := List.mem_map.mp hc
          split
          · assumption
          · decide

theorem cookieNamed_cookieSource {base : Text} (h : blank base = false) :
    cookieNamed F (cookieSource base) = some (strip base) := by
  have hnil : strip base ≠ [] := by
    rw [ne_eq, ← blank_iff, h]
    exact Bool.false_ne_true
  obtain ⟨a, b, hbase, ha, hb⟩ := trim_decomp isSpace base
  have hcore : trim isSpace (cookiePrefix ++ (a ++ strip base)) =
      cookiePrefix ++ (a ++ strip base) :=
    trim_around (strip_of_solid cookiePrefix_solid) (trim_trim isSpace base) (by decide) hnil a
  have hstrip : strip (cookieSource base) = cookiePrefix ++ (a ++ strip base) := by
    have hpad := trim_padded (a := []) nofun hb hcore
    rw [cookieSource, strip]
    conv_lhs => rw [hbase]
    simpa only [strip, List.nil_append, List.append_assoc] using hpad
  have hname : strip (a ++ strip base) = strip base := by
    have hpad := trim_padded ha (b := []) nofun (trim_trim isSpace base)
    rwa [List.append_nil] at hpad
  rw [cookieNamed, hstrip]
  dsimp only
  rw [casefold_append, casefold_cookiePrefix,
    if_pos (List.isPrefixOf_iff_prefix.mpr (List.prefix_append _ _)), List.drop_left, hname,
    if_neg hnil]

theorem base_not_blank (names : CookieNames) : blank names.base = false := by
  unfold CookieNames.base
  split
  · rw [blank, List.all_append, Bool.and_eq_false_iff]
    exact .inr names.named.1
  · exact names.named.1

end Labels

structure Documents {δ : Type} (A : FastApi δ) (F : CaseFolding) (checked : List Checked)
    (schemes : List DeclaredScheme) : Prop where
  each : schemes = readable F ((schemes.filter isCookie).length == 1) checked
  keys : (schemes.map DeclaredScheme.schemeName).Nodup
  legal : ∀ s ∈ schemes, Legal s.schemeName
  sole : ∀ s ∈ schemes, isCookie s = true →
    (s.schemeName = cookieSchemeName ↔ (schemes.filter isCookie).length = 1)
  reads : ∀ c ∈ checked, ∀ names, c.entry.candidate.reads = some names → ∃ s ∈ schemes,
    s.model = .apiKeyCookie (strip names.base) (cookieDescription (strip names.base))
  operation : ∀ d, Bridged A (resolve A (declaring A schemes)) d → A.flat d = schemes
  document : ∀ ds, ds ≠ [] → (∀ d ∈ ds, Bridged A (resolve A (declaring A schemes)) d) →
    A.components ds = definitions schemes

def schemeNames (F : CaseFolding) (checked : List Checked) : List Text :=
  (readable F ((checked.filter (declaresACookie F)).length == 1) checked).map
    DeclaredScheme.schemeName

theorem schemesFor_ok {checked : List Checked} : schemesFor F R checked = .ok schemes ↔
    schemes = readable F ((checked.filter (declaresACookie F)).length == 1) checked ∧
      (schemeNames F checked).Nodup := by
  have hnil : (([] : List DeclaredScheme).map DeclaredScheme.schemeName).Nodup := List.nodup_nil
  rw [schemesFor, schemesFrom_ok hnil, List.nil_append]
  constructor
  · rintro ⟨rfl, hn⟩
    exact ⟨rfl, hn⟩
  · rintro ⟨rfl, hn⟩
    exact ⟨rfl, hn⟩

theorem schemeFor_of_reads {c : Checked} {names : CookieNames}
    (hc : c.entry.candidate.declared.credentialSource = .text c.source)
    (hn : c.entry.candidate.reads = some names) (sole : Bool) :
    schemeFor F c.source sole = some ⟨.apiKeyCookie (strip names.base)
      (cookieDescription (strip names.base)), cookieScheme (strip names.base) sole⟩ := by
  have hsource : c.source = cookieSource names.base :=
    Urls.Setting.text.inj (hc.symm.trans (CookieCollisions.source_of_reads hn))
  have hnamed : cookieNamed F c.source = some (strip names.base) := by
    rw [hsource]
    exact cookieNamed_cookieSource (base_not_blank names)
  cases hs : schemeFor F c.source sole with
  | none =>
    rw [cookieNamed_of_schemeFor_none hs] at hnamed
    cases hnamed
  | some scheme =>
    obtain ⟨hnone, -⟩ | ⟨cookie, hcookie, rfl⟩ := schemeFor_cases hs
    · rw [hnone] at hnamed
      cases hnamed
    · rw [hnamed] at hcookie
      cases hcookie
      rfl

theorem documents_of_ok {δ : Type} {A : FastApi δ} (laws : FastApiLaws A) {checked : List Checked}
    (hsource : ∀ c ∈ checked, c.entry.candidate.declared.credentialSource = .text c.source)
    (h : schemesFor F R checked = .ok schemes) : Documents A F checked schemes := by
  obtain ⟨hs, hn⟩ := schemesFor_ok.mp h
  have hcount : (schemes.filter isCookie).length = (checked.filter (declaresACookie F)).length := by
    rw [hs]
    exact length_cookies _ checked
  have hkeys : (schemes.map DeclaredScheme.schemeName).Nodup := by
    rw [hs]
    exact hn
  rw [← hcount] at hs
  have hmade : ∀ s ∈ schemes, ∃ c ∈ checked,
      schemeFor F c.source ((schemes.filter isCookie).length == 1) = some s := by
    intro s hm
    rw [hs] at hm
    exact List.mem_filterMap.mp hm
  constructor
  · exact hs
  · exact hkeys
  · intro s hm
    obtain ⟨c, -, hc⟩ := hmade s hm
    obtain ⟨-, rfl⟩ | ⟨cookie, -, rfl⟩ := schemeFor_cases hc
    · have hname : (bearerSchemeName.all schemeChar) = true := by decide
      exact ⟨by decide, List.all_eq_true.mp hname⟩
    · exact legal_cookieScheme cookie _
  · intro s hm hcookie
    obtain ⟨c, -, hc⟩ := hmade s hm
    obtain ⟨-, rfl⟩ | ⟨cookie, -, rfl⟩ := schemeFor_cases hc
    · cases hcookie
    · rw [cookieScheme_eq, beq_iff_eq]
  · intro c hm names hnames
    have hc := schemeFor_of_reads (F := F) (hsource c hm) hnames
      ((schemes.filter isCookie).length == 1)
    have hmem : ∀ s, schemeFor F c.source ((schemes.filter isCookie).length == 1) = some s →
        s ∈ schemes := by
      intro s h
      rw [hs]
      exact List.mem_filterMap.mpr ⟨c, hm, h⟩
    exact ⟨_, hmem _ hc, rfl⟩
  · intro d hd
    exact flat_bridged laws hd
  · intro ds hne hb
    exact components_bridged laws hkeys hne hb

/-- What is published of a list of verifiers: nothing unless no two of its labels come to one key,
and then each of them under a key of its own, which is what every operation and the document hold. -/
structure Published {δ : Type} (A : FastApi δ) (F : CaseFolding) (R : Runtime)
    (verifiers : Verifiers) : Prop where
  accepts : ∀ checked, Composition.validated F R verifiers = .ok checked →
    ((∃ accepted, Composition.init F R verifiers = .ok accepted) ↔ (schemeNames F checked).Nodup)
  documents : ∀ accepted, Composition.init F R verifiers = .ok accepted →
    ∃ checked schemes, checked.map Checked.entry = accepted ∧
      schemesFor F R checked = .ok schemes ∧ Documents A F checked schemes

theorem published_exactly {δ : Type} (A : FastApi δ) (F : CaseFolding) (R : Runtime)
    (verifiers : Verifiers) (laws : FastApiLaws A) : Published A F R verifiers := by
  constructor
  · intro checked hv
    have hinit : Composition.init F R verifiers =
        (Composition.schemesFor F R checked).map fun _ => checked.map Checked.entry := by
      rw [Composition.init, hv, ok_bind]
      cases Composition.schemesFor F R checked <;> rfl
    rw [hinit, ← map_schemeName_schemesFor]
    constructor
    · rintro ⟨accepted, h⟩
      cases hs : schemesFor F R checked with
      | error exc =>
        rw [hs] at h
        cases h
      | ok schemes => exact (schemesFor_ok.mp hs).2
    · intro hn
      have hs : schemesFor F R checked = .ok _ := schemesFor_ok.mpr ⟨rfl, hn⟩
      rw [hs]
      exact ⟨_, rfl⟩
  · intro accepted h
    obtain ⟨checked, hv, h⟩ := bind_eq_ok.mp h
    obtain ⟨u, hd, h⟩ := bind_eq_ok.mp h
    cases h
    rw [← map_schemeName_schemesFor] at hd
    cases hs : schemesFor F R checked with
    | error exc =>
      rw [hs] at hd
      cases hd
    | ok schemes =>
      exact ⟨checked, schemes, rfl, hs, documents_of_ok laws (CookieCollisions.validated_ok hv).2 hs⟩

section Sample

inductive Dependant
  | scheme (scheme : DeclaredScheme)
  | callable (below : List Dependant)

mutual

def Dependant.flat : Dependant → List DeclaredScheme
  | .scheme scheme => [scheme]
  | .callable below => flatAll below

def flatAll : List Dependant → List DeclaredScheme
  | [] => []
  | dependant :: rest => dependant.flat ++ flatAll rest

end

theorem flatAll_eq (below : List Dependant) : flatAll below = below.flatMap Dependant.flat := by
  induction below with
  | nil => rfl
  | cons dependant rest ih => rw [flatAll, ih, List.flatMap_cons]

def sampleFastApi : FastApi Dependant where
  scheme := .scheme
  callable := .callable
  flat := Dependant.flat
  components declared := Ordered.update []
    ((declared.flatMap Dependant.flat).map fun scheme => (scheme.schemeName, scheme.model))

theorem sampleFastApi_laws : FastApiLaws sampleFastApi where
  scheme _ := rfl
  callable := flatAll_eq
  components _ := rfl

end Sample

/-- A bridge of two verifiers is accepted, and published by a FastAPI that keeps trees. -/
theorem published_exactly_trees :
    (∃ accepted, Composition.init CookieCollisions.sampleFolding RemoteSoundness.sampleRuntime
        (.sequence (CookieCollisions.sampleList CookieCollisions.otherNames)) = .ok accepted) ∧
      Published sampleFastApi CookieCollisions.sampleFolding RemoteSoundness.sampleRuntime
        (.sequence (CookieCollisions.sampleList CookieCollisions.otherNames)) :=
  ⟨⟨_, rfl⟩, published_exactly sampleFastApi _ _ _ sampleFastApi_laws⟩

end BetterAuthBridge.DeclaredSchemes
