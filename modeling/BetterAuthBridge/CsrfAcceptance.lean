import BetterAuthBridge.CsrfPolicies

namespace BetterAuthBridge.CsrfAcceptance

open Library.Text Values Errors Models Csrf CookieParsing Signing Urls CsrfPolicies

variable {R : Runtime} {U : UrlLibrary} {connection : Connection} {other : CsrfPolicy}
  {place : String} {name : Text}

def Safe (connection : Connection) : Prop :=
  connection.websocket = false ∧
    ∃ method, connection.method = some method ∧ upper method.toList ∈ safeMethods

/-- A request that no browser called cross-site, with one origin, and that on the list. -/
def FromAllowed (allowed : List Text) (connection : Connection) : Prop :=
  (∀ site, connection.getHeader "sec-fetch-site" = some site → casefold (strip site) ≠ crossSite) ∧
    ∃ origin ∈ allowed, connection.getlist "origin" = [origin]

def Carries (connection : Connection) (name : Text) : Prop :=
  ∃ value, connection.getHeader (String.ofList name) = some value ∧ blank value = false

def Passes (policy : CsrfPolicy) (facts : CsrfFacts) (sessionToken : Text) : Prop :=
  policy.check facts sessionToken = .none

theorem answerOf_none {x : Except Exn Unit} : answerOf x = .none ↔ x = .ok () := by
  cases x with
  | ok u => exact ⟨fun _ => rfl, fun _ => rfl⟩
  | error e => exact ⟨nofun, nofun⟩

theorem requiresCheck_eq_false :
    requiresCheck (CsrfFacts.fromConnection connection other) = false ↔ Safe connection := by
  cases hw : connection.websocket with
  | true => simp [requiresCheck, CsrfFacts.fromConnection, Safe, hw]
  | false =>
    cases hm : connection.method <;>
      simp [requiresCheck, CsrfFacts.fromConnection, Safe, hw, hm]

theorem matched_iff {allowed : List Text} {origin : Text} :
    (encoded allowed).foldl (fun matched c => matched || encodeUtf8 origin == c) false = true ↔
      origin ∈ allowed := by
  rw [foldl_or, Bool.false_or, encoded, List.any_map, List.any_eq_true]
  simp [encodeUtf8_injective.eq_iff]

theorem rejectBadOrigin_ok {allowed : List Text} {facts : CsrfFacts}
    (hblank : ∀ origin ∈ allowed, blank origin = false) :
    rejectBadOrigin facts (encoded allowed) = .ok () ↔
      (∀ site, facts.secFetchSite = some site → casefold (strip site) ≠ crossSite) ∧
        ∃ origin ∈ allowed, facts.origin = some origin ∧ facts.originCount ≤ 1 := by
  rw [rejectBadOrigin]
  split
  · rename_i hsite
    obtain ⟨site, hs, hc⟩ := (Option.any_eq_true _ _).mp hsite
    exact ⟨nofun, fun h => (h.1 site hs (of_decide_eq_true hc)).elim⟩
  · rename_i hsite
    have hfirst : ∀ site, facts.secFetchSite = some site → casefold (strip site) ≠ crossSite := by
      intro site hs hc
      exact hsite (by simp [hs, hc])
    cases ho : facts.origin with
    | none => exact ⟨nofun, fun h => by obtain ⟨-, origin, -, he, -⟩ := h; cases he⟩
    | some origin =>
      have hiff : ((∀ site, facts.secFetchSite = some site → casefold (strip site) ≠ crossSite) ∧
          ∃ origin' ∈ allowed, some origin = some origin' ∧ facts.originCount ≤ 1) ↔
          origin ∈ allowed ∧ facts.originCount ≤ 1 := by
        simp only [Option.some.injEq]
        constructor
        · rintro ⟨-, origin', hm, rfl, hn⟩
          exact ⟨hm, hn⟩
        · rintro ⟨hm, hn⟩
          exact ⟨hfirst, origin, hm, rfl, hn⟩
      rw [hiff]
      dsimp only
      by_cases hb : blank origin = true
      · rw [if_pos hb]
        refine ⟨nofun, fun h => ?_⟩
        rw [hblank origin h.1] at hb
        cases hb
      · rw [if_neg hb]
        by_cases hn : 1 < facts.originCount
        · rw [if_pos hn]
          exact ⟨nofun, fun h => (hn.not_ge h.2).elim⟩
        · rw [if_neg hn]
          by_cases hm : origin ∈ allowed
          · rw [if_pos (matched_iff.mpr hm)]
            exact ⟨fun _ => ⟨hm, not_lt.mp hn⟩, fun _ => rfl⟩
          · rw [if_neg (matched_iff.not.mpr hm)]
            exact ⟨nofun, fun h => (hm h.1).elim⟩

theorem presentedHeader_ok {presented : Text} {facts : CsrfFacts} :
    presentedHeader R facts name = .ok presented ↔
      facts.headerName = some (String.ofList name) ∧ facts.headerValue = some presented ∧
        blank presented = false := by
  rw [presentedHeader]
  split
  · rename_i hname
    exact ⟨nofun, fun h => (hname h.1).elim⟩
  · rename_i hname
    rw [not_not.mp hname]
    cases hv : facts.headerValue with
    | none => exact ⟨nofun, fun h => by cases h.2.1⟩
    | some value =>
      dsimp only
      by_cases hb : blank value = true
      · rw [if_pos hb]
        refine ⟨nofun, ?_⟩
        rintro ⟨-, he, hn⟩
        cases he
        rw [hb] at hn
        cases hn
      · simp only [if_neg hb, pure_eq_ok, Except.ok.injEq, Option.some.injEq, true_and]
        refine ⟨fun h => ⟨h, ?_⟩, fun h => h.1⟩
        rw [← h]
        exact eq_false_of_ne_true hb

theorem rejectForgedToken_ok {secret : SharedSecret} {sessionToken presented : Text} :
    rejectForgedToken R secret sessionToken presented name = .ok () ↔
      presented = digest R secret sessionToken := by
  rw [@eq_comm _ presented]
  by_cases h : digest R secret sessionToken = presented
  · simp [rejectForgedToken, h]
  · simp [rejectForgedToken, encodeUtf8_injective.eq_iff, h]

theorem fromConnection_origin {origin : Text} :
    (CsrfFacts.fromConnection connection other).origin = some origin ∧
        (CsrfFacts.fromConnection connection other).originCount ≤ 1 ↔
      connection.getlist "origin" = [origin] := by
  cases hl : connection.getlist "origin" with
  | nil => simp [CsrfFacts.fromConnection, Connection.getHeader, hl]
  | cons first rest => cases rest <;> simp [CsrfFacts.fromConnection, Connection.getHeader, hl]

theorem allowed_iff (other : CsrfPolicy) {allowed : List Text}
    (hblank : ∀ origin ∈ allowed, blank origin = false) :
    rejectBadOrigin (CsrfFacts.fromConnection connection other) (encoded allowed) = .ok () ↔
      FromAllowed allowed connection := by
  rw [rejectBadOrigin_ok hblank]
  simp only [fromConnection_origin]
  rfl

theorem presented_iff {presented : Text} :
    presentedHeader R (CsrfFacts.fromConnection connection other) name = .ok presented ↔
      wantedHeader other = some (String.ofList name) ∧
        connection.getHeader (String.ofList name) = some presented ∧ blank presented = false := by
  rw [presentedHeader_ok]
  refine and_congr_right fun hw => and_congr_left fun _ => ?_
  have hw' : wantedHeader other = some (String.ofList name) := hw
  simp [CsrfFacts.fromConnection, hw']

theorem headerChar_lower {c : Char} (hc : headerChar c = true) :
    headerChar c.toLower = true ∧ c.toLower.toLower = c.toLower ∧ isSpace c.toLower = false ∧
      c ≠ '\u212a' ∧ c.toLower ≠ '\u212a' := by
  have ha : isAscii c = true := by
    rw [headerChar, Bool.and_eq_true] at hc
    exact hc.1
  revert hc
  exact forall_ascii (P := fun c => headerChar c = true → headerChar c.toLower = true ∧
    c.toLower.toLower = c.toLower ∧ isSpace c.toLower = false ∧ c ≠ '\u212a' ∧
    c.toLower ≠ '\u212a') (by decide) ha

structure Canonical (name : Text) : Prop where
  filled : name ≠ []
  lowered : lower name = name
  unspaced : ∀ c ∈ name, isSpace c = false

theorem lower_of_headerChars {t : Text} (h : ∀ c ∈ t, headerChar c = true) :
    lower t = t.map Char.toLower := by
  refine List.map_congr_left fun c hc => ?_
  exact if_neg (headerChar_lower (h c hc)).2.2.2.1

theorem validatedHeader_ok {value : Setting} (h : validatedHeader R value place = .ok name) :
    (∃ given, value = .text given ∧ lower (strip given) = name) ∧ Canonical name := by
  cases value with
  | other typeName rendered => cases h
  | text given =>
    simp only [validatedHeader] at h
    split at h
    · cases h
    · rename_i hfull
      split at h
      · cases h
      · cases h
        simp only [fullmatch, Bool.not_eq_false, Bool.and_eq_true, decide_eq_true_eq,
          List.all_eq_true] at hfull
        obtain ⟨⟨hpos, -⟩, hall⟩ := hfull
        have hchar : ∀ d ∈ (strip given).map Char.toLower, ∃ c, headerChar c = true ∧
            d = c.toLower := by
          intro d hd
          obtain ⟨c, hc, rfl⟩ := List.mem_map.mp hd
          exact ⟨c, hall c hc, rfl⟩
        refine ⟨⟨given, rfl, rfl⟩, ?_⟩
        rw [lower_of_headerChars hall]
        refine ⟨?_, ?_, ?_⟩
        · intro hn
          rw [List.map_eq_nil_iff.mp hn] at hpos
          simp at hpos
        · rw [lower_of_headerChars fun d hd => ?_]
          · rw [List.map_map]
            exact List.map_congr_left fun c hc => (headerChar_lower (hall c hc)).2.1
          · obtain ⟨c, hc, rfl⟩ := hchar d hd
            exact (headerChar_lower hc).1
        · intro d hd
          obtain ⟨c, hc, rfl⟩ := hchar d hd
          exact (headerChar_lower hc).2.2.1

theorem optionalHeader_ok {value : Option Setting} {header : Option Text}
    (h : optionalHeader R value place = .ok header) : ∀ name, header = some name →
      ∃ given, value = some (.text given) ∧ lower (strip given) = name ∧ Canonical name := by
  intro name hn
  cases value with
  | none =>
    cases h
    cases hn
  | some value =>
    rw [optionalHeader] at h
    cases hv : validatedHeader R value place with
    | error e =>
      rw [hv] at h
      cases h
    | ok kept =>
      rw [hv] at h
      cases h
      cases hn
      obtain ⟨⟨given, rfl, hg⟩, hc⟩ := validatedHeader_ok hv
      exact ⟨given, rfl, hg, hc⟩

theorem optionalHeader_isSome {value : Setting} {header : Option Text}
    (h : optionalHeader R (some value) place = .ok header) : ∃ name, header = some name := by
  rw [optionalHeader] at h
  cases hv : validatedHeader R value place with
  | error e =>
    rw [hv] at h
    cases h
  | ok kept =>
    rw [hv] at h
    cases h
    exact ⟨kept, rfl⟩

theorem Canonical.wanted (h : Canonical name) {policy : CsrfPolicy}
    (hp : policy.requiredHeader = some (String.ofList name)) :
    wantedHeader policy = some (String.ofList name) := by
  have hb : blank name = false := by
    obtain ⟨c, rest, rfl⟩ := List.exists_cons_of_ne_nil h.filled
    simp [blank, h.unspaced c (by simp)]
  have hs : strip name = name := trim_eq_self fun c hc => by simp [h.unspaced c hc]
  simp [wantedHeader, hp, hb, hs, h.lowered]

def Canonicalized (R : Runtime) (U : UrlLibrary) (entries : List Setting) (origins : List Text) :
    Prop :=
  List.Forall₂ (fun entry origin => ∃ field, normalizeBaseUrl R U entry field = .ok origin) entries
    origins

theorem Canonicalized.not_blank {entries : List Setting} {origins : List Text}
    (h : Canonicalized R U entries origins) : ∀ origin ∈ origins, blank origin = false := by
  induction h with
  | nil => exact fun origin ho => by cases ho
  | cons hentry _ ih =>
    intro origin ho
    obtain ⟨field, hf⟩ := hentry
    obtain rfl | ho := List.mem_cons.mp ho
    · exact not_blank_of_normalizeBaseUrl hf
    · exact ih origin ho

theorem Canonicalized.unique {entries : List Setting} {origins origins' : List Text}
    (h : Canonicalized R U entries origins) (h' : Canonicalized R U entries origins') :
    origins = origins' := by
  induction h generalizing origins' with
  | nil =>
    cases h'
    rfl
  | cons hentry _ ih =>
    cases h' with
    | cons hentry' hrest' =>
      obtain ⟨field, hf⟩ := hentry
      obtain ⟨field', hf'⟩ := hentry'
      have he := (normalizeBaseUrl_field hf field').symm.trans hf'
      rw [Except.ok.inj he, ih hrest']

theorem collected_ok {entries : List Setting} {index : Nat} {normalized origins : List Text}
    (h : collected R U place index normalized entries = .ok origins) :
    ∃ rest, origins = normalized ++ rest ∧ Canonicalized R U entries rest := by
  induction entries generalizing index normalized with
  | nil =>
    cases h
    exact ⟨[], by simp, .nil⟩
  | cons entry entries ih =>
    obtain ⟨origin, ho, h⟩ := bind_eq_ok.mp h
    split at h
    · cases h
    · obtain ⟨rest, rfl, hrest⟩ := ih h
      exact ⟨origin :: rest, by simp, .cons ⟨_, ho⟩ hrest⟩

theorem validatedOrigins_ok {value : Origins} {origins : List Text}
    (h : validatedOrigins R U value place = .ok origins) :
    ∃ entries, value = .sequence entries ∧ Canonicalized R U entries origins := by
  unfold validatedOrigins at h
  split at h
  · cases h
  · cases h
  · rename_i entries _
    obtain ⟨rest, rfl, hrest⟩ := collected_ok h
    exact ⟨entries, rfl, hrest⟩

theorem originCheck_init_ok {origins : Origins} {header : Option Setting} {policy : OriginCheck}
    (h : OriginCheck.init R U origins header = .ok policy) :
    (∃ entries, origins = .sequence entries ∧ Canonicalized R U entries policy.allowed) ∧
      optionalHeader R header "OriginCheck(require_header=...)" = .ok policy.header := by
  obtain ⟨allowed, ha, h⟩ := bind_eq_ok.mp h
  obtain ⟨kept, hk, h⟩ := bind_eq_ok.mp h
  cases h
  exact ⟨validatedOrigins_ok ha, hk⟩

theorem signedDoubleSubmit_init_ok {secret : SecretSetting} {origins : Origins} {header : Setting}
    {policy : SignedDoubleSubmit} (h : SignedDoubleSubmit.init R U secret origins header = .ok policy) :
    (∃ entries, origins = .sequence entries ∧ Canonicalized R U entries policy.allowed) ∧
      validatedHeader R header "SignedDoubleSubmit(header=...)" = .ok policy.header := by
  obtain ⟨shared, -, h⟩ := bind_eq_ok.mp h
  obtain ⟨allowed, ha, h⟩ := bind_eq_ok.mp h
  obtain ⟨kept, hk, h⟩ := bind_eq_ok.mp h
  cases h
  exact ⟨validatedOrigins_ok ha, hk⟩

theorem same_settings {secret : SecretSetting} {origins : Origins} {header : Setting}
    {strict : SignedDoubleSubmit} {lax : OriginCheck}
    (hs : SignedDoubleSubmit.init R U secret origins header = .ok strict)
    (hl : OriginCheck.init R U origins (some header) = .ok lax) :
    lax.allowed = strict.allowed ∧ lax.header = some strict.header := by
  obtain ⟨⟨entries, rfl, hstrict⟩, hkept⟩ := signedDoubleSubmit_init_ok hs
  obtain ⟨⟨entries', he, hlax⟩, hoptional⟩ := originCheck_init_ok hl
  cases he
  obtain ⟨name, hn⟩ := optionalHeader_isSome hoptional
  obtain ⟨given, hg, hname, -⟩ := optionalHeader_ok hoptional name hn
  obtain ⟨⟨given', hg', hname'⟩, -⟩ := validatedHeader_ok hkept
  cases hg'
  cases hg
  exact ⟨hlax.unique hstrict, by rw [hn, ← hname, hname']⟩

theorem presented_exists : (∃ presented,
      presentedHeader R (CsrfFacts.fromConnection connection other) name = .ok presented) ↔
    wantedHeader other = some (String.ofList name) ∧ Carries connection name := by
  simp only [presented_iff, exists_and_left]
  rfl

theorem checked_ok {rules : Except Exn Unit} :
    (if requiresCheck (CsrfFacts.fromConnection connection other) = true then rules else pure ()) =
      .ok () ↔ Safe connection ∨ rules = .ok () := by
  by_cases hr : requiresCheck (CsrfFacts.fromConnection connection other) = true
  · have hs : ¬ Safe connection := by
      intro h
      rw [requiresCheck_eq_false.mpr h] at hr
      cases hr
    rw [if_pos hr, or_iff_right hs]
  · have hs := requiresCheck_eq_false.mp (eq_false_of_ne_true hr)
    rw [if_neg hr]
    exact iff_of_true rfl (.inl hs)

theorem discard_presented :
    discard (presentedHeader R (CsrfFacts.fromConnection connection other) name) = .ok () ↔
      wantedHeader other = some (String.ofList name) ∧ Carries connection name := by
  rw [← presented_exists (R := R)]
  cases presentedHeader R (CsrfFacts.fromConnection connection other) name with
  | ok presented => exact iff_of_true rfl ⟨presented, rfl⟩
  | error e =>
    refine iff_of_false (fun h => ?_) fun h => ?_
    · cases h
    · obtain ⟨presented, h⟩ := h
      cases h

/-- What `OriginCheck` lets through, of the facts captured for any policy. -/
theorem originCheck_passes {policy : OriginCheck} (hblank : ∀ o ∈ policy.allowed, blank o = false)
    (other : CsrfPolicy) (connection : Connection) (token : Text) :
    Passes (policy.toPolicy R) (CsrfFacts.fromConnection connection other) token ↔
      Safe connection ∨ (FromAllowed policy.allowed connection ∧ ∀ name, policy.header = some name →
        wantedHeader other = some (String.ofList name) ∧ Carries connection name) := by
  rw [Passes, OriginCheck.toPolicy, answerOf_none, OriginCheck.check, checked_ok]
  refine or_congr_right ?_
  rw [bind_eq_ok, Unique.exists_iff, ← allowed_iff other hblank]
  refine and_congr_right fun _ => ?_
  cases policy.header with
  | none => simp
  | some name => simp only [discard_presented, Option.some.injEq, forall_eq']

theorem not_isSpace_digitChar {n : Nat} (h : n < 16) : isSpace (Nat.digitChar n) = false := by
  have hall : ∀ n : Fin 16, isSpace (Nat.digitChar n) = false := by decide
  exact hall ⟨n, h⟩

theorem digest_not_blank (secret : SharedSecret) (token : Text) :
    blank (digest R secret token) = false := by
  have hlen := (R.hmacSha256 (encodeUtf8 secret.value)
    (encodeUtf8 csrfDomainLabel ++ encodeUtf8 token)).prop
  rw [digest]
  cases hb : (R.hmacSha256 (encodeUtf8 secret.value)
      (encodeUtf8 csrfDomainLabel ++ encodeUtf8 token)).val with
  | nil => simp [hb] at hlen
  | cons b bs =>
    have hlt := b.toNat_lt
    have hn : isSpace (Nat.digitChar (b.toNat / 16)) = false := not_isSpace_digitChar (by omega)
    simp [blank, hexByte, hn]

/-- What `SignedDoubleSubmit` lets through, of the facts captured for any policy. -/
theorem signedDoubleSubmit_passes {policy : SignedDoubleSubmit}
    (hblank : ∀ o ∈ policy.allowed, blank o = false) (other : CsrfPolicy) (connection : Connection)
    (token : Text) :
    Passes (policy.toPolicy R) (CsrfFacts.fromConnection connection other) token ↔
      Safe connection ∨ (FromAllowed policy.allowed connection ∧
        wantedHeader other = some (String.ofList policy.header) ∧
        connection.getHeader (String.ofList policy.header) = some (policy.tokenFor R token)) := by
  rw [Passes, SignedDoubleSubmit.toPolicy, answerOf_none, SignedDoubleSubmit.check, checked_ok]
  refine or_congr_right ?_
  rw [bind_eq_ok, Unique.exists_iff, ← allowed_iff other hblank]
  refine and_congr_right fun _ => ?_
  simp only [bind_eq_ok, presented_iff, rejectForgedToken_ok]
  constructor
  · rintro ⟨presented, ⟨hw, hv, -⟩, rfl⟩
    exact ⟨hw, hv⟩
  · rintro ⟨hw, hv⟩
    exact ⟨_, ⟨hw, hv, digest_not_blank _ _⟩, rfl⟩

def fromHex : Text → Option Bytes
  | [] => some []
  | a :: b :: rest =>
    match hexDigit a, hexDigit b, fromHex rest with
    | some high, some low, some bs => some (UInt8.ofNat (16 * high + low) :: bs)
    | _, _, _ => none
  | _ => none

theorem hexDigit_digitChar {n : Nat} (h : n < 16) : hexDigit (Nat.digitChar n) = some n := by
  have hall : ∀ n : Fin 16, hexDigit (Nat.digitChar n) = some n.val := by decide
  exact hall ⟨n, h⟩

theorem fromHex_hex (bs : Bytes) : fromHex (bs.flatMap hexByte) = some bs := by
  induction bs with
  | nil => rfl
  | cons b bs ih =>
    have hb := b.toNat_lt
    have hhigh : hexDigit (Nat.digitChar (b.toNat / 16)) = some (b.toNat / 16) :=
      hexDigit_digitChar (by omega)
    have hlow : hexDigit (Nat.digitChar (b.toNat % 16)) = some (b.toNat % 16) :=
      hexDigit_digitChar (by omega)
    have hsum : 16 * (b.toNat / 16) + b.toNat % 16 = b.toNat := by omega
    rw [List.flatMap_cons, hexByte, List.cons_append, List.cons_append, List.nil_append, fromHex,
      hhigh, hlow, ih]
    simp only [hsum, UInt8.ofNat_toNat]

theorem hex_injective {bs cs : Bytes} (h : bs.flatMap hexByte = cs.flatMap hexByte) : bs = cs := by
  have hf := congrArg fromHex h
  simpa only [fromHex_hex, Option.some.injEq] using hf

theorem digest_inj {secret : SharedSecret} {token token' : Text} :
    digest R secret token = digest R secret token' ↔
      R.hmacSha256 (encodeUtf8 secret.value) (encodeUtf8 csrfDomainLabel ++ encodeUtf8 token) =
        R.hmacSha256 (encodeUtf8 secret.value)
          (encodeUtf8 csrfDomainLabel ++ encodeUtf8 token') := by
  constructor
  · exact fun h => Subtype.ext (hex_injective h)
  · intro h
    rw [digest, digest, h]

/-- The shipped policies accept exactly their set, and the stricter one refines the other. -/
structure Exact (R : Runtime) (U : UrlLibrary) : Prop where
  originCheck : ∀ origins header policy, OriginCheck.init R U origins header = .ok policy →
    (∃ entries, origins = .sequence entries ∧ Canonicalized R U entries policy.allowed) ∧
    ∀ connection token,
      Passes (policy.toPolicy R) (CsrfFacts.fromConnection connection (policy.toPolicy R)) token ↔
        Safe connection ∨ (FromAllowed policy.allowed connection ∧
          ∀ name, policy.header = some name → Carries connection name)
  signedDoubleSubmit : ∀ secret origins header policy,
    SignedDoubleSubmit.init R U secret origins header = .ok policy →
    (∃ entries, origins = .sequence entries ∧ Canonicalized R U entries policy.allowed) ∧
    ∀ connection token,
      Passes (policy.toPolicy R) (CsrfFacts.fromConnection connection (policy.toPolicy R)) token ↔
        Safe connection ∨ (FromAllowed policy.allowed connection ∧
          connection.getHeader (String.ofList policy.header) = some (policy.tokenFor R token))
  refines : ∀ secret origins header strict lax,
    SignedDoubleSubmit.init R U secret origins header = .ok strict →
    OriginCheck.init R U origins (some header) = .ok lax → ∀ connection token token',
    Passes (strict.toPolicy R) (CsrfFacts.fromConnection connection (strict.toPolicy R)) token →
    Passes (lax.toPolicy R) (CsrfFacts.fromConnection connection (lax.toPolicy R)) token'
  misdirected : ∀ origins header policy name, OriginCheck.init R U origins header = .ok policy →
    policy.header = some name → ∀ other connection token,
    wantedHeader other ≠ some (String.ofList name) → ¬ Safe connection →
    ¬ Passes (policy.toPolicy R) (CsrfFacts.fromConnection connection other) token
  misdirectedToken : ∀ secret origins header policy,
    SignedDoubleSubmit.init R U secret origins header = .ok policy → ∀ other connection token,
    wantedHeader other ≠ some (String.ofList policy.header) → ¬ Safe connection →
    ¬ Passes (policy.toPolicy R) (CsrfFacts.fromConnection connection other) token
  bound : ∀ secret origins header policy,
    SignedDoubleSubmit.init R U secret origins header = .ok policy → ∀ connection token token',
    R.hmacSha256 (encodeUtf8 policy.secret.value)
        (encodeUtf8 csrfDomainLabel ++ encodeUtf8 token) ≠
      R.hmacSha256 (encodeUtf8 policy.secret.value)
        (encodeUtf8 csrfDomainLabel ++ encodeUtf8 token') →
    connection.getHeader (String.ofList policy.header) = some (policy.tokenFor R token) →
    ¬ Safe connection →
    ¬ Passes (policy.toPolicy R) (CsrfFacts.fromConnection connection (policy.toPolicy R)) token'

theorem originCheck_iff {origins : Origins} {header : Option Setting} {policy : OriginCheck}
    (h : OriginCheck.init R U origins header = .ok policy) (token : Text) :
    Passes (policy.toPolicy R) (CsrfFacts.fromConnection connection (policy.toPolicy R)) token ↔
      Safe connection ∨ (FromAllowed policy.allowed connection ∧
        ∀ name, policy.header = some name → Carries connection name) := by
  obtain ⟨⟨entries, -, horigins⟩, hheader⟩ := originCheck_init_ok h
  rw [originCheck_passes horigins.not_blank]
  refine or_congr_right (and_congr_right fun _ => forall₂_congr fun name hn => ?_)
  obtain ⟨given, -, -, hc⟩ := optionalHeader_ok hheader name hn
  refine and_iff_right (hc.wanted ?_)
  simp [OriginCheck.toPolicy, hn]

theorem signedDoubleSubmit_iff {secret : SecretSetting} {origins : Origins} {header : Setting}
    {policy : SignedDoubleSubmit} (h : SignedDoubleSubmit.init R U secret origins header = .ok policy)
    (token : Text) :
    Passes (policy.toPolicy R) (CsrfFacts.fromConnection connection (policy.toPolicy R)) token ↔
      Safe connection ∨ (FromAllowed policy.allowed connection ∧
        connection.getHeader (String.ofList policy.header) = some (policy.tokenFor R token)) := by
  obtain ⟨⟨entries, -, horigins⟩, hheader⟩ := signedDoubleSubmit_init_ok h
  rw [signedDoubleSubmit_passes horigins.not_blank]
  refine or_congr_right (and_congr_right fun _ => and_iff_right ?_)
  exact (validatedHeader_ok hheader).2.wanted rfl

theorem policies_exact (R : Runtime) (U : UrlLibrary) : Exact R U where
  originCheck origins header policy h :=
    ⟨(originCheck_init_ok h).1, fun connection token => originCheck_iff h token⟩
  signedDoubleSubmit secret origins header policy h :=
    ⟨(signedDoubleSubmit_init_ok h).1, fun connection token => signedDoubleSubmit_iff h token⟩
  refines secret origins header strict lax hs hl connection token token' hp := by
    have hsame := same_settings hs hl
    rw [originCheck_iff hl, hsame.1, hsame.2]
    rw [signedDoubleSubmit_iff hs] at hp
    refine hp.imp_right fun ⟨ho, hv⟩ => ⟨ho, fun name hn => ?_⟩
    cases hn
    exact ⟨_, hv, digest_not_blank _ _⟩
  misdirected origins header policy name h hn other connection token hw hs hp := by
    obtain ⟨⟨entries, -, horigins⟩, -⟩ := originCheck_init_ok h
    rw [originCheck_passes horigins.not_blank, or_iff_right hs] at hp
    exact hw (hp.2 name hn).1
  misdirectedToken secret origins header policy h other connection token hw hs hp := by
    obtain ⟨⟨entries, -, horigins⟩, -⟩ := signedDoubleSubmit_init_ok h
    rw [signedDoubleSubmit_passes horigins.not_blank, or_iff_right hs] at hp
    exact hw hp.2.1
  bound secret origins header policy h connection token token' hne hv hs hp := by
    rw [signedDoubleSubmit_iff h, or_iff_right hs, hv] at hp
    exact hne (digest_inj.mp (Option.some.inj hp.2))

end BetterAuthBridge.CsrfAcceptance
