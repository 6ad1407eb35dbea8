import BetterAuthBridge.CookieParsing

namespace BetterAuthBridge.Signing

open Library Library.Text Values Errors Models CookieParsing

variable (R : Runtime)

structure SharedSecret where
  value : Text

/-- `base64.b64encode` of the HMAC that upstream signs a token with. -/
def expected (secret : SharedSecret) (token : Text) : Text :=
  Base64.encode (R.hmacSha256 (encodeUtf8 secret.value) (encodeUtf8 token)).val

def verifySignature (secrets : List SharedSecret) (token signature : Text) (marker : String) :
    Except Exn Unit :=
  if signature.all isAscii then
    if secrets.foldl (fun matched secret => matched || signature == expected R secret token) false
    then pure ()
    else throw (invalidCredential s!"signature verifies against no configured secret [{marker}]")
  else throw (.other "UnicodeEncodeError")

variable {R} {secrets : List SharedSecret} {material token signature : Text} {marker : String}

theorem expected_length (secret : SharedSecret) (token : Text) :
    (expected R secret token).length = signatureLength := by
  rw [expected, Base64.length_encode, (R.hmacSha256 _ _).prop]
  rfl

theorem expected_isAscii (secret : SharedSecret) (token : Text) :
    (expected R secret token).all isAscii = true := by
  rw [List.all_eq_true]
  intro c hc
  exact decide_eq_true (Base64.ascii_of_mem_encode hc)

theorem verifySignature_ok {u : Unit} :
    verifySignature R secrets token signature marker = .ok u ↔
      ∃ secret ∈ secrets, signature = expected R secret token := by
  have hany : (secrets.any fun secret => signature == expected R secret token) = true ↔
      ∃ secret ∈ secrets, signature = expected R secret token := by
    simp [List.any_eq_true]
  rw [← hany, verifySignature, foldl_or, Bool.false_or]
  by_cases hm : (secrets.any fun secret => signature == expected R secret token) = true
  · obtain ⟨secret, -, he⟩ := hany.mp hm
    have ha : signature.all isAscii = true := he ▸ expected_isAscii secret token
    simp [ha, hm]
  · refine iff_of_false ?_ hm
    by_cases ha : signature.all isAscii = true
    · simp [ha, hm]
    · simp [ha]

theorem parseSignedValue_ok :
    parseSignedValue R material = .ok ⟨token, signature⟩ ↔
      material.length ≤ maxCookieBytes ∧
        (unquotedStrictly material).bind (rcut '.') = some (token, signature) ∧ token ≠ [] ∧
        signature.length = signatureLength ∧
        ∃ digest, standardBase64 signature = some digest ∧ digest.length = hmacBytes := by
  constructor
  · intro h
    simp only [parseSignedValue, throw_eq_error, pure_eq_ok] at h
    by_cases hlen : maxCookieBytes < material.length
    · simp [hlen] at h
    cases hu : unquotedStrictly material with
    | none => simp [hlen, hu] at h
    | some decoded =>
      cases hr : rcut '.' decoded with
      | none => simp [hlen, hu, hr] at h
      | some r =>
        by_cases ht : r.1 = []
        · simp [hlen, hu, hr, ht] at h
        by_cases hs : r.2.length = signatureLength
        · cases hd : standardBase64 r.2 with
          | none => simp [hlen, hu, hr, ht, hs, hd] at h
          | some digest =>
            by_cases hl : digest.length = hmacBytes
            · simp only [hlen, hu, hr, ht, hs, hd, hl, ne_eq, not_true, if_false, Except.ok.injEq,
                ParsedCookie.mk.injEq] at h
              obtain ⟨rfl, rfl⟩ := h
              exact ⟨not_lt.mp hlen, hr, ht, hs, digest, hd, hl⟩
            · simp [hlen, hu, hr, ht, hs, hd, hl] at h
        · simp [hlen, hu, hr, ht, hs] at h
  · rintro ⟨hlen, hr, ht, hs, digest, hd, hl⟩
    obtain ⟨decoded, hu, hr⟩ := Option.bind_eq_some_iff.mp hr
    simp [parseSignedValue, not_lt.mpr hlen, hu, hr, ht, hs, hd, hl]

def Signed (R : Runtime) (secrets : List SharedSecret) (material token : Text) : Prop :=
  material.length ≤ maxCookieBytes ∧ token ≠ [] ∧
    ∃ secret ∈ secrets, unquotedStrictly material = some (token ++ '.' :: expected R secret token)

theorem parsed_and_verified (marker : String) :
    (∃ parsed, parseSignedValue R material = .ok parsed ∧ parsed.token = token ∧
        verifySignature R secrets parsed.token parsed.signature marker = .ok ()) ↔
      Signed R secrets material token := by
  constructor
  · rintro ⟨parsed, hp, rfl, hv⟩
    obtain ⟨hlen, hr, ht, -, -⟩ := parseSignedValue_ok.mp hp
    obtain ⟨decoded, hu, hd⟩ := Option.bind_eq_some_iff.mp hr
    obtain ⟨secret, hs, he⟩ := verifySignature_ok.mp hv
    exact ⟨hlen, ht, secret, hs, by rw [hu, (rcut_eq_some.mp hd).1, he]⟩
  · rintro ⟨hlen, ht, secret, hs, hu⟩
    refine ⟨⟨token, expected R secret token⟩, parseSignedValue_ok.mpr ⟨hlen, ?_, ht,
      expected_length secret token, _, Base64.decode_encode _, (R.hmacSha256 _ _).prop⟩, rfl,
      verifySignature_ok.mpr ⟨secret, hs, rfl⟩⟩
    rw [hu]
    exact rcut_append token (Base64.dot_not_mem_encode _)

def tokenOf (R : Runtime) (names : CookieNames) (snapshot : Snapshot) : Option Text :=
  match resolveCookieValue R snapshot.pairs names.base with
  | .ok material => ((unquotedStrictly material).bind (rcut '.')).map Prod.fst
  | .error _ => none

theorem tokenOf_eq {names : CookieNames} {snapshot : Snapshot}
    (hm : resolveCookieValue R snapshot.pairs names.base = .ok material)
    (hcut : (unquotedStrictly material).bind (rcut '.') = some (token, signature)) :
    tokenOf R names snapshot = some token := by
  rw [tokenOf, hm]
  dsimp only
  rw [hcut]
  rfl

theorem Signed.cut (h : Signed R secrets material token) : ∃ signature,
    (unquotedStrictly material).bind (rcut '.') = some (token, signature) ∧
      signature.length = signatureLength := by
  obtain ⟨-, -, secret, -, hu⟩ := h
  refine ⟨expected R secret token, ?_, expected_length secret token⟩
  rw [hu]
  exact rcut_append token (Base64.dot_not_mem_encode _)

end BetterAuthBridge.Signing
