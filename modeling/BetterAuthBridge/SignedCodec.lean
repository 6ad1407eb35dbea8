import BetterAuthBridge.Signing
import Mathlib.Data.List.SplitBy

namespace BetterAuthBridge.SignedCodec

open Library Library.Text Values Errors Models CookieParsing Signing

variable {R : Runtime} {secrets secrets' : List SharedSecret} {material token t : Text}

def verdict (R : Runtime) (secrets : List SharedSecret) (material : Text) : Except Exn Text := do
  let parsed ← parseSignedValue R material
  verifySignature R secrets parsed.token parsed.signature (fingerprint R parsed.token)
  return parsed.token

/-- The characters a percent-encoder leaves as they are: some of ASCII, never `%`. -/
structure Unreserved where
  keeps : Char → Bool
  plain : ∀ c, keeps c = true → isAscii c = true ∧ c ≠ '%'

def hexUpper (n : Nat) : Char := (Nat.digitChar n).toUpper

def percent (b : UInt8) : Text := ['%', hexUpper (b.toNat / 16), hexUpper (b.toNat % 16)]

def quoted (unreserved : Unreserved) (t : Text) : Text :=
  t.flatMap fun c => if unreserved.keeps c then [c] else (String.utf8EncodeChar c).flatMap percent

def signed (R : Runtime) (secret : SharedSecret) (token : Text) : Text :=
  token ++ '.' :: expected R secret token

theorem hexDigit_hexUpper {n : Nat} (h : n < 16) : hexDigit (hexUpper n) = some n := by
  have hall : ∀ n : Fin 16, hexDigit (hexUpper n) = some n.val := by decide
  exact hall ⟨n, h⟩

theorem isAscii_hexUpper {n : Nat} (h : n < 16) : isAscii (hexUpper n) = true := by
  have hall : ∀ n : Fin 16, isAscii (hexUpper n) = true := by decide
  exact hall ⟨n, h⟩

theorem unquoteToBytes_percent (b : UInt8) (rest : Text) :
    unquoteToBytes (percent b ++ rest) = b :: unquoteToBytes rest := by
  have hb := b.toNat_lt
  have hhigh : hexDigit (hexUpper (b.toNat / 16)) = some (b.toNat / 16) :=
    hexDigit_hexUpper (by omega)
  have hlow : hexDigit (hexUpper (b.toNat % 16)) = some (b.toNat % 16) :=
    hexDigit_hexUpper (by omega)
  have hsum : 16 * (b.toNat / 16) + b.toNat % 16 = b.toNat := by omega
  simp only [percent, List.cons_append, List.nil_append, unquoteToBytes, hhigh, hlow, hsum,
    UInt8.ofNat_toNat]

theorem unquoteToBytes_percents (bs : Bytes) (rest : Text) :
    unquoteToBytes (bs.flatMap percent ++ rest) = bs ++ unquoteToBytes rest := by
  induction bs with
  | nil => rfl
  | cons b bs ih =>
    rw [List.flatMap_cons, List.append_assoc, unquoteToBytes_percent, ih, List.cons_append]

theorem unquoteToBytes_cons {c : Char} (h : c ≠ '%') (rest : Text) :
    unquoteToBytes (c :: rest) = UInt8.ofNat c.toNat :: unquoteToBytes rest := by
  rw [unquoteToBytes]
  rintro a b rest' rfl
  exact (h rfl).elim

theorem utf8EncodeChar_ascii {c : Char} (h : isAscii c = true) :
    String.utf8EncodeChar c = [UInt8.ofNat c.toNat] := by
  have hlt : c.toNat < 128 := of_decide_eq_true h
  have hle : c.toNat ≤ 127 := by omega
  simp [String.utf8EncodeChar, hle]

theorem unquoteToBytes_quoted (unreserved : Unreserved) (t : Text) :
    unquoteToBytes (quoted unreserved t) = encodeUtf8 t := by
  induction t with
  | nil => rfl
  | cons c t ih =>
    rw [quoted, List.flatMap_cons, encodeUtf8, List.flatMap_cons]
    by_cases hk : unreserved.keeps c = true
    · obtain ⟨ha, hp⟩ := unreserved.plain c hk
      rw [if_pos hk, List.singleton_append, unquoteToBytes_cons hp, utf8EncodeChar_ascii ha]
      exact congrArg (_ :: ·) ih
    · rw [if_neg hk, unquoteToBytes_percents]
      exact congrArg (_ ++ ·) ih

theorem isAscii_of_mem_quoted {unreserved : Unreserved} {c : Char} (h : c ∈ quoted unreserved t) :
    isAscii c = true := by
  obtain ⟨d, -, hc⟩ := List.mem_flatMap.mp h
  by_cases hk : unreserved.keeps d = true
  · rw [if_pos hk, List.mem_singleton] at hc
    exact hc ▸ (unreserved.plain d hk).1
  · rw [if_neg hk] at hc
    obtain ⟨b, -, hb⟩ := List.mem_flatMap.mp hc
    have hlt := b.toNat_lt
    simp only [percent, List.mem_cons, List.not_mem_nil, or_false] at hb
    obtain rfl | rfl | rfl := hb
    · decide
    · exact isAscii_hexUpper (by omega)
    · exact isAscii_hexUpper (by omega)

/-- An encoding without an escape is the text itself. -/
theorem quoted_eq_self {unreserved : Unreserved} (h : '%' ∉ quoted unreserved t) :
    quoted unreserved t = t := by
  induction t with
  | nil => rfl
  | cons c t ih =>
    rw [quoted, List.flatMap_cons, List.mem_append, not_or] at h
    rw [quoted, List.flatMap_cons]
    by_cases hk : unreserved.keeps c = true
    · rw [if_pos hk, List.singleton_append]
      exact congrArg (c :: ·) (ih h.2)
    · obtain ⟨b, bs, hb⟩ := List.exists_cons_of_ne_nil (String.utf8EncodeChar_ne_nil (c := c))
      refine (h.1 ?_).elim
      rw [if_neg hk, hb]
      simp [percent]

theorem unquotedStrictly_of_ascii (h : ∀ c ∈ t, isAscii c = true) (hp : '%' ∈ t) :
    unquotedStrictly t = decodeUtf8 (unquoteToBytes t) := by
  have hchain : t.IsChain fun a b => (isAscii a == isAscii b) = true := by
    refine List.Pairwise.isChain (List.pairwise_of_forall_mem_list ?_)
    intro a ha b hb
    rw [h a ha, h b hb]
    rfl
  have hone : t.splitBy (fun a b => isAscii a == isAscii b) = [t] :=
    List.splitBy_of_isChain (List.ne_nil_of_mem hp) hchain
  have hpart : unquotedPart t = decodeUtf8 (unquoteToBytes t) :=
    if_pos (List.all_eq_true.mpr h)
  rw [unquotedStrictly, if_pos hp, hone]
  cases hd : decodeUtf8 (unquoteToBytes t) <;>
    simp [hpart, hd]

/-- Percent-decoding undoes percent-encoding. -/
theorem unquotedStrictly_quoted (unreserved : Unreserved) (t : Text) :
    unquotedStrictly (quoted unreserved t) = some t := by
  by_cases hp : '%' ∈ quoted unreserved t
  · rw [unquotedStrictly_of_ascii (fun c => isAscii_of_mem_quoted) hp, unquoteToBytes_quoted,
      decodeUtf8_encodeUtf8]
  · rw [unquotedStrictly, if_neg hp, quoted_eq_self hp]

theorem verdict_ok : verdict R secrets material = .ok token ↔ Signed R secrets material token := by
  rw [← parsed_and_verified (fingerprint R token), verdict, bind_eq_ok]
  refine exists_congr fun parsed => and_congr_right fun _ => ?_
  rw [bind_eq_ok]
  constructor
  · rintro ⟨u, hv, ht⟩
    cases ht
    exact ⟨rfl, hv⟩
  · rintro ⟨rfl, hv⟩
    exact ⟨(), hv, rfl⟩

theorem verifySignature_congr (h : ∀ secret, secret ∈ secrets ↔ secret ∈ secrets')
    (token signature : Text) (marker : String) :
    verifySignature R secrets token signature marker =
      verifySignature R secrets' token signature marker := by
  have hany : (secrets.any fun secret => signature == expected R secret token) =
      secrets'.any fun secret => signature == expected R secret token := by
    rw [Bool.eq_iff_iff]
    simp only [List.any_eq_true, h]
  rw [verifySignature, verifySignature, foldl_or, foldl_or, hany]

structure Codec (R : Runtime) : Prop where
  accepts : ∀ secrets material token, verdict R secrets material = .ok token ↔
    material.length ≤ maxCookieBytes ∧ ∃ decoded signature,
      unquotedStrictly material = some decoded ∧ rcut '.' decoded = some (token, signature) ∧
      token ≠ [] ∧ ∃ secret ∈ secrets,
        signature = Base64.encode (R.hmacSha256 (encodeUtf8 secret.value) (encodeUtf8 token)).val
  roundTrip : ∀ (unreserved : Unreserved) (secrets : List SharedSecret), ∀ secret ∈ secrets,
    ∀ token, token ≠ [] →
    (quoted unreserved (signed R secret token)).length ≤ maxCookieBytes →
    verdict R secrets (quoted unreserved (signed R secret token)) = .ok token
  unordered : ∀ secrets secrets' : List SharedSecret,
    (∀ secret, secret ∈ secrets ↔ secret ∈ secrets') →
    ∀ material, verdict R secrets material = verdict R secrets' material
  monotone : ∀ secrets secrets' : List SharedSecret, secrets ⊆ secrets' → ∀ material token,
    verdict R secrets material = .ok token → verdict R secrets' material = .ok token

theorem codec (R : Runtime) : Codec R where
  accepts secrets material token := by
    rw [verdict_ok]
    constructor
    · rintro ⟨hlen, ht, secret, hs, hu⟩
      exact ⟨hlen, _, _, hu, rcut_append token (Base64.dot_not_mem_encode _), ht, secret, hs, rfl⟩
    · rintro ⟨hlen, decoded, signature, hu, hr, ht, secret, hs, rfl⟩
      exact ⟨hlen, ht, secret, hs, by rw [hu, (rcut_eq_some.mp hr).1]; rfl⟩
  roundTrip unreserved secrets secret hs token ht hlen :=
    verdict_ok.mpr ⟨hlen, ht, secret, hs, unquotedStrictly_quoted unreserved _⟩
  unordered secrets secrets' h material := by
    simp only [verdict, verifySignature_congr h]
  monotone secrets secrets' h material token hv := by
    obtain ⟨hlen, ht, secret, hs, hu⟩ := verdict_ok.mp hv
    exact verdict_ok.mpr ⟨hlen, ht, secret, h hs, hu⟩

end BetterAuthBridge.SignedCodec
