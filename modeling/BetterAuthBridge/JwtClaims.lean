import BetterAuthBridge.JwtSelection

namespace BetterAuthBridge.JwtClaims

open Library.Floats Values Errors Models JwksDocument JwtVerifier JwtSelection

variable {κ υ : Type}

def Shown (now : ℚ) : Prop := datetimeRange.1 ≤ now ∧ now ≤ datetimeRange.2 + 1

/-- PyJWT keeps to the clock in what it decodes for a verifier: no token of the future, and none
that has expired, beyond the leeway and the rounding of a sum. -/
structure KeepsTime (v : Verifier κ) : Prop where
  issued : ∀ token key now claims iat, Shown now →
    v.jwt.decode (v.decoding token key) now = .ok claims → claims.get "iat" = .int iat →
    iat ≤ now + v.leeway.1 + 1
  unexpired : ∀ token key now claims exp, Shown now →
    v.jwt.decode (v.decoding token key) now = .ok claims → claims.get "exp" = .int exp →
    now - v.leeway.1 - 1 ≤ exp

def Identifies (claims : Payload) : Prop :=
  ∃ subject, claims.get "sub" = .str subject ∧ subject.blank = false

def Bounded (iat exp : ℤ) (ceiling : ℚ) : Prop := 0 < exp - iat ∧ ((exp - iat : ℤ) : ℚ) ≤ ceiling

def Representable (n : ℤ) : Prop := |n| < 2 ^ 1024 - 2 ^ 970

/-- A result of the claim checks as it should be: a `SessionError`, or a session that expires when
the token does, of an identified user whose token lives no longer than it may. -/
def Exact (claims : Payload) (iat exp : ℤ) (ceiling : ℚ) (userModel : UserModel υ) :
    Except Exn (Session υ) → Prop
  | .error exc => exc.isSession = true
  | .ok found => found.expiresAt = some ⟨exp * 10 ^ 6, 0⟩ ∧ Identifies claims ∧
      Bounded iat exp ceiling ∧ userModel.modelValidate (identified claims) = .valid found.user

def Parses (exp : ℤ) : Validation υ → Prop
  | .valid _ => within datetimeRange exp = true
  | .invalid _ => True
  | .raised exc => exc.isSession = true

def Checkable (claims : Payload) (iat exp : ℤ) (ceiling : ℚ) (userModel : UserModel υ) : Prop :=
  ¬ Identifies claims ∨ Representable iat ∧ Representable exp ∧
    (Bounded iat exp ceiling → Parses exp (userModel.modelValidate (identified claims)))

variable {claims : Payload} {iat exp n : ℤ} {ceiling : ℚ} {marker : String}
  {userModel : UserModel υ}

theorem checkSubject_ok {u : Unit} : checkSubject claims marker = .ok u ↔ Identifies claims := by
  rw [checkSubject, Identifies]
  cases claims.get "sub" with
  | str subject => by_cases hb : subject.blank = true <;> simp [hb]
  | _ => simp

theorem checkSubject_error {exc : Exn} (h : checkSubject claims marker = .error exc) :
    exc.isSession = true := by
  rw [checkSubject] at h
  cases hs : claims.get "sub" with
  | str subject =>
    by_cases hb : subject.blank = true
    · simp only [hs, hb, if_true, throw_eq_error, Except.error.injEq] at h
      rw [← h]
      rfl
    · simp [hs, hb] at h
  | _ =>
    simp only [hs, throw_eq_error, Except.error.injEq] at h
    rw [← h]
    rfl

theorem ofInt_isSome : (binary64.ofInt n).isSome = true ↔ Representable n := by
  rw [Representable, ← not_iff_not, Bool.not_eq_true, Option.isSome_eq_false_iff,
    Option.isNone_iff_eq_none, Format.ofInt_eq_none, not_lt]
  have htop : (2 : ℚ) ^ binary64.overflow = 2 ^ 1024 := zpow_natCast 2 1024
  have hhalf : (2 : ℚ) ^ (binary64.overflow - binary64.precision - 1) = 2 ^ 970 :=
    zpow_natCast 2 970
  have hbound : (2 : ℚ) ^ 1024 - 2 ^ 970 = ((2 ^ 1024 - 2 ^ 970 : ℤ) : ℚ) := by
    rw [Int.cast_sub, Int.cast_pow, Int.cast_pow, Int.cast_ofNat]
  rw [htop, hhalf, hbound, ← Int.cast_abs]
  exact Int.cast_le

theorem asNumber_int : (∃ number, binary64.ofInt n = some number ∧ Representable n ∧
      asNumber (.int n) = .ok (some number)) ∨
    ¬ Representable n ∧ asNumber (.int n) = .error (.other "OverflowError") := by
  rw [← ofInt_isSome]
  cases h : binary64.ofInt n with
  | some number => exact .inl ⟨number, rfl, rfl, by simp [asNumber, h]⟩
  | none => exact .inr ⟨by simp, by simp [asNumber, h]⟩

/-- The times of a token as their checks see them: as they are, or so far apart that they lie beyond
every ceiling. -/
theorem lifetime_of (hi : iat ≤ 2 ^ 52) (he : -2 ^ 52 ≤ exp) {issued expires : Number}
    (hissued : binary64.ofInt iat = some issued) (hexpires : binary64.ofInt exp = some expires) :
    ∃ m : ℤ, Number.sub binary64 expires issued = binary64.round m ∧
      (m = exp - iat ∧ expires = .finite exp ∨ 2 ^ 52 ≤ m ∧ 2 ^ 52 ≤ exp - iat) := by
  have hp : (2 : ℤ) ^ binary64.precision = 2 ^ 53 := rfl
  obtain ⟨i, rfl, hcase⟩ := Format.ofInt_eq_some hissued
  obtain ⟨k, rfl, hcase'⟩ := Format.ofInt_eq_some hexpires
  rw [hp] at hcase hcase'
  refine ⟨k - i, Number.sub_intCast binary64 k i, ?_⟩
  obtain ⟨hlt, rfl⟩ | ⟨hge, -⟩ | ⟨hle, hle'⟩ := hcase
  · rw [abs_lt] at hlt
    obtain ⟨-, rfl⟩ | ⟨hge, hge'⟩ | ⟨hle, -⟩ := hcase'
    · exact .inl ⟨rfl, rfl⟩
    · right
      omega
    · omega
  · omega
  · obtain ⟨hlt, rfl⟩ | ⟨hge, hge'⟩ | ⟨hle, -⟩ := hcase'
    · right
      omega
    · right
      omega
    · omega

theorem ceiling_lt (hmax : ceiling ≤ maxLifetime) (hn : 2 ^ 52 ≤ n) : ceiling < n := by
  have hcast : ((2 ^ 52 : ℤ) : ℚ) ≤ n := Int.cast_le.mpr hn
  have hover : maxLifetime < ((2 ^ 52 : ℤ) : ℚ) := by norm_num [maxLifetime]
  exact lt_of_le_of_lt hmax (lt_of_lt_of_le hover hcast)

theorem checkLifetime_numbers {issued expires : Number}
    (hi : asNumber (claims.get "iat") = .ok (some issued))
    (he : asNumber (claims.get "exp") = .ok (some expires)) :
    (∃ reason, checkLifetime claims ceiling marker = .error (invalidCredential reason) ∧
      ((Number.sub binary64 expires issued).le (.finite 0) = true ∨
        Number.lt (.finite ceiling) (Number.sub binary64 expires issued) = true)) ∨
    checkLifetime claims ceiling marker = .ok () ∧
      ¬ (Number.sub binary64 expires issued).le (.finite 0) = true ∧
      ¬ Number.lt (.finite ceiling) (Number.sub binary64 expires issued) = true := by
  simp only [checkLifetime, hi, he, ok_bind]
  by_cases hz : (Number.sub binary64 expires issued).le (.finite 0) = true
  · exact .inl ⟨_, if_pos hz, .inl hz⟩
  · rw [if_neg hz]
    by_cases hc : Number.lt (.finite ceiling) (Number.sub binary64 expires issued) = true
    · exact .inl ⟨_, if_pos hc, .inr hc⟩
    · exact .inr ⟨if_neg hc, hz, hc⟩

theorem checkLifetime_int (marker : String) (hi : claims.get "iat" = .int iat)
    (he : claims.get "exp" = .int exp) (hpast : iat ≤ 2 ^ 52) (hlate : -2 ^ 52 ≤ exp)
    (hpos : 0 ≤ ceiling) (hmax : ceiling ≤ maxLifetime) :
    (¬ (Representable iat ∧ Representable exp) ∧
      checkLifetime claims ceiling marker = .error (.other "OverflowError")) ∨
    (Representable iat ∧ Representable exp ∧ ¬ Bounded iat exp ceiling ∧
      ∃ reason, checkLifetime claims ceiling marker = .error (invalidCredential reason)) ∨
    (Representable iat ∧ Representable exp ∧ Bounded iat exp ceiling ∧
      asNumber (.int exp) = .ok (some (.finite exp)) ∧
      checkLifetime claims ceiling marker = .ok ()) := by
  obtain ⟨issued, hissued, hri, hni⟩ | ⟨hri, hni⟩ := asNumber_int (n := iat)
  · obtain ⟨expires, hexpires, hre, hne⟩ | ⟨hre, hne⟩ := asNumber_int (n := exp)
    · obtain ⟨m, hm, hcase⟩ := lifetime_of hpast hlate hissued hexpires
      have hsmall : ceiling < 2 ^ binary64.precision :=
        lt_of_le_of_lt hmax (by norm_num [maxLifetime, binary64])
      have hbounded : Bounded iat exp ceiling ↔ 0 < m ∧ (m : ℚ) ≤ ceiling := by
        obtain ⟨rfl, -⟩ | ⟨hfar, hfar'⟩ := hcase
        · rfl
        · exact iff_of_false (fun h => not_lt.mpr h.2 (ceiling_lt hmax hfar'))
            fun h => not_lt.mpr h.2 (ceiling_lt hmax hfar)
      rw [← hi] at hni
      rw [← he] at hne
      obtain ⟨reason, herr, hout⟩ | ⟨hok, hlow, hhigh⟩ := checkLifetime_numbers hni hne
      · rw [hm, Number.round_le_zero, Number.lt_round hpos hsmall] at hout
        refine .inr (.inl ⟨hri, hre, fun hb => ?_, reason, herr⟩)
        obtain ⟨hb1, hb2⟩ := hbounded.mp hb
        obtain hz | hc := hout
        · exact not_lt.mpr hz hb1
        · exact not_lt.mpr hb2 hc
      · rw [hm, Number.round_le_zero, not_le] at hlow
        rw [hm, Number.lt_round hpos hsmall, not_lt] at hhigh
        refine .inr (.inr ⟨hri, hre, hbounded.mpr ⟨hlow, hhigh⟩, ?_, hok⟩)
        obtain ⟨-, rfl⟩ | ⟨hfar, -⟩ := hcase
        · rwa [he] at hne
        · exact (not_lt.mpr hhigh (ceiling_lt hmax hfar)).elim
    · refine .inl ⟨fun h => hre h.2, ?_⟩
      simp only [checkLifetime, hi, he, hni, hne, ok_bind, error_bind]
  · refine .inl ⟨fun h => hri h.1, ?_⟩
    simp only [checkLifetime, hi, hni, error_bind]

theorem microseconds_intCast (n : ℤ) : microseconds n = n * 10 ^ 6 := by
  have hzero : roundEven 0 = 0 := by exact_mod_cast roundEven_intCast 0
  rw [microseconds, Int.ceil_intCast, Int.floor_intCast, ite_self, sub_self, zero_mul,
    Format.round_zero, Number.value, hzero, add_zero]

theorem within_of_within {narrow wide : Int × Int} (hlow : wide.1 ≤ narrow.1)
    (hhigh : narrow.2 ≤ wide.2) (h : within narrow n = true) : within wide n = true := by
  simp only [within, Bool.and_eq_true, decide_eq_true_eq] at h ⊢
  exact ⟨hlow.trans h.1, h.2.trans hhigh⟩

theorem fromtimestamp_finite (q : ℚ) : fromtimestamp (.finite q) =
    if within timeRange (microseconds q / 10 ^ 6) = false then throw (.other "OverflowError")
    else if within gmtimeRange (microseconds q / 10 ^ 6) = false then throw (.other "OSError")
    else if within datetimeRange (microseconds q / 10 ^ 6) = false then throw (.other "ValueError")
    else pure ⟨microseconds q, 0⟩ := rfl

theorem fromtimestamp_intCast (n : ℤ) :
    (within datetimeRange n = true ∧ fromtimestamp (.finite n) = .ok ⟨n * 10 ^ 6, 0⟩) ∨
    within datetimeRange n = false ∧ ∃ name, fromtimestamp (.finite n) = .error (.other name) := by
  have hseconds : n * 10 ^ 6 / 10 ^ 6 = n := Int.mul_ediv_cancel n (by norm_num)
  rw [fromtimestamp_finite, microseconds_intCast, hseconds]
  cases hd : within datetimeRange n with
  | true =>
    have htime : within timeRange n = true := within_of_within (by decide) (by decide) hd
    have hgm : within gmtimeRange n = true := within_of_within (by decide) (by decide) hd
    exact .inl ⟨rfl, by simp [htime, hgm]⟩
  | false =>
    refine .inr ⟨rfl, ?_⟩
    by_cases htime : within timeRange n = false
    · exact ⟨_, if_pos htime⟩
    · rw [if_neg htime]
      by_cases hgm : within gmtimeRange n = false
      · exact ⟨_, if_pos hgm⟩
      · exact ⟨_, if_neg hgm⟩

/-- What is made of claims whose times are in order. -/
theorem session_exact (he : claims.get "exp" = .int exp)
    (hexp : asNumber (.int exp) = .ok (some (.finite exp))) (hs : Identifies claims)
    (hb : Bounded iat exp ceiling) :
    Exact claims iat exp ceiling userModel (session claims userModel) ↔
      Parses exp (userModel.modelValidate (identified claims)) := by
  have hexpiry : expiry claims = fromtimestamp (.finite exp) := by
    simp only [expiry, he, hexp, ok_bind]
  rw [session, hexpiry, parseUser]
  cases hv : userModel.modelValidate (identified claims) with
  | valid user =>
    simp only [pure_eq_ok, ok_bind, Parses]
    obtain ⟨hin, ht⟩ | ⟨hout, name, ht⟩ := fromtimestamp_intCast exp
    · rw [ht, ok_bind]
      exact iff_of_true ⟨rfl, hs, hb, hv⟩ hin
    · rw [ht, error_bind, hout]
      exact iff_of_false Bool.false_ne_true Bool.false_ne_true
  | invalid errors => exact iff_of_true rfl trivial
  | raised exc => exact Iff.rfl

section Sample

def sampleKey : Jwk Unit := ⟨ofString "k1", ofString "EdDSA", (), []⟩

theorem sample_keepsTime (issued expires : Int) : KeepsTime (sampleVerifier issued expires) := by
  have shape : ∀ token key now claims,
      (sampleVerifier issued expires).jwt.decode
        ((sampleVerifier issued expires).decoding token key) now = .ok claims →
      claims = sampleClaims issued expires ∧ (issued : ℚ) ≤ now + 0 ∧ now - 0 < expires := by
    intro token key now claims h
    change (if token ≠ sampleToken then _ else if now + 0 < (issued : ℚ) then _
      else if (expires : ℚ) ≤ now - 0 then _ else _) = _ at h
    split at h
    · cases h
    · split at h
      · cases h
      · rename_i hi
        split at h
        · cases h
        · rename_i he
          cases h
          exact ⟨rfl, not_lt.mp hi, not_le.mp he⟩
  constructor
  · rintro token key now claims iat - hd hi
    obtain ⟨rfl, hle, -⟩ := shape token key now claims hd
    obtain rfl : issued = iat := Value.int.inj hi
    change (issued : ℚ) ≤ now + 0 + 1
    linarith
  · rintro token key now claims exp - hd he
    obtain ⟨rfl, -, hlt⟩ := shape token key now claims hd
    obtain rfl : expires = exp := Value.int.inj he
    change now - 0 - 1 ≤ (expires : ℚ)
    linarith

theorem sample_decoded {issued expires : Int} {now : ℚ} (hi : (issued : ℚ) ≤ now + 0)
    (he : now - 0 < expires) : (sampleVerifier issued expires).jwt.decode
      ((sampleVerifier issued expires).decoding sampleToken sampleKey) now =
        .ok (sampleClaims issued expires) := by
  simp only [sampleVerifier, sampleLibrary, Verifier.decoding, ne_eq, not_true, if_false,
    not_lt.mpr hi, not_le.mpr he]

end Sample

/-- The claim checks of the claims of a decode come to a `SessionError` or to the session that the
claims state, but for times that no `float` or `datetime` shows and for what a user model raises. -/
theorem checks_exact (v : Verifier κ) (hv : KeepsTime v) (token : Str) (key : Jwk κ) (now : ℚ)
    (claims : Payload) (iat exp : ℤ) (userModel : UserModel υ) (marker : String) (hnow : Shown now)
    (hd : v.jwt.decode (v.decoding token key) now = .ok claims) (hi : claims.get "iat" = .int iat)
    (he : claims.get "exp" = .int exp) :
    Exact claims iat exp v.maxTokenLifetime.1 userModel
        (checkedClaims claims v.maxTokenLifetime.1 userModel marker) ↔
      Checkable claims iat exp v.maxTokenLifetime.1 userModel := by
  have hissued := hv.issued token key now claims iat hnow hd hi
  have hunexpired := hv.unexpired token key now claims exp hnow hd he
  obtain ⟨hpos, hmax⟩ := v.maxTokenLifetime.2
  obtain ⟨hpast, hlate⟩ : iat ≤ 2 ^ 52 ∧ -2 ^ 52 ≤ exp := by
    obtain ⟨hlow, hhigh⟩ := hnow
    have hleeway := v.leeway.2.2
    simp only [datetimeRange, maxLeeway] at hlow hhigh hleeway
    push_cast at hlow hhigh
    constructor
    · have h : (iat : ℚ) ≤ ((2 ^ 52 : ℤ) : ℚ) := by
        push_cast
        linarith
      exact Int.cast_le.mp h
    · have h : ((-2 ^ 52 : ℤ) : ℚ) ≤ exp := by
        push_cast
        linarith
      exact Int.cast_le.mp h
  rw [checkedClaims]
  by_cases hs : Identifies claims
  · have hsubject : checkSubject claims marker = .ok () := checkSubject_ok.mpr hs
    rw [hsubject, ok_bind]
    obtain ⟨hr, hc⟩ | ⟨hri, hre, hb, reason, hc⟩ | ⟨hri, hre, hb, hexp, hc⟩ :=
      checkLifetime_int marker hi he hpast hlate hpos.le hmax
    · rw [hc, error_bind]
      refine iff_of_false nofun ?_
      rintro (hn | ⟨hri, hre, -⟩)
      · exact hn hs
      · exact hr ⟨hri, hre⟩
    · rw [hc, error_bind]
      exact iff_of_true rfl (.inr ⟨hri, hre, fun h => (hb h).elim⟩)
    · rw [hc, ok_bind, session_exact he hexp hs hb]
      constructor
      · exact fun h => .inr ⟨hri, hre, fun _ => h⟩
      · rintro (hn | ⟨-, -, h⟩)
        · exact (hn hs).elim
        · exact h hb
  · cases hc : checkSubject claims marker with
    | ok u => exact (hs (checkSubject_ok.mp hc)).elim
    | error exc =>
      rw [error_bind]
      exact iff_of_true (checkSubject_error hc) (.inl hs)

theorem checks_exact_sample : Exact (sampleClaims 1700000000 1700000900) 1700000000 1700000900 900
    sampleModel (checkedClaims (sampleClaims 1700000000 1700000900) 900 sampleModel "tok_fp=") := by
  have hi : Representable 1700000000 := by
    rw [Representable]
    decide +kernel
  have he : Representable 1700000900 := by
    rw [Representable]
    decide +kernel
  exact (checks_exact (sampleVerifier 1700000000 1700000900) (sample_keepsTime _ _) sampleToken
    sampleKey 1700000100 (sampleClaims 1700000000 1700000900) 1700000000 1700000900 sampleModel
    "tok_fp=" (by norm_num [Shown, datetimeRange]) (sample_decoded (by norm_num) (by norm_num)) rfl
    rfl).mpr (.inr ⟨hi, he, fun _ => rfl⟩)

/-- A token issued before every time that a `float` can hold is decoded, and its check raises what
is no `SessionError`. -/
theorem checks_escape : KeepsTime (sampleVerifier (-2 ^ 1024) 1700000900) ∧ Shown 1700000100 ∧
    (sampleVerifier (-2 ^ 1024) 1700000900).jwt.decode
      ((sampleVerifier (-2 ^ 1024) 1700000900).decoding sampleToken sampleKey) 1700000100 =
        .ok (sampleClaims (-2 ^ 1024) 1700000900) ∧
    checkedClaims (sampleClaims (-2 ^ 1024) 1700000900) 900 sampleModel "tok_fp=" =
      .error (.other "OverflowError") ∧
    ¬ Exact (sampleClaims (-2 ^ 1024) 1700000900) (-2 ^ 1024) 1700000900 900 sampleModel
      (checkedClaims (sampleClaims (-2 ^ 1024) 1700000900) 900 sampleModel "tok_fp=") := by
  have hlarge : ¬ Representable (-2 ^ 1024) := by
    rw [Representable, abs_neg, abs_of_pos (by positivity), not_lt]
    exact Int.sub_le_self _ (by positivity)
  have hpast : ((-2 ^ 1024 : ℤ) : ℚ) ≤ 1700000100 + 0 := by
    have hneg : (-2 ^ 1024 : ℤ) ≤ 0 := neg_nonpos.mpr (by positivity)
    have hcast : ((-2 ^ 1024 : ℤ) : ℚ) ≤ 0 := by exact_mod_cast hneg
    linarith
  have hraised : checkedClaims (sampleClaims (-2 ^ 1024) 1700000900) 900 sampleModel "tok_fp=" =
      .error (.other "OverflowError") := by
    have hsubject : checkSubject (sampleClaims (-2 ^ 1024) 1700000900) "tok_fp=" = .ok () :=
      checkSubject_ok.mpr ⟨ofString "u1", rfl, by decide⟩
    have hnumber : asNumber ((sampleClaims (-2 ^ 1024) 1700000900).get "iat") =
        .error (.other "OverflowError") := by
      obtain ⟨_, -, hr, -⟩ | ⟨-, hn⟩ := asNumber_int (n := -2 ^ 1024)
      · exact (hlarge hr).elim
      · exact hn
    rw [checkedClaims, hsubject, ok_bind, checkLifetime, hnumber]
    rfl
  refine ⟨sample_keepsTime _ _, by norm_num [Shown, datetimeRange],
    sample_decoded hpast (by norm_num), hraised, ?_⟩
  rw [hraised]
  exact Bool.false_ne_true

end BetterAuthBridge.JwtClaims
