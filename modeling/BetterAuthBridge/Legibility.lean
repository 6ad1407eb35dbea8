import BetterAuthBridge.Library.Spelling
import BetterAuthBridge.RemoteOutcomes

namespace BetterAuthBridge.Legibility

open Library.Spelling Library.Failure Values Errors Models Csrf CsrfPolicies CookieParsing Signing
open SessionDocument RemoteResponse RemoteOutcomes

variable {υ α : Type} {A : Alphabet} {R : Runtime} {exc : Exn} {reason marker : String}

def said : Exn → String
  | .betterAuth _ _ message _ => message
  | .session _ _ reason _ => reason
  | _ => ""

/-- What an exception may put on a line of a log is written in the alphabet. -/
structure Legible (A : Alphabet) (exc : Exn) : Prop where
  className : A.Spells exc.className
  said : A.Spells (said exc)

abbrev Legibly (A : Alphabet) (x : Except Exn α) : Prop := Fails (Legible A) x

/-- What a transport raises is legible; of what it answers nothing is said. -/
def Raising (A : Alphabet) (answer : Answer) : Prop :=
  ∀ exc, answer = .raised exc → Legible A exc

theorem Raising.response (response : TransportResponse) : Raising A (.response response) := by
  intro exc h
  cases h

theorem configurationError_legible (h : A.Spells reason) : Legible A (configurationError reason) :=
  ⟨.literal (by decide), h⟩

theorem invalidCredential_legible (h : A.Spells reason) : Legible A (invalidCredential reason) :=
  ⟨.literal (by decide), h⟩

theorem sessionExpired_legible (h : A.Spells reason) : Legible A (sessionExpired reason) :=
  ⟨.literal (by decide), h⟩

theorem sessionRevoked_legible (h : A.Spells reason) : Legible A (sessionRevoked reason) :=
  ⟨.literal (by decide), h⟩

theorem authServiceUnavailable_legible (h : A.Spells reason) :
    Legible A (authServiceUnavailable reason) :=
  ⟨.literal (by decide), h⟩

theorem csrfFailure_legible (h : A.Spells reason) : Legible A (csrfFailure reason) :=
  ⟨.literal (by decide), h⟩

section Texts

variable {allowed : Char → Bool} {cap : Nat}

theorem redacted_spelled : A.Spells redacted := .literal (by decide)

/-- Text from outside is verbatim where every character of it is allowed, and nowhere else. -/
theorem sanitized_spelled (h : ∀ c, allowed c = true → printable c = true) (value : Str) :
    A.Spells (sanitized allowed cap value) := by
  unfold sanitized
  cases encodable value with
  | none => exact redacted_spelled
  | some t =>
    dsimp only
    split
    · rename_i hm
      rw [fullmatch, Bool.and_eq_true, List.all_eq_true] at hm
      exact .ofList fun c hc => A.plain c (h c (hm.2 c hc))
    · exact redacted_spelled

theorem printable_of_allowed (hascii : ∀ c, allowed c = true → isAscii c = true)
    (h : ∀ n : Fin 128, allowed (Char.ofNat n) = true → printable (Char.ofNat n) = true) (c : Char)
    (hc : allowed c = true) : printable c = true :=
  forall_ascii (P := fun c => allowed c = true → printable c = true) h (hascii c hc) hc

theorem labelChar_printable : ∀ c, labelChar c = true → printable c = true :=
  printable_of_allowed (fun _ h => (Bool.and_eq_true_iff.mp h).1) (by decide)

theorem locationChar_printable : ∀ c, locationChar c = true → printable c = true :=
  printable_of_allowed (fun _ h => (Bool.and_eq_true_iff.mp h).1) (by decide)

theorem originChar_printable : ∀ c, originChar c = true → printable c = true :=
  printable_of_allowed (fun _ h => (Bool.and_eq_true_iff.mp h).1) (by decide)

theorem safeLabel_spelled (value : Str) : A.Spells (safeLabel value) :=
  sanitized_spelled labelChar_printable value

theorem safeOrigin_spelled (value : Text) : A.Spells (safeOrigin value) :=
  sanitized_spelled originChar_printable (ofText value)

theorem hexByte_printable (b : UInt8) : ∀ c ∈ hexByte b, printable c = true := by
  have hdigit : ∀ n : Fin 16, printable (Nat.digitChar n) = true := by decide
  have hb : b.toNat < 256 := b.toNat_lt
  intro c hc
  simp only [hexByte, List.mem_cons, List.not_mem_nil, or_false] at hc
  obtain rfl | rfl := hc
  · exact hdigit ⟨b.toNat / 16, by omega⟩
  · exact hdigit ⟨b.toNat % 16, by omega⟩

theorem fingerprint_spelled (R : Runtime) (credential : Text) :
    A.Spells (fingerprint R credential) := by
  refine .append (.literal (by decide)) (.ofList fun c hc => ?_)
  obtain ⟨b, -, hb⟩ := List.mem_flatMap.mp (List.mem_of_mem_take hc)
  exact A.plain c (hexByte_printable b c hb)

end Texts

section Users

variable {userModel : UserModel υ} {record : StoredSession} {stored : StoredUser} {now : Readings}

/-- A user model is legible in what is its own: its name, the types of its errors, and what its own
validation raises. -/
structure Reporting (A : Alphabet) (userModel : UserModel υ) : Prop where
  name : A.Spells userModel.name
  types : ∀ payload errors, userModel.modelValidate payload = .invalid errors →
    ∀ error ∈ errors, A.Spells error.type
  raised : ∀ payload exc, userModel.modelValidate payload = .raised exc → Legible A exc

theorem Reporting.of_valid (hname : A.Spells userModel.name)
    (h : ∀ payload, ∃ user, userModel.modelValidate payload = .valid user) :
    Reporting A userModel := by
  refine ⟨hname, fun payload errors hi => ?_, fun payload exc hr => ?_⟩
  · obtain ⟨user, hv⟩ := h payload
    cases hv.symm.trans hi
  · obtain ⟨user, hv⟩ := h payload
    cases hv.symm.trans hr

theorem render_spelled (part : LocPart) : A.Spells part.render := by
  cases part with
  | index n => exact .int n
  | key s => exact sanitized_spelled locationChar_printable s

theorem error_spelled {error : ErrorDetails} (h : A.Spells error.type) : A.Spells error.render := by
  refine .append (.append (.append ?_ (.literal (by decide))) h) (.literal (by decide))
  unfold ErrorDetails.location
  dsimp only
  split
  · exact .literal (by decide)
  · refine .intercalate (.literal (by decide)) fun t ht => ?_
    obtain ⟨part, -, rfl⟩ := List.mem_map.mp ht
    exact render_spelled part

/-- Of a payload, a path and the kind of an error are said, and nothing more. -/
theorem summarize_spelled {errors : List ErrorDetails} (hname : A.Spells userModel.name)
    (h : ∀ error ∈ errors, A.Spells error.type) : A.Spells (summarize userModel errors) := by
  have hrendered : ∀ t ∈ (errors.take maxReportedErrors).map ErrorDetails.render, A.Spells t := by
    intro t ht
    obtain ⟨error, he, rfl⟩ := List.mem_map.mp ht
    exact error_spelled (h error (List.mem_of_mem_take he))
  unfold summarize
  dsimp only
  refine .take (.append (.append (.append (.append hname (.literal (by decide))) (.nat _))
    (.literal (by decide))) (.intercalate (.literal (by decide)) fun t ht => ?_)) maxReasonLength
  split at ht
  · obtain ht | ht := List.mem_append.mp ht
    · exact hrendered t ht
    · rw [List.mem_singleton.mp ht]
      exact .append (.append (.literal (by decide)) (.nat _)) (.literal (by decide))
  · exact hrendered t ht

theorem parseUser_legible (h : Reporting A userModel) (payload : Payload) :
    Legibly A (parseUser userModel payload) := by
  unfold parseUser
  cases hv : userModel.modelValidate payload with
  | valid user => exact .ok user
  | invalid errors =>
    exact .error (invalidCredential_legible (summarize_spelled h.name (h.types payload errors hv)))
  | raised exc => exact .error (h.raised payload exc hv)

theorem expiryChecked_legible {named : String} (hn : A.Spells named) (hm : A.Spells marker) :
    Legibly A (expiryChecked named record now marker) := by
  refine .ite (.error (sessionExpired_legible ?_)) (.ok _)
  exact .append (.append (.append hn (.literal (by decide))) hm) (.literal (by decide))

theorem banChecked_legible (hm : A.Spells marker) : Legibly A (banChecked stored now marker) :=
  .ite (.error (sessionRevoked_legible (.framed (by decide) hm (by decide)))) (.ok _)

theorem sessionBuilt_legible (h : Reporting A userModel) (token : Text) :
    Legibly A (sessionBuilt record stored token userModel) :=
  (parseUser_legible h stored.payload).bind fun _ _ => .ok _

end Users

section Cookies

variable {base : Text}

theorem reassembled_legible (h : A.Spells (R.repr base)) (chunks : List (Nat × Text)) :
    Legibly A (reassembled R chunks base) := by
  unfold reassembled
  refine .ite (.error (invalidCredential_legible ?_)) (.ite (.error (invalidCredential_legible ?_))
    (.ok _))
  · exact .append (.framed (by decide) h (by decide)) (.literal (by decide))
  · exact .append (.append (.framed (by decide) h (by decide)) (.nat _)) (.literal (by decide))

theorem valueForBase_legible (h : A.Spells (R.repr base)) (pairs : List Pair) :
    Legibly A (valueForBase R pairs base) := by
  unfold valueForBase
  split
  · exact .ok _
  · exact .error (invalidCredential_legible (.framed (by decide) h (by decide)))
  · exact .ite (.error (invalidCredential_legible (.framed (by decide) h (by decide)))) (.ok _)
  · exact (reassembled_legible h _).map some

theorem resolveNamedCookie_legible (h : A.Spells (R.repr base)) (pairs : List Pair) :
    Legibly A (resolveNamedCookie R pairs base) := by
  refine (valueForBase_legible h pairs).bind fun found _ => ?_
  cases found with
  | none => exact .error (invalidCredential_legible (.literal (by decide)))
  | some value => exact .ok _

theorem parseSignedValue_legible (material : Text) : Legibly A (parseSignedValue R material) := by
  have hm := fingerprint_spelled (A := A) R material
  unfold parseSignedValue
  refine .ite (.error (invalidCredential_legible ?_)) ?_
  · exact .append (.append (.framed (by decide) (.nat _) (by decide)) hm) (.literal (by decide))
  cases unquotedStrictly material with
  | none => exact .error (invalidCredential_legible (.framed (by decide) hm (by decide)))
  | some decoded =>
    dsimp only
    cases Library.Text.rcut '.' decoded with
    | none => exact .error (invalidCredential_legible (.framed (by decide) hm (by decide)))
    | some r =>
      refine .ite (.error (invalidCredential_legible (.framed (by decide) hm (by decide)))) ?_
      refine .ite (.error (invalidCredential_legible ?_)) ?_
      · exact .append (.append (.append (.append (.framed (by decide) (.nat _) (by decide))
          (.nat _)) (.literal (by decide))) hm) (.literal (by decide))
      cases standardBase64 r.2 with
      | none => exact .error (invalidCredential_legible (.framed (by decide) hm (by decide)))
      | some digest =>
        refine .ite (.error (invalidCredential_legible ?_)) (.ok _)
        exact .append (.append (.framed (by decide) (.nat _) (by decide)) hm) (.literal (by decide))

theorem verifySignature_legible {secrets : List SharedSecret} {token signature : Text}
    (hm : A.Spells marker) : Legibly A (verifySignature R secrets token signature marker) := by
  unfold verifySignature
  refine .ite (.ite (.ok _) (.error (invalidCredential_legible ?_))) (.error ⟨?_, ?_⟩)
  · exact .framed (by decide) hm (by decide)
  · exact .literal (by decide)
  · exact .literal (by decide)

end Cookies

section Policies

variable {policy : CsrfPolicy} {facts : CsrfFacts} {name : Text}

theorem rejectBadOrigin_legible (allowed : List Bytes) :
    Legibly A (rejectBadOrigin facts allowed) := by
  have hnone : Legible A noOrigin := csrfFailure_legible
    (.append (.append (.literal (by decide)) (.literal (by decide))) (.literal (by decide)))
  unfold rejectBadOrigin
  refine .ite (.error (csrfFailure_legible ?_)) ?_
  · exact .append (.literal (by decide)) (.literal (by decide))
  cases facts.origin with
  | none => exact .error hnone
  | some origin =>
    refine .ite (.error hnone) (.ite (.error (csrfFailure_legible (.literal (by decide)))) ?_)
    refine .ite (.ok _) (.error (csrfFailure_legible ?_))
    exact .framed (by decide) (safeOrigin_spelled origin) (by decide)

theorem presentedHeader_legible (h : A.Spells (R.repr name)) :
    Legibly A (presentedHeader R facts name) := by
  have habsent : Legible A (csrfFailure s!"the required {R.repr name} header is absent or blank") :=
    csrfFailure_legible (.framed (by decide) h (by decide))
  have hcaptured : A.Spells (facts.headerName.elim redacted fun header =>
      safeLabel (ofString header)) := by
    cases facts.headerName with
    | none => exact redacted_spelled
    | some header => exact safeLabel_spelled (ofString header)
  unfold presentedHeader
  refine .ite (.error (csrfFailure_legible ?_)) ?_
  · exact .append (.framed (by decide) hcaptured (by decide)) (.framed (by decide) h (by decide))
  cases facts.headerValue with
  | none => exact .error habsent
  | some value => exact .ite (.error habsent) (.ok _)

theorem rejectForgedToken_legible {secret : SharedSecret} {token presented : Text}
    (h : A.Spells (R.repr name)) : Legibly A (rejectForgedToken R secret token presented name) := by
  refine .ite (.ok _) (.error (csrfFailure_legible ?_))
  exact .append (.framed (by decide) h (by decide))
    (.append (.literal (by decide)) (fingerprint_spelled R token))

theorem enforcePolicy_legible (h : Shipped R policy)
    (hn : ∀ header, policy.requiredHeader = some header → A.Spells (R.repr header.toList))
    (facts : CsrfFacts) (token : Text) : Legibly A (enforcePolicy policy facts token) := by
  cases h with
  | originCheck policy =>
    rw [OriginCheck.toPolicy, enforcePolicy_answerOf]
    unfold OriginCheck.check
    refine .ite ((rejectBadOrigin_legible _).bind fun _ _ => ?_) (.ok _)
    cases hp : policy.header with
    | none => exact .ok _
    | some name =>
      have hname := hn (String.ofList name) (by rw [OriginCheck.toPolicy, hp]; rfl)
      rw [String.toList_ofList] at hname
      exact (presentedHeader_legible hname).map _
  | signedDoubleSubmit policy =>
    have hname := hn (String.ofList policy.header) rfl
    rw [String.toList_ofList] at hname
    rw [SignedDoubleSubmit.toPolicy, enforcePolicy_answerOf]
    unfold SignedDoubleSubmit.check
    refine .ite ((rejectBadOrigin_legible _).bind fun _ _ => ?_) (.ok _)
    exact (presentedHeader_legible hname).bind fun _ _ => rejectForgedToken_legible hname
  | csrfDisabled policy => exact .ok _

end Policies

end BetterAuthBridge.Legibility
