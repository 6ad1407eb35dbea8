import BetterAuthBridge.SqlStore

namespace BetterAuthBridge.SqlReading

open Values Errors SessionDocument SqlStore

variable {R : Runtime} {row : Row} {rows : List Row} {columns : List Text} {pre : Text}
  {p : Payload} {plan : Plan} {subject token : Text} {checkIdentity : Bool} {user : StoredUser}
  {record : StoredSession}

def cell (row : Row) (columns : List Text) (pre : Text) (name : String) : Value :=
  if name.toList ∈ columns then (row.lookup (pre ++ name.toList)).getD .none else .none

theorem ofText_injective : Function.Injective ofText := by
  intro a b h
  have he := congrArg encodable h
  simpa only [encodable_ofText, Option.some.injEq] using he

theorem shown_none (name : Text) : shown R name .none = .none := by simp [shown, Value.isNone]

theorem shown_of_not_mem {name : Text} (h : name ∉ moments) (value : Value) :
    shown R name value = value := by simp [shown, h]

theorem asMoment_momentValue (m : Option Moment) : asMoment R (momentValue m) = m := by
  cases m <;> rfl

/-- Reading a moment twice is reading it once. -/
theorem asMoment_shown (name : Text) (value : Value) :
    asMoment R (shown R name value) = asMoment R value := by
  rw [shown]
  split
  · exact asMoment_momentValue _
  · rfl

theorem payload_cons {name : Text} :
    payload R row (name :: columns) pre = .ok p ↔ ∃ value rest,
      row.lookup (pre ++ name) = some value ∧ payload R row columns pre = .ok rest ∧
        p = (ofText name, shown R name value) :: rest := by
  simp only [payload, List.mapM_cons, bind_eq_ok, pure_eq_ok, Except.ok.injEq]
  constructor
  · rintro ⟨field, hf, rest, hr, rfl⟩
    cases hl : row.lookup (pre ++ name) with
    | none => simp [hl] at hf
    | some value =>
      simp only [hl, Except.ok.injEq] at hf
      exact ⟨value, rest, rfl, hr, by rw [hf]⟩
  · rintro ⟨value, rest, hl, hr, rfl⟩
    exact ⟨_, by rw [hl], rest, hr, rfl⟩

theorem payload_get (h : payload R row columns pre = .ok p) (name : String) :
    p.get name = shown R name.toList (cell row columns pre name) := by
  induction columns generalizing p with
  | nil =>
    cases h
    rw [cell, if_neg List.not_mem_nil, shown_none]
    rfl
  | cons column columns ih =>
    obtain ⟨value, rest, hl, hr, rfl⟩ := payload_cons.mp h
    by_cases hc : name.toList = column
    · subst hc
      simp [Payload.get, cell, ofString, hl]
    · have hne : ofText name.toList ≠ ofText column := ofText_injective.ne hc
      have hb : (ofText name.toList == ofText column) = false := beq_eq_false_iff_ne.mpr hne
      have hi := ih hr
      simp only [Payload.get, ofString, List.lookup_cons, hb] at hi ⊢
      rw [hi, cell, cell]
      simp [hc]

theorem normalized_get {banned : Option Bool} {name : String} (h : name ≠ "banned") :
    Payload.get (normalized banned p) name = p.get name := by
  have hne : (ofString name == ofString "banned") = false := by
    refine beq_eq_false_iff_ne.mpr fun he => h ?_
    exact String.toList_inj.mp (ofText_injective he)
  induction p with
  | nil => rfl
  | cons field p ih =>
    obtain ⟨key, value⟩ := field
    simp only [Payload.get, normalized, List.map_cons] at ih ⊢
    by_cases hk : key = ofString "banned"
    · simp only [hk, if_true, List.lookup_cons, hne]
      exact ih
    · simp only [hk, if_false, List.lookup_cons]
      split
      · rfl
      · exact ih

def userOf (R : Runtime) (row : Row) (columns : List Text) (p : Payload) (identifier : Text) :
    StoredUser where
  id := identifier
  payload := normalized (asDbFlag (cell row columns userPrefix "banned")) p
  banned := asDbFlag (cell row columns userPrefix "banned")
  banExpires := asMoment R (cell row columns userPrefix "banExpires")

def Readable (value : Value) : Prop := value.isNone = true ∨ asDbFlag value ≠ none

theorem only_eq_some : only rows = some row ↔ rows = [row] := by
  unfold only
  split <;> simp_all

theorem ne_of_only_none (h : only rows = none) (row : Row) : rows ≠ [row] := by
  intro hr
  rw [only_eq_some.mpr hr] at h
  cases h

theorem userFrom_ok : userFrom R rows plan subject checkIdentity = .ok (some user) ↔
    ∃ row p identifier, rows = [row] ∧ payload R row plan.userColumns userPrefix = .ok p ∧
      asText (cell row plan.userColumns userPrefix "id") = some identifier ∧
      (checkIdentity = true → identifier = subject) ∧
      Readable (cell row plan.userColumns userPrefix "banned") ∧
      user = userOf R row plan.userColumns p identifier := by
  rw [userFrom]
  cases ho : only rows with
  | none =>
    refine ⟨nofun, ?_⟩
    rintro ⟨row, p, identifier, hr, -⟩
    exact (ne_of_only_none ho row hr).elim
  | some row =>
    obtain rfl := only_eq_some.mp ho
    simp only [List.cons.injEq, and_true, exists_and_left, exists_eq_left', bind_eq_ok]
    refine exists_congr fun p => and_congr_right fun hp => ?_
    have hid : p.get "id" = cell row plan.userColumns userPrefix "id" :=
      (payload_get hp "id").trans (shown_of_not_mem (by decide) _)
    have hbanned : p.get "banned" = cell row plan.userColumns userPrefix "banned" :=
      (payload_get hp "banned").trans (shown_of_not_mem (by decide) _)
    have hexp : ∀ flag, asMoment R (Payload.get (normalized flag p) "banExpires") =
        asMoment R (cell row plan.userColumns userPrefix "banExpires") := fun flag => by
      rw [normalized_get (by decide), payload_get hp, asMoment_shown]
    simp only [hid, hbanned, hexp]
    cases asText (cell row plan.userColumns userPrefix "id") with
    | none => simp
    | some identifier =>
      simp only [encodeUtf8_injective.eq_iff, ne_eq, Option.some.injEq, exists_eq_left']
      by_cases hc : checkIdentity = true ∧ ¬ identifier = subject
      · rw [if_pos hc]
        exact ⟨nofun, fun h => (hc.2 (h.1 hc.1)).elim⟩
      · rw [if_neg hc]
        by_cases hf : (cell row plan.userColumns userPrefix "banned").isNone = false ∧
            asDbFlag (cell row plan.userColumns userPrefix "banned") = none
        · rw [if_pos hf]
          refine ⟨nofun, fun h => ?_⟩
          obtain hn | hn := h.2.1
          · rw [hf.1] at hn
            cases hn
          · exact (hn hf.2).elim
        · rw [if_neg hf]
          have hread : Readable (cell row plan.userColumns userPrefix "banned") := by
            rw [Readable]
            rw [not_and_or, Bool.not_eq_false] at hf
            exact hf
          simp only [pure_eq_ok, Except.ok.injEq, Option.some.injEq, hread, true_and]
          refine ⟨fun h => ⟨fun hi => ?_, h.symm⟩, fun h => h.2.symm⟩
          by_contra hn
          exact hc ⟨hi, hn⟩

theorem sessionFrom_ok : sessionFrom R rows plan token = .ok (some record) ↔
    ∃ row p user expiresAt userId, rows = [row] ∧
      payload R row plan.sessionColumns sessionPrefix = .ok p ∧
      userFrom R rows plan token false = .ok (some user) ∧
      asMoment R (cell row plan.sessionColumns sessionPrefix "expiresAt") = some expiresAt ∧
      asText (cell row plan.sessionColumns sessionPrefix "userId") = some userId ∧
      asText (cell row plan.sessionColumns sessionPrefix "token") = some token ∧
      record = ⟨token, userId, expiresAt, p, some user,
        asText (cell row plan.sessionColumns sessionPrefix "impersonatedBy")⟩ := by
  rw [sessionFrom]
  cases ho : only rows with
  | none =>
    refine ⟨nofun, ?_⟩
    rintro ⟨row, p, user, expiresAt, userId, hr, -⟩
    exact (ne_of_only_none ho row hr).elim
  | some row =>
    obtain rfl := only_eq_some.mp ho
    simp only [List.cons.injEq, and_true, exists_and_left, exists_eq_left', bind_eq_ok]
    refine exists_congr fun p => and_congr_right fun hp => ?_
    have hcell : ∀ name : String, name.toList ∉ moments →
        p.get name = cell row plan.sessionColumns sessionPrefix name := fun name hn =>
      (payload_get hp name).trans (shown_of_not_mem hn _)
    have hexp : asMoment R (p.get "expiresAt") =
        asMoment R (cell row plan.sessionColumns sessionPrefix "expiresAt") := by
      rw [payload_get hp, asMoment_shown]
    simp only [hcell "userId" (by decide), hcell "token" (by decide),
      hcell "impersonatedBy" (by decide), hexp]
    constructor
    · rintro ⟨found, hu, h⟩
      split at h
      · rename_i expiresAt userId storedToken user he hi ht
        split at h
        · cases h
        · rename_i hsame
          obtain rfl : storedToken = token := by
            simpa only [encodeUtf8_injective.eq_iff, ne_eq, not_not] using hsame
          simp only [pure_eq_ok, Except.ok.injEq, Option.some.injEq] at h
          exact ⟨user, hu, expiresAt, he, userId, hi, ht, h.symm⟩
      · cases h
    · rintro ⟨user, hu, expiresAt, he, userId, hi, ht, rfl⟩
      exact ⟨some user, hu, by simp [he, hi, ht]⟩

theorem userFrom_answers (hp : payload R row plan.userColumns userPrefix = .ok p) :
    ∃ found, userFrom R [row] plan subject checkIdentity = .ok found := by
  rw [userFrom, only_eq_some.mpr rfl]
  simp only [hp, ok_bind]
  split
  · exact ⟨none, rfl⟩
  · split
    · exact ⟨none, rfl⟩
    · split <;> exact ⟨_, rfl⟩

theorem sessionFrom_answers {q : Payload}
    (hp : payload R row plan.sessionColumns sessionPrefix = .ok p)
    (hq : payload R row plan.userColumns userPrefix = .ok q) :
    ∃ found, sessionFrom R [row] plan token = .ok found := by
  obtain ⟨user, hu⟩ : ∃ found, userFrom R [row] plan token false = .ok found := userFrom_answers hq
  rw [sessionFrom, only_eq_some.mpr rfl]
  simp only [hp, hu, ok_bind]
  split
  · split <;> exact ⟨_, rfl⟩
  · exact ⟨none, rfl⟩

end BetterAuthBridge.SqlReading
