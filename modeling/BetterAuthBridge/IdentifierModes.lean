import BetterAuthBridge.ReadersAgree

namespace BetterAuthBridge.IdentifierModes

open Values SessionDocument Models SqlStore SqlReading ReadersAgree

variable {R : Runtime} {plan : Plan} {row : Row} {document session owner : Payload}
  {token id : Text} {value : Value}

/-- A joined row with this value for both identifiers, which is well formed otherwise. -/
structure RowCarries (R : Runtime) (plan : Plan) (row : Row) (token : Text) (value : Value) :
    Prop where
  sessionCells : ∀ name ∈ plan.sessionColumns, ∃ v, row.lookup (sessionPrefix ++ name) = some v
  userCells : ∀ name ∈ plan.userColumns, ∃ v, row.lookup (userPrefix ++ name) = some v
  userId : cell row plan.sessionColumns sessionPrefix "userId" = value
  ownerId : cell row plan.userColumns userPrefix "id" = value
  expiresAt : asMoment R (cell row plan.sessionColumns sessionPrefix "expiresAt") ≠ none
  token : asText (cell row plan.sessionColumns sessionPrefix "token") = some token
  banned : Readable (cell row plan.userColumns userPrefix "banned")

structure DocumentCarries (R : Runtime) (document session owner : Payload) (value : Value) :
    Prop where
  sessionObject : document.get "session" = .dict session
  userObject : document.get "user" = .dict owner
  userId : session.get "userId" = value
  ownerId : owner.get "id" = value
  expiresAt : asMoment R (session.get "expiresAt") ≠ none
  token : asText (session.get "token") ≠ none
  banned : (owner.get "banned").isNone = true ∨ asFlag (owner.get "banned") ≠ none
  banExpires : (owner.get "banExpires").isNone = true ∨ asMoment R (owner.get "banExpires") ≠ none

def Names (record : StoredSession) (id : Text) : Prop :=
  record.userId = id ∧ record.user.map StoredUser.id = some id

/-- All three readers come to a record of the one user. -/
structure ReadAs (R : Runtime) (plan : Plan) (row : Row) (document : Payload) (token id : Text) :
    Prop where
  session : ∃ record, sessionFrom R [row] plan token = .ok (some record) ∧ Names record id
  user : ∃ user, userFrom R [row] plan id true = .ok (some user) ∧ user.id = id
  document : ∃ record, parseSessionDocument R document = some record ∧ Names record id

theorem user_reads (subject : Text) (checkIdentity : Bool)
    (h : RowCarries R plan row token value) (hs : checkIdentity = true → id = subject) :
    (∃ user, userFrom R [row] plan subject checkIdentity = .ok (some user) ∧ user.id = id) ↔
      asText value = some id := by
  constructor
  · rintro ⟨user, hu, rfl⟩
    obtain ⟨row', q, identifier, hr, -, hid, -, -, rfl⟩ := userFrom_ok.mp hu
    cases hr
    rw [h.ownerId] at hid
    exact hid
  · intro hv
    obtain ⟨q, hq⟩ := payload_ok (R := R) h.userCells
    have hid : asText (cell row plan.userColumns userPrefix "id") = some id := by
      rw [h.ownerId]
      exact hv
    exact ⟨_, userFrom_ok.mpr ⟨row, q, id, rfl, hq, hid, hs, h.banned, rfl⟩, rfl⟩

theorem session_reads (h : RowCarries R plan row token value) :
    (∃ record, sessionFrom R [row] plan token = .ok (some record) ∧ Names record id) ↔
      asText value = some id := by
  constructor
  · rintro ⟨record, hr, hid, -⟩
    obtain ⟨row', p, user, expiresAt, userId, he, -, -, -, hu, -, rfl⟩ := sessionFrom_ok.mp hr
    cases he
    rw [h.userId] at hu
    rw [hu, ← hid]
  · intro hv
    obtain ⟨p, hp⟩ := payload_ok (R := R) h.sessionCells
    obtain ⟨user, hu, hid⟩ := (user_reads token false h (by intro hf; cases hf)).mpr hv
    obtain ⟨expiresAt, he⟩ := Option.ne_none_iff_exists'.mp h.expiresAt
    have huser : asText (cell row plan.sessionColumns sessionPrefix "userId") = some id := by
      rw [h.userId]
      exact hv
    refine ⟨_, sessionFrom_ok.mpr ⟨row, p, user, expiresAt, id, rfl, hp, hu, he, huser, h.token,
      rfl⟩, rfl, ?_⟩
    exact congrArg some hid

theorem document_reads (h : DocumentCarries R document session owner value) :
    (∃ record, parseSessionDocument R document = some record ∧ Names record id) ↔
      asText value = some id := by
  constructor
  · rintro ⟨record, hr, hid, -⟩
    obtain ⟨payload, stored, hs, -, expiresAt, userId, token, user, -, hu, -, -, rfl⟩ :=
      (parseSessionDocument_eq_some R).mp hr
    rw [h.sessionObject] at hs
    cases hs
    rw [h.userId] at hu
    rw [hu, ← hid]
  · intro hv
    obtain ⟨expiresAt, he⟩ := Option.ne_none_iff_exists'.mp h.expiresAt
    obtain ⟨token, ht⟩ := Option.ne_none_iff_exists'.mp h.token
    have huser : asText (session.get "userId") = some id := by
      rw [h.userId]
      exact hv
    have howner : asText (owner.get "id") = some id := by
      rw [h.ownerId]
      exact hv
    have hstored := (parseStoredUser_eq_some R).mpr ⟨id, howner, h.banned, h.banExpires, rfl⟩
    exact ⟨_, (parseSessionDocument_eq_some R).mpr ⟨session, owner, h.sessionObject, h.userObject,
      expiresAt, id, token, _, he, huser, ht, hstored, rfl⟩, rfl, rfl⟩

/-- Of the identifiers `User` accepts, the readers know the strings. -/
theorem asText_of_accepted (hv : validateUserId value = some id) :
    asText value = some id ↔ ∃ s, value = .str s := by
  constructor
  · intro ht
    exact ⟨ofText id, (asText_eq_some.mp ht).1⟩
  · rintro ⟨s, rfl⟩
    change (encodable s).bind _ = some id at hv
    obtain ⟨t, ht, hu⟩ := Option.bind_eq_some_iff.mp hv
    split at hu
    · rename_i husable
      cases hu
      have hb : blank id = false := by
        have hn := husable.2.2
        rw [usableId, Bool.and_eq_true, Bool.not_eq_true'] at hn
        exact hn.1
      rw [encodable_eq_some.mp ht]
      exact asText_eq_some.mpr ⟨rfl, hb⟩
    · cases hu

theorem readAs_iff_str (hv : validateUserId value = some id)
    (hr : RowCarries R plan row token value) (hd : DocumentCarries R document session owner value) :
    ReadAs R plan row document token id ↔ ∃ s, value = .str s := by
  rw [← asText_of_accepted hv]
  constructor
  · intro h
    exact (session_reads hr).mp h.session
  · intro h
    exact ⟨(session_reads hr).mpr h, (user_reads id true hr (by intro _; rfl)).mpr h,
      (document_reads hd).mpr h⟩

section Sample

def sampleFields (value : Value) : Fields where
  session := Function.update sampleSession "userId".toList value
  user := Function.update (sampleOwner .none) "id".toList value

def sampleRow (value : Value) : Row := ReadersAgree.row samplePlan (sampleFields value)

def sampleSessionObject (value : Value) : Payload :=
  object samplePlan.sessionColumns (sampleFields value).session

def sampleUserObject (value : Value) : Payload :=
  object samplePlan.userColumns (sampleFields value).user

theorem sampleRow_carries (value : Value) : RowCarries RemoteSoundness.sampleRuntime
    samplePlan (sampleRow value) "tok1".toList value where
  sessionCells name hn := ⟨_, by rw [sampleRow, row_session, if_pos hn]⟩
  userCells name hn := ⟨_, by rw [sampleRow, row_user, if_pos hn]⟩
  userId := rfl
  ownerId := rfl
  expiresAt h := by cases h
  token := rfl
  banned := .inr (by intro h; cases h)

theorem sampleDocument_carries (value : Value) : DocumentCarries RemoteSoundness.sampleRuntime
    (ReadersAgree.document samplePlan (sampleFields value)) (sampleSessionObject value)
    (sampleUserObject value) value where
  sessionObject := rfl
  userObject := rfl
  userId := rfl
  ownerId := rfl
  expiresAt h := by cases h
  token h := by cases h
  banned := .inr (by intro h; cases h)
  banExpires := .inl rfl

end Sample

theorem readAs_iff_str_sample :
    ReadAs RemoteSoundness.sampleRuntime samplePlan (sampleRow (.str (ofString "7")))
      (ReadersAgree.document samplePlan (sampleFields (.str (ofString "7")))) "tok1".toList
      "7".toList ↔ ∃ s, Value.str (ofString "7") = .str s :=
  readAs_iff_str (by decide) (sampleRow_carries _) (sampleDocument_carries _)

/-- The integer 7 is a user's identifier, and no reader knows it for one. -/
theorem integer_identifier_missed : ¬ ∀ (R : Runtime) (plan : Plan) (row : Row)
    (document session owner : Payload) (token id : Text) (value : Value),
    validateUserId value = some id → RowCarries R plan row token value →
    DocumentCarries R document session owner value → ReadAs R plan row document token id := by
  intro h
  have hread := h RemoteSoundness.sampleRuntime samplePlan (sampleRow (.int 7)) _ _ _
    "tok1".toList "7".toList (.int 7) (by decide) (sampleRow_carries _) (sampleDocument_carries _)
  have ht := (document_reads (sampleDocument_carries (.int 7))).mp hread.document
  cases ht

end BetterAuthBridge.IdentifierModes
