import BetterAuthBridge.RemoteSoundness
import BetterAuthBridge.SqlReading

namespace BetterAuthBridge.ReadersAgree

open Values Errors SessionDocument SqlStore SqlReading

variable {R : Runtime} {plan : Plan} {token : Text}

structure Fields where
  session : Text → Value
  user : Text → Value

variable {fields : Fields}

def row (plan : Plan) (fields : Fields) : Row :=
  (plan.sessionColumns.map fun name => (sessionPrefix ++ name, fields.session name)) ++
    plan.userColumns.map fun name => (userPrefix ++ name, fields.user name)

def object (columns : List Text) (values : Text → Value) : Payload :=
  columns.map fun name => (ofText name, values name)

def document (plan : Plan) (fields : Fields) : Payload :=
  [(ofString "session", .dict (object plan.sessionColumns fields.session)),
    (ofString "user", .dict (object plan.userColumns fields.user))]

def held (columns : List Text) (values : Text → Value) (name : String) : Value :=
  if name.toList ∈ columns then values name.toList else .none

def sessionField (plan : Plan) (fields : Fields) : String → Value :=
  held plan.sessionColumns fields.session

def userField (plan : Plan) (fields : Fields) : String → Value := held plan.userColumns fields.user

/-- What two records of a session are compared on. -/
structure Essentials where
  token : Text
  userId : Text
  expiresAt : Moment
  impersonatedBy : Option Text
  user : Option (Text × Option Bool × Option Moment)

def essentials (record : StoredSession) : Essentials :=
  ⟨record.token, record.userId, record.expiresAt, record.impersonatedBy,
    record.user.map fun user => (user.id, user.banned, user.banExpires)⟩

/-- The readers read alike, a miss each or records that agree, as far as the building of a record
raises nothing. -/
def ReadAlike (R : Runtime) (plan : Plan) (fields : Fields) (token : Text) : Prop :=
  ∃ answer, sessionFrom R [row plan fields] plan token = .ok answer ∧
    answer.map essentials =
      (parseSessionDocument R (document plan fields)).map essentials

def FlagLegible (plan : Plan) (fields : Fields) : Prop :=
  (userField plan fields "banned").isNone = true ∨ asFlag (userField plan fields "banned") ≠ none

def Unusable (R : Runtime) (plan : Plan) (fields : Fields) : Prop :=
  asMoment R (sessionField plan fields "expiresAt") = none ∨
    asText (sessionField plan fields "userId") = none ∨
    asText (sessionField plan fields "token") = none ∨
    asText (userField plan fields "id") = none ∨ ¬ FlagLegible plan fields

def BanLegible (R : Runtime) (plan : Plan) (fields : Fields) : Prop :=
  (userField plan fields "banExpires").isNone = true ∨
    asMoment R (userField plan fields "banExpires") ≠ none

theorem lookup_columns {pre : Text} {columns : List Text} {values : Text → Value} {name : Text} :
    (columns.map fun column => (pre ++ column, values column)).lookup (pre ++ name) =
      if name ∈ columns then some (values name) else none := by
  induction columns with
  | nil => rfl
  | cons column columns ih =>
    rw [List.map_cons, List.lookup_cons]
    by_cases hc : name = column
    · simp [hc]
    · have hne : (pre ++ name == pre ++ column) = false :=
        beq_eq_false_iff_ne.mpr fun he => hc (List.append_cancel_left he)
      rw [hne, ih]
      simp [hc]

theorem lookup_other {pre pre' : Text} {columns : List Text} {values : Text → Value} {name : Text}
    (h : ∀ column, pre' ++ name ≠ pre ++ column) :
    (columns.map fun column => (pre ++ column, values column)).lookup (pre' ++ name) = none := by
  induction columns with
  | nil => rfl
  | cons column columns ih =>
    rw [List.map_cons, List.lookup_cons, beq_eq_false_iff_ne.mpr (h column)]
    exact ih

theorem row_session (name : Text) : (row plan fields).lookup (sessionPrefix ++ name) =
    if name ∈ plan.sessionColumns then some (fields.session name) else none := by
  have hother : ∀ column, sessionPrefix ++ name ≠ userPrefix ++ column := by
    intro column h
    exact absurd (List.cons.inj h).1 (by decide)
  rw [row, List.lookup_append, lookup_columns, lookup_other hother]
  split <;> rfl

theorem row_user (name : Text) : (row plan fields).lookup (userPrefix ++ name) =
    if name ∈ plan.userColumns then some (fields.user name) else none := by
  have hother : ∀ column, userPrefix ++ name ≠ sessionPrefix ++ column := by
    intro column h
    exact absurd (List.cons.inj h).1 (by decide)
  rw [row, List.lookup_append, lookup_other hother, lookup_columns, Option.none_or]

theorem cell_row_session (name : String) :
    cell (row plan fields) plan.sessionColumns sessionPrefix name =
      sessionField plan fields name := by
  rw [cell, row_session, sessionField, held]
  split <;> rfl

theorem cell_row_user (name : String) :
    cell (row plan fields) plan.userColumns userPrefix name = userField plan fields name := by
  rw [cell, row_user, userField, held]
  split <;> rfl

theorem object_get (columns : List Text) (values : Text → Value) (name : String) :
    (object columns values).get name = held columns values name := by
  induction columns with
  | nil => rfl
  | cons column columns ih =>
    rw [held] at ih ⊢
    simp only [Payload.get, object, List.map_cons, List.lookup_cons, ofString] at ih ⊢
    by_cases hc : name.toList = column
    · simp [hc]
    · have hne : (ofText name.toList == ofText column) = false :=
        beq_eq_false_iff_ne.mpr fun he => hc (ofText_injective he)
      rw [hne, ih]
      simp [hc]

theorem payload_ok {r : Row} {columns : List Text} {pre : Text}
    (h : ∀ name ∈ columns, ∃ value, r.lookup (pre ++ name) = some value) :
    ∃ p, payload R r columns pre = .ok p := by
  induction columns with
  | nil => exact ⟨[], rfl⟩
  | cons column columns ih =>
    obtain ⟨value, hv⟩ := h column List.mem_cons_self
    obtain ⟨p, hp⟩ := ih fun name hn => h name (List.mem_cons_of_mem _ hn)
    exact ⟨_, payload_cons.mpr ⟨value, p, hv, hp, rfl⟩⟩

/-- What a record of these fields comes to, whoever reads it. -/
structure Reads (R : Runtime) (plan : Plan) (fields : Fields) (e : Essentials) : Prop where
  expiresAt : asMoment R (sessionField plan fields "expiresAt") = some e.expiresAt
  userId : asText (sessionField plan fields "userId") = some e.userId
  token : asText (sessionField plan fields "token") = some e.token
  impersonatedBy : e.impersonatedBy = asText (sessionField plan fields "impersonatedBy")
  flag : FlagLegible plan fields
  user : ∃ id, asText (userField plan fields "id") = some id ∧ e.user = some (id,
    asFlag (userField plan fields "banned"), asMoment R (userField plan fields "banExpires"))

theorem exists_reads : (∃ e, Reads R plan fields e) ↔ ¬ Unusable R plan fields := by
  simp only [Unusable, not_or, not_not, ← ne_eq, Option.ne_none_iff_exists']
  constructor
  · rintro ⟨e, h⟩
    obtain ⟨id, hid, -⟩ := h.user
    exact ⟨⟨_, h.expiresAt⟩, ⟨_, h.userId⟩, ⟨_, h.token⟩, ⟨id, hid⟩, h.flag⟩
  · rintro ⟨⟨expiresAt, he⟩, ⟨userId, hu⟩, ⟨token, ht⟩, ⟨id, hid⟩, hf⟩
    exact ⟨⟨token, userId, expiresAt, _, _⟩, he, hu, ht, rfl, hf, id, hid, rfl⟩

theorem document_reads {e : Essentials} :
    (parseSessionDocument R (document plan fields)).map essentials = some e ↔
      Reads R plan fields e ∧ BanLegible R plan fields := by
  have hsession : Payload.get (document plan fields) "session" =
      .dict (object plan.sessionColumns fields.session) := rfl
  have huser : Payload.get (document plan fields) "user" =
      .dict (object plan.userColumns fields.user) := rfl
  simp only [Option.map_eq_some_iff, parseSessionDocument_eq_some, parseStoredUser_eq_some,
    hsession, huser, Value.dict.injEq]
  constructor
  · rintro ⟨-, ⟨payload, stored, rfl, rfl, expiresAt, userId, token, user, he, hi, ht,
      ⟨id, hid, hf, hb, rfl⟩, rfl⟩, rfl⟩
    simp only [object_get] at he hi ht hid hf hb
    refine ⟨⟨he, hi, ht, ?_, hf, id, hid, ?_⟩, hb⟩
    · exact congrArg asText (object_get _ _ _)
    · simp only [essentials, object_get, Option.map_some]
      rfl
  · rintro ⟨h, hb⟩
    obtain ⟨id, hid, hu⟩ := h.user
    refine ⟨_, ⟨_, _, rfl, rfl, e.expiresAt, e.userId, e.token, _, ?_, ?_, ?_,
      ⟨id, ?_, ?_, ?_, rfl⟩, rfl⟩, ?_⟩
    · rw [object_get]
      exact h.expiresAt
    · rw [object_get]
      exact h.userId
    · rw [object_get]
      exact h.token
    · rw [object_get]
      exact hid
    · rw [object_get]
      exact h.flag
    · rw [object_get]
      exact hb
    · obtain ⟨token, userId, expiresAt, impersonatedBy, user⟩ := e
      have hi := h.impersonatedBy
      dsimp only at hi hu
      simp only [essentials, object_get, Option.map_some, hi, hu]
      rfl

/-- Off the integers 0 and 1, the two readings of a flag are one. -/
theorem asDbFlag_eq_asFlag {value : Value} (h : ∀ n, value = .int n → n ≠ 0 ∧ n ≠ 1) :
    asDbFlag value = asFlag value := by
  cases value with
  | int n =>
    obtain ⟨h0, h1⟩ := h n rfl
    have hi0 : ¬ Value.int n = .int 0 := fun he => h0 (Value.int.inj he)
    have hi1 : ¬ Value.int n = .int 1 := fun he => h1 (Value.int.inj he)
    rw [asDbFlag]
    · rfl
    · nofun
    · exact hi0
    · exact hi1
  | _ => rfl

theorem row_user_some {user : StoredUser}
    (hflag : ∀ n, userField plan fields "banned" = .int n → n ≠ 0 ∧ n ≠ 1) :
    userFrom R [row plan fields] plan token false = .ok (some user) ↔ ∃ q identifier,
      payload R (row plan fields) plan.userColumns userPrefix = .ok q ∧
      asText (userField plan fields "id") = some identifier ∧ FlagLegible plan fields ∧
      user = ⟨identifier, normalized (asFlag (userField plan fields "banned")) q,
        asFlag (userField plan fields "banned"), asMoment R (userField plan fields "banExpires")⟩ := by
  have hread : Readable (userField plan fields "banned") ↔ FlagLegible plan fields := by
    rw [Readable, asDbFlag_eq_asFlag hflag, FlagLegible]
  rw [userFrom_ok]
  constructor
  · rintro ⟨r, q, identifier, hr, hq, hid, -, hf, rfl⟩
    cases hr
    rw [cell_row_user] at hid hf
    refine ⟨q, identifier, hq, hid, hread.mp hf, ?_⟩
    rw [userOf, cell_row_user, cell_row_user, asDbFlag_eq_asFlag hflag]
  · rintro ⟨q, identifier, hq, hid, hf, rfl⟩
    refine ⟨_, q, identifier, rfl, hq, ?_, ?_, ?_, ?_⟩
    · rw [cell_row_user]
      exact hid
    · intro h
      cases h
    · rw [cell_row_user]
      exact hread.mpr hf
    · rw [userOf, cell_row_user, cell_row_user, asDbFlag_eq_asFlag hflag]

theorem row_payloads : ∃ p q, payload R (row plan fields) plan.sessionColumns sessionPrefix = .ok p ∧
    payload R (row plan fields) plan.userColumns userPrefix = .ok q := by
  have hsession : ∀ name ∈ plan.sessionColumns, ∃ value,
      (row plan fields).lookup (sessionPrefix ++ name) = some value := fun name hn =>
    ⟨_, by rw [row_session, if_pos hn]⟩
  have huser : ∀ name ∈ plan.userColumns, ∃ value,
      (row plan fields).lookup (userPrefix ++ name) = some value := fun name hn =>
    ⟨_, by rw [row_user, if_pos hn]⟩
  obtain ⟨p, hp⟩ := payload_ok (R := R) hsession
  obtain ⟨q, hq⟩ := payload_ok (R := R) huser
  exact ⟨p, q, hp, hq⟩

theorem row_reads {e : Essentials} {answer : Option StoredSession}
    (hflag : ∀ n, userField plan fields "banned" = .int n → n ≠ 0 ∧ n ≠ 1)
    (htoken : sessionField plan fields "token" = .str (ofText token))
    (h : sessionFrom R [row plan fields] plan token = .ok answer) :
    answer.map essentials = some e ↔ Reads R plan fields e := by
  have hrecord : ∀ record, answer = some record ↔
      sessionFrom R [row plan fields] plan token = .ok (some record) := by
    intro record
    rw [h, Except.ok.injEq]
  simp only [Option.map_eq_some_iff, hrecord, sessionFrom_ok]
  constructor
  · rintro ⟨-, ⟨r, p, user, expiresAt, userId, hr, hp, hu, he, hi, ht, rfl⟩, rfl⟩
    cases hr
    obtain ⟨q, identifier, -, hid, hf, rfl⟩ := (row_user_some hflag).mp hu
    rw [cell_row_session] at he hi ht
    refine ⟨he, hi, ht, ?_, hf, identifier, hid, rfl⟩
    exact congrArg asText (cell_row_session _)
  · intro hr
    obtain ⟨id, hid, hu⟩ := hr.user
    obtain ⟨p, q, hp, hq⟩ : ∃ p q, payload R (row plan fields) plan.sessionColumns sessionPrefix =
        .ok p ∧ payload R (row plan fields) plan.userColumns userPrefix = .ok q := row_payloads
    obtain ⟨stored, userId, expiresAt, impersonatedBy, user⟩ := e
    have ht := hr.token
    have hi := hr.impersonatedBy
    dsimp only at ht hi hu
    obtain rfl : token = stored := by
      have hs := ht
      rw [htoken, asText, encodable_ofText] at hs
      split at hs
      · cases hs
      · exact Option.some.inj hs
    refine ⟨_, ⟨_, p, _, expiresAt, userId, rfl, hp,
      (row_user_some hflag).mpr ⟨q, id, hq, hid, hr.flag, rfl⟩, ?_, ?_, ?_, rfl⟩, ?_⟩
    · rw [cell_row_session]
      exact hr.expiresAt
    · rw [cell_row_session]
      exact hr.userId
    · rw [cell_row_session]
      exact ht
    · simp only [essentials, cell_row_session, Option.map_some, hi, hu]

theorem readAlike_iff
    (hflag : ∀ n, userField plan fields "banned" = .int n → n ≠ 0 ∧ n ≠ 1)
    (htoken : sessionField plan fields "token" = .str (ofText token)) :
    ReadAlike R plan fields token ↔ BanLegible R plan fields ∨ Unusable R plan fields := by
  obtain ⟨p, q, hp, hq⟩ : ∃ p q, payload R (row plan fields) plan.sessionColumns sessionPrefix =
      .ok p ∧ payload R (row plan fields) plan.userColumns userPrefix = .ok q := row_payloads
  obtain ⟨answer, ha⟩ : ∃ answer, sessionFrom R [row plan fields] plan token = .ok answer :=
    sessionFrom_answers hp hq
  have hsame : ReadAlike R plan fields token ↔ answer.map essentials =
      (parseSessionDocument R (document plan fields)).map essentials := by
    constructor
    · rintro ⟨answer', ha', h⟩
      rw [ha, Except.ok.injEq] at ha'
      exact ha' ▸ h
    · exact fun h => ⟨answer, ha, h⟩
  rw [hsame, Option.ext_iff]
  simp only [row_reads hflag htoken ha, document_reads]
  by_cases hu : Unusable R plan fields
  · have hn : ∀ e, ¬ Reads R plan fields e := fun e he => exists_reads.mp ⟨e, he⟩ hu
    exact ⟨fun _ => .inr hu, fun _ e => ⟨fun he => (hn e he).elim, fun he => he.1⟩⟩
  · obtain ⟨e, he⟩ := exists_reads.mpr hu
    rw [or_iff_left hu]
    exact ⟨fun h => ((h e).mp he).2, fun hb e => ⟨fun he => ⟨he, hb⟩, fun he => he.1⟩⟩

section Sample

def samplePlan : Plan where
  sessionColumns := sessionRequired
  userColumns := userRequired ++ userAdmin
  sessionStatement := .session none [] [] sessionRequired (userRequired ++ userAdmin)
  userStatement := .user none [] (userRequired ++ userAdmin)

def sampleMoment : Value := .datetime ⟨1893456000000000, some 0⟩

def sampleSession : Text → Value := fun name =>
  if name = "token".toList then .str (ofString "tok1")
  else if name = "userId".toList then .str (ofString "u1")
  else if name = "expiresAt".toList then sampleMoment else .none

def sampleOwner (banExpires : Value) : Text → Value := fun name =>
  if name = "id".toList then .str (ofString "u1")
  else if name = "banned".toList then .bool false
  else if name = "banExpires".toList then banExpires else .none

def sampleFields (banExpires : Value) : Fields := ⟨sampleSession, sampleOwner banExpires⟩

end Sample

end BetterAuthBridge.ReadersAgree
