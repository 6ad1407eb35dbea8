import BetterAuthBridge.IdentifierModes
import BetterAuthBridge.RedisStore

namespace BetterAuthBridge.StoreMisses

open Values Errors SessionDocument RedisStore SqlStore SqlReading IdentifierModes

variable {R : Runtime} {store : RedisSessionStore} {value : RedisAnswer} {plan : Plan}
  {token subject : Text}

def Unencodable (value : RedisAnswer) : Prop := ∃ s, value = .str s ∧ encodable s = none

theorem document_answers (store : RedisSessionStore) (value : RedisAnswer) :
    (∃ found, store.document R value = .ok found) ↔ ¬ Unencodable value := by
  have hread : ∀ size text, measured value = .ok (some (size, text)) →
      ∃ found, store.document R value = .ok found := by
    intro size text hm
    rw [RedisSessionStore.document, hm]
    simp only [ok_bind]
    split
    · exact ⟨none, rfl⟩
    · split <;> exact ⟨_, rfl⟩
  have hencoded : (∀ s, value ≠ .str s) → ¬ Unencodable value := by
    rintro h ⟨s, rfl, -⟩
    exact h s rfl
  cases value with
  | none => exact iff_of_true ⟨none, rfl⟩ (hencoded (by intro s h; cases h))
  | bytes b => exact iff_of_true (hread _ _ rfl) (hencoded (by intro s h; cases h))
  | other typeName => exact iff_of_true ⟨none, rfl⟩ (hencoded (by intro s h; cases h))
  | str s =>
    cases hs : encodable s with
    | none =>
      refine iff_of_false ?_ (not_not_intro ⟨s, rfl, hs⟩)
      rintro ⟨found, hf⟩
      rw [RedisSessionStore.document, measured, hs] at hf
      cases hf
    | some t =>
      have hm : measured (.str s) = .ok (some ((encodeUtf8 t).length, .str s)) := by
        rw [measured, hs]
        rfl
      refine iff_of_true (hread _ _ hm) ?_
      rintro ⟨s', h, hn⟩
      cases h
      rw [hs] at hn
      cases hn

theorem fetch_answers (h : store.client (store.keyPrefix ++ token) = .ok value) :
    (∃ found, store.fetchSessionByToken R token = .ok found) ↔
      blank token = true ∨ ¬ Unencodable value := by
  rw [RedisSessionStore.fetchSessionByToken]
  by_cases hb : blank token = true
  · exact iff_of_true ⟨none, by simp [hb]⟩ (.inl hb)
  · simp only [hb, Bool.false_eq_true, if_false, h, ok_bind, false_or]
    rw [← document_answers (R := R) store value]
    cases value with
    | none => exact iff_of_true ⟨none, rfl⟩ ⟨none, rfl⟩
    | _ =>
      dsimp only
      cases store.document R _ with
      | error e =>
        refine iff_of_false ?_ ?_ <;>
          · rintro ⟨found, hf⟩
            cases hf
      | ok found => cases found <;> exact iff_of_true ⟨_, rfl⟩ ⟨_, rfl⟩

/-- A row as a driver answers it, with the labels whose `datetime` has a `tzinfo` that gives no
offset. -/
structure AnsweredRow where
  cells : Row
  offsetless : List Text

/-- A column that is such a `datetime`; `as_moment` hands it on as it is. -/
def AnsweredRow.unaware (row : AnsweredRow) (columns : List Text) (pre : Text) (name : String) :
    Bool :=
  pre ++ name.toList ∈ row.offsetless &&
    match cell row.cells columns pre name with
    | .datetime ⟨_, none⟩ => true
    | _ => false

def requireAware (unaware : Bool) : Except Exn Unit :=
  if unaware then throw (.other "ValueError") else pure ()

def userFrom (R : Runtime) (rows : List AnsweredRow) (plan : Plan) (subject : Text)
    (checkIdentity : Bool) : Except Exn (Option StoredUser) :=
  match rows with
  | [row] => do
    match ← SqlStore.userFrom R [row.cells] plan subject checkIdentity with
    | none => return none
    | some user =>
      requireAware (row.unaware plan.userColumns userPrefix "banExpires")
      return some user
  | _ => pure none

/-- The user is built first, whatever becomes of the session. -/
def sessionFrom (R : Runtime) (rows : List AnsweredRow) (plan : Plan) (token : Text) :
    Except Exn (Option StoredSession) :=
  match rows with
  | [row] => do
    let _ ← userFrom R [row] plan token false
    match ← SqlStore.sessionFrom R [row.cells] plan token with
    | none => return none
    | some record =>
      requireAware (row.unaware plan.sessionColumns sessionPrefix "expiresAt")
      return some record
  | _ => pure none

structure UserReadable (row : Row) (plan : Plan) : Prop where
  id : asText (cell row plan.userColumns userPrefix "id") ≠ none
  banned : Readable (cell row plan.userColumns userPrefix "banned")

structure SessionReadable (R : Runtime) (row : Row) (plan : Plan) (token : Text) : Prop where
  user : UserReadable row plan
  expiresAt : asMoment R (cell row plan.sessionColumns sessionPrefix "expiresAt") ≠ none
  userId : asText (cell row plan.sessionColumns sessionPrefix "userId") ≠ none
  token : asText (cell row plan.sessionColumns sessionPrefix "token") = some token

def Unaware (R : Runtime) (row : AnsweredRow) (plan : Plan) (token : Text) : Prop :=
  UserReadable row.cells plan ∧ row.unaware plan.userColumns userPrefix "banExpires" = true ∨
    SessionReadable R row.cells plan token ∧
      row.unaware plan.sessionColumns sessionPrefix "expiresAt" = true

def Selected (plan : Plan) (rows : List AnsweredRow) : Prop :=
  ∀ row ∈ rows, (∀ name ∈ plan.sessionColumns, ∃ v,
      row.cells.lookup (sessionPrefix ++ name) = some v) ∧
    ∀ name ∈ plan.userColumns, ∃ v, row.cells.lookup (userPrefix ++ name) = some v

theorem built_answers {α : Type} (unaware : Bool) (record : α) :
    (∃ found, (requireAware unaware >>= fun _ => pure (some record)) = .ok found) ↔
      ¬ unaware = true := by
  cases unaware with
  | false => exact iff_of_true ⟨_, rfl⟩ Bool.false_ne_true
  | true =>
    refine iff_of_false ?_ (not_not_intro rfl)
    rintro ⟨found, hf⟩
    cases hf

section Row

variable {row : AnsweredRow} {p q : Payload}

theorem userFrom_found (subject : Text)
    (hq : payload R row.cells plan.userColumns userPrefix = .ok q) :
    (∃ user, SqlStore.userFrom R [row.cells] plan subject false = .ok (some user)) ↔
      UserReadable row.cells plan := by
  constructor
  · rintro ⟨user, hu⟩
    obtain ⟨row', q', identifier, hr, -, hid, -, hb, -⟩ := userFrom_ok.mp hu
    cases hr
    exact ⟨Option.ne_none_iff_exists'.mpr ⟨identifier, hid⟩, hb⟩
  · intro h
    obtain ⟨identifier, hid⟩ := Option.ne_none_iff_exists'.mp h.id
    have hnone : false = true → identifier = subject := by
      intro hf
      cases hf
    exact ⟨_, userFrom_ok.mpr ⟨_, q, identifier, rfl, hq, hid, hnone, h.banned, rfl⟩⟩

theorem sessionFrom_found (token : Text)
    (hp : payload R row.cells plan.sessionColumns sessionPrefix = .ok p)
    (hq : payload R row.cells plan.userColumns userPrefix = .ok q) :
    (∃ record, SqlStore.sessionFrom R [row.cells] plan token = .ok (some record)) ↔
      SessionReadable R row.cells plan token := by
  constructor
  · rintro ⟨record, hr⟩
    obtain ⟨row', p', user, expiresAt, userId, he, -, hu, hm, hi, ht, -⟩ := sessionFrom_ok.mp hr
    cases he
    exact ⟨(userFrom_found token hq).mp ⟨user, hu⟩, Option.ne_none_iff_exists'.mpr ⟨expiresAt, hm⟩,
      Option.ne_none_iff_exists'.mpr ⟨userId, hi⟩, ht⟩
  · intro h
    obtain ⟨user, hu⟩ := (userFrom_found token hq).mpr h.user
    obtain ⟨expiresAt, hm⟩ := Option.ne_none_iff_exists'.mp h.expiresAt
    obtain ⟨userId, hi⟩ := Option.ne_none_iff_exists'.mp h.userId
    exact ⟨_, sessionFrom_ok.mpr ⟨_, p, user, expiresAt, userId, rfl, hp, hu, hm, hi, h.token, rfl⟩⟩

theorem userFrom_answers_iff (subject : Text)
    (hq : payload R row.cells plan.userColumns userPrefix = .ok q) :
    (∃ found, userFrom R [row] plan subject false = .ok found) ↔
      ¬ (UserReadable row.cells plan ∧
        row.unaware plan.userColumns userPrefix "banExpires" = true) := by
  rw [← userFrom_found subject hq, userFrom]
  obtain ⟨found, hf⟩ : ∃ found, SqlStore.userFrom R [row.cells] plan subject false = .ok found :=
    SqlReading.userFrom_answers hq
  rw [hf]
  cases found with
  | none =>
    refine iff_of_true ⟨none, rfl⟩ ?_
    rintro ⟨⟨user, hu⟩, -⟩
    cases hu
  | some user =>
    have hsome : ∃ user', (Except.ok (some user) : Except Exn (Option StoredUser)) =
      .ok (some user') := ⟨user, rfl⟩
    rw [and_iff_right hsome]
    exact built_answers _ user

theorem sessionFrom_answers_iff
    (hp : payload R row.cells plan.sessionColumns sessionPrefix = .ok p)
    (hq : payload R row.cells plan.userColumns userPrefix = .ok q) :
    (∃ found, sessionFrom R [row] plan token = .ok found) ↔ ¬ Unaware R row plan token := by
  rw [Unaware, not_or, ← userFrom_answers_iff token hq, ← sessionFrom_found token hp hq,
    sessionFrom]
  cases hu : userFrom R [row] plan token false with
  | error e =>
    refine iff_of_false ?_ ?_
    · rintro ⟨found, hf⟩
      cases hf
    · rintro ⟨⟨found, hf⟩, -⟩
      cases hf
  | ok user =>
    obtain ⟨found, hf⟩ : ∃ found, SqlStore.sessionFrom R [row.cells] plan token = .ok found :=
      SqlReading.sessionFrom_answers hp hq
    rw [hf]
    cases found with
    | none =>
      refine iff_of_true ⟨none, rfl⟩ ⟨⟨user, rfl⟩, ?_⟩
      rintro ⟨⟨record, hr⟩, -⟩
      cases hr
    | some record =>
      have hsome : ∃ record', (Except.ok (some record) : Except Exn (Option StoredSession)) =
        .ok (some record') := ⟨record, rfl⟩
      have huser : ∃ found, (Except.ok user : Except Exn (Option StoredUser)) = .ok found :=
        ⟨user, rfl⟩
      rw [and_iff_right hsome, and_iff_right huser]
      exact built_answers _ record

end Row

theorem rows_answer_iff {rows : List AnsweredRow} (h : Selected plan rows) :
    (∃ found, sessionFrom R rows plan token = .ok found) ↔
      ∀ row, rows = [row] → ¬ Unaware R row plan token := by
  by_cases hone : ∃ row, rows = [row]
  · obtain ⟨row, rfl⟩ := hone
    obtain ⟨hs, hu⟩ := h row List.mem_cons_self
    obtain ⟨p, hp⟩ := ReadersAgree.payload_ok (R := R) hs
    obtain ⟨q, hq⟩ := ReadersAgree.payload_ok (R := R) hu
    rw [sessionFrom_answers_iff hp hq]
    constructor
    · intro hn row' he
      cases he
      exact hn
    · exact fun hn => hn row rfl
  · refine iff_of_true ⟨none, ?_⟩ fun row he => (hone ⟨row, he⟩).elim
    rw [sessionFrom]
    · rfl
    · exact fun row he => hone ⟨row, he⟩

/-- What is stored is answered without an exception, but for a string that has no encoding and a
moment that has no offset. -/
theorem stored_answers_iff {rows : List AnsweredRow}
    (hc : store.client (store.keyPrefix ++ token) = .ok value) (hr : Selected plan rows) :
    ((∃ found, store.fetchSessionByToken R token = .ok found) ↔
      blank token = true ∨ ¬ Unencodable value) ∧
    ((∃ found, sessionFrom R rows plan token = .ok found) ↔
      ∀ row, rows = [row] → ¬ Unaware R row plan token) :=
  ⟨fetch_answers hc, rows_answer_iff hr⟩

def sampleStore (value : RedisAnswer) : RedisSessionStore := ⟨[], 65536, fun _ => .ok value⟩

theorem stored_answers_iff_sample :
    ((∃ found, (sampleStore .none).fetchSessionByToken RemoteSoundness.sampleRuntime
        "tok1".toList = .ok found) ↔ blank "tok1".toList = true ∨ ¬ Unencodable .none) ∧
    ((∃ found, sessionFrom RemoteSoundness.sampleRuntime
        [⟨sampleRow (.str (ofString "u1")), []⟩] ReadersAgree.samplePlan "tok1".toList =
          .ok found) ↔
      ∀ row, [(⟨sampleRow (.str (ofString "u1")), []⟩ : AnsweredRow)] = [row] →
        ¬ Unaware RemoteSoundness.sampleRuntime row ReadersAgree.samplePlan "tok1".toList) := by
  have hcells := sampleRow_carries (.str (ofString "u1"))
  refine stored_answers_iff rfl fun row hrow => ?_
  rw [List.mem_singleton.mp hrow]
  exact ⟨hcells.sessionCells, hcells.userCells⟩

/-- A stored string that is one unpaired surrogate ends the lookup in a `UnicodeEncodeError`. -/
theorem surrogate_raises : ¬ ∀ (R : Runtime) (store : RedisSessionStore) (token : Text)
    (value : RedisAnswer), store.client (store.keyPrefix ++ token) = .ok value →
    ∃ found, store.fetchSessionByToken R token = .ok found := by
  intro h
  have hsurrogate : Unencodable (.str [.surrogate 0]) := ⟨_, rfl, rfl⟩
  obtain hb | hn := (fetch_answers rfl).mp (h RemoteSoundness.sampleRuntime
    (sampleStore (.str [.surrogate 0])) "tok1".toList _ rfl)
  · exact absurd hb (by decide)
  · exact hn hsurrogate

end BetterAuthBridge.StoreMisses
