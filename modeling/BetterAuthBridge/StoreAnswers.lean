import BetterAuthBridge.ModesAgree
import BetterAuthBridge.SqlReading

namespace BetterAuthBridge.StoreAnswers

open Library.Procedure Values Errors SessionDocument RedisStore SqlStore SqlReading
open ModesAgree (sessionStore)

variable {R : Runtime} {store : CoreStore} {s : Lookups} {token userId : Text}

structure Honest (store : CookieVerifier.SessionStore) : Prop where
  session : ∀ token record, store.fetchSessionByToken token = .ok (some record) →
    record.token = token ∧ blank record.userId = false
  user : ∀ userId user, store.fetchUserById userId = .ok (some user) → user.id = userId

def sqlStore (R : Runtime) (store : CoreStore) (s : Lookups) : CookieVerifier.SessionStore :=
  ⟨fun token => (exec (store.fetchSessionByToken R token) s).1,
    fun userId => (exec (store.fetchUserById R userId) s).1⟩

theorem redis_fetched {store : RedisSessionStore} {record : StoredSession}
    (h : store.fetchSessionByToken R token = .ok (some record)) :
    ∃ document, parseSessionDocument R document = some record ∧ record.token = token := by
  rw [RedisSessionStore.fetchSessionByToken] at h
  by_cases hb : blank token = true
  · simp [hb] at h
  · simp only [hb, Bool.false_eq_true, if_false] at h
    obtain ⟨value, hv, h⟩ := bind_eq_ok.mp h
    split at h
    · cases h
    · obtain ⟨document, hd, h⟩ := bind_eq_ok.mp h
      split at h
      · cases h
      · rename_i document
        exact ⟨document, record_eq_some.mp (Except.ok.inj h)⟩

theorem parsed_userId {document : Payload} {record : StoredSession}
    (h : parseSessionDocument R document = some record) : blank record.userId = false := by
  obtain ⟨payload, stored, -, -, expiresAt, userId, token, user, -, hi, -, -, rfl⟩ :=
    (parseSessionDocument_eq_some R).mp h
  exact asText_not_blank hi

theorem redis_honest (R : Runtime) (store : RedisSessionStore) : Honest (sessionStore R store) := by
  constructor
  · intro token record h
    obtain ⟨document, hp, ht⟩ := redis_fetched h
    exact ⟨ht, parsed_userId hp⟩
  · intro userId user h
    cases h

def lookup {α : Type} (R : Runtime) (store : CoreStore) (statement : Plan → Select)
    (read : List Row → Plan → Except Exn (Option α)) (parameter : Text) : Looking (Option α) := do
  if blank parameter then return none
  let plan ← store.ready
  let found ← store.selected R (statement plan) parameter
  check (read found plan)

theorem fetchSessionByToken_eq (store : CoreStore) (token : Text) :
    store.fetchSessionByToken R token =
      lookup R store Plan.sessionStatement (fun rows plan => sessionFrom R rows plan token)
        token := rfl

theorem fetchUserById_eq (store : CoreStore) (userId : Text) :
    store.fetchUserById R userId =
      lookup R store Plan.userStatement (fun rows plan => userFrom R rows plan userId true)
        userId := rfl

section Lookup

variable {α : Type} {statement : Plan → Select} {read : List Row → Plan → Except Exn (Option α)}
  {parameter : Text}

theorem lookup_blank (h : blank parameter = true) (s : Lookups) :
    exec (lookup R store statement read parameter) s = (.ok none, s) := by
  simp [lookup, h]

/-- What a SQL store answers was read from rows. -/
theorem lookup_ok {found : α}
    (h : (exec (lookup R store statement read parameter) s).1 = .ok (some found)) :
    ∃ rows plan, read rows plan = .ok (some found) := by
  by_cases hb : blank parameter = true
  · rw [lookup_blank hb] at h
    cases h
  · simp only [lookup, hb, Bool.false_eq_true, if_false, exec_bind_fst_ok, exec_check] at h
    obtain ⟨plan, -, rows, -, h⟩ := h
    exact ⟨rows, plan, h⟩

theorem exec_selected {select : Select} {rows : List Row}
    (h : store.select select parameter = .rows rows) (s : Lookups) :
    exec (store.selected R select parameter) s =
      (.ok (rows.take rowLimit), { s with asked := s.asked ++ [.select select parameter] }) := by
  rw [CoreStore.selected, exec_bind, exec_modify]
  dsimp only
  rw [h]
  rfl

theorem lookup_several {t : Lookups} {plan : Plan} {rows : List Row}
    (hread : ∀ rows : List Row, 2 ≤ rows.length → read rows plan = .ok none)
    (hready : exec store.ready s = (.ok plan, t)) (hlen : 2 ≤ rows.length)
    (hselect : store.select (statement plan) parameter = .rows rows) :
    (exec (lookup R store statement read parameter) s).1 = .ok none := by
  have htake : 2 ≤ (rows.take rowLimit).length := by simpa [rowLimit] using hlen
  by_cases hb : blank parameter = true
  · rw [lookup_blank hb]
  · simp [lookup, hb, exec_bind, hready, exec_selected hselect, hread _ htake]

end Lookup

theorem sql_fetched {record : StoredSession}
    (h : (exec (store.fetchSessionByToken R token) s).1 = .ok (some record)) :
    ∃ rows plan, sessionFrom R rows plan token = .ok (some record) := by
  rw [fetchSessionByToken_eq] at h
  exact lookup_ok h

theorem sql_fetched_user {user : StoredUser}
    (h : (exec (store.fetchUserById R userId) s).1 = .ok (some user)) :
    ∃ rows plan, userFrom R rows plan userId true = .ok (some user) := by
  rw [fetchUserById_eq] at h
  exact lookup_ok h

theorem sql_honest (R : Runtime) (store : CoreStore) (s : Lookups) :
    Honest (sqlStore R store s) := by
  constructor
  · intro token record h
    obtain ⟨rows, plan, h⟩ := sql_fetched h
    obtain ⟨row, p, user, expiresAt, userId, -, -, -, -, hi, -, rfl⟩ := sessionFrom_ok.mp h
    exact ⟨rfl, asText_not_blank hi⟩
  · intro userId user h
    obtain ⟨rows, plan, h⟩ := sql_fetched_user h
    obtain ⟨row, p, identifier, -, -, -, hsame, -, rfl⟩ := userFrom_ok.mp h
    exact hsame rfl

theorem only_of_several {rows : List Row} (h : 2 ≤ rows.length) : only rows = none := by
  refine Option.eq_none_iff_forall_ne_some.mpr fun row ho => ?_
  rw [only_eq_some.mp ho] at h
  simp at h

theorem sessionFrom_several {rows : List Row} (h : 2 ≤ rows.length) (plan : Plan) (token : Text) :
    sessionFrom R rows plan token = .ok none := by
  rw [sessionFrom, only_of_several h]
  rfl

theorem userFrom_several {rows : List Row} (h : 2 ≤ rows.length) (plan : Plan) (subject : Text)
    (checkIdentity : Bool) : userFrom R rows plan subject checkIdentity = .ok none := by
  rw [userFrom, only_of_several h]
  rfl

/-- The shipped stores keep to what they are asked: a blank token or id is a miss that asks the
backend nothing, whatever the backend would do, and two rows are a miss. -/
structure Guarded (R : Runtime) : Prop where
  redis : ∀ store : RedisSessionStore, Honest (sessionStore R store)
  sql : ∀ (store : CoreStore) (s : Lookups), Honest (sqlStore R store s)
  redisBlank : ∀ (store : RedisSessionStore) (token : Text), blank token = true → ∀ client,
    RedisSessionStore.fetchSessionByToken R { store with client := client } token = .ok none
  sqlBlank : ∀ (store : CoreStore) (s : Lookups) (token : Text), blank token = true →
    exec (store.fetchSessionByToken R token) s = (.ok none, s)
  userBlank : ∀ (store : CoreStore) (s : Lookups) (userId : Text), blank userId = true →
    exec (store.fetchUserById R userId) s = (.ok none, s)
  several : ∀ (store : CoreStore) (s t : Lookups) (plan : Plan) (rows : List Row) (token : Text),
    exec store.ready s = (.ok plan, t) → 2 ≤ rows.length →
    store.select plan.sessionStatement token = .rows rows →
    (exec (store.fetchSessionByToken R token) s).1 = .ok none
  severalUsers : ∀ (store : CoreStore) (s t : Lookups) (plan : Plan) (rows : List Row)
    (userId : Text), exec store.ready s = (.ok plan, t) → 2 ≤ rows.length →
    store.select plan.userStatement userId = .rows rows →
    (exec (store.fetchUserById R userId) s).1 = .ok none

theorem guarded (R : Runtime) : Guarded R where
  redis := redis_honest R
  sql := sql_honest R
  redisBlank store token h client := by simp [RedisSessionStore.fetchSessionByToken, h]
  sqlBlank store s token h := by
    rw [fetchSessionByToken_eq]
    exact lookup_blank h s
  userBlank store s userId h := by
    rw [fetchUserById_eq]
    exact lookup_blank h s
  several store s t plan rows token hready hlen hselect := by
    rw [fetchSessionByToken_eq]
    exact lookup_several (fun rows h => sessionFrom_several h plan token) hready hlen hselect
  severalUsers store s t plan rows userId hready hlen hselect := by
    rw [fetchUserById_eq]
    exact lookup_several (fun rows h => userFrom_several h plan userId true) hready hlen hselect

end BetterAuthBridge.StoreAnswers
