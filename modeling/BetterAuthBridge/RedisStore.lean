import BetterAuthBridge.Errors
import BetterAuthBridge.SessionDocument

namespace BetterAuthBridge.RedisStore

open Values Errors SessionDocument

inductive RedisAnswer
  | none
  | bytes (b : Bytes)
  | str (s : Str)
  | other (typeName : String)

structure RedisSessionStore where
  keyPrefix : Text
  maxBytes : Nat
  client : Text → Except Exn RedisAnswer

variable (R : Runtime)

/-- The size that counts against the cap, and the text to parse; a string has to have a UTF-8
encoding to be counted. -/
def measured : RedisAnswer → Except Exn (Option (Nat × JsonText))
  | .bytes b => pure (some (b.length, .bytes b))
  | .str s =>
    match encodable s with
    | some t => pure (some ((encodeUtf8 t).length, .str s))
    | none => throw (.other "UnicodeEncodeError")
  | _ => pure none

namespace RedisSessionStore

variable (store : RedisSessionStore)

def document (value : RedisAnswer) : Except Exn (Option Payload) := do
  match ← measured value with
  | none => return none
  | some (size, text) =>
    if store.maxBytes < size then return none
    match R.loads text with
    | some (.dict parsed) => return some parsed
    | _ => return none

def record (document : Payload) (token : Text) : Option StoredSession := do
  let record ← parseSessionDocument R document
  if encodeUtf8 record.token = encodeUtf8 token then some record else none

def fetchSessionByToken (token : Text) : Except Exn (Option StoredSession) := do
  if blank token then return none
  match ← store.client (store.keyPrefix ++ token) with
  | .none => return none
  | value =>
    match ← store.document R value with
    | none => return none
    | some document => return record R document token

def fetchUserById (_userId : Text) : Except Exn (Option StoredUser) := pure none

end RedisSessionStore

theorem record_eq_some {R : Runtime} {document : Payload} {token : Text} {found : StoredSession} :
    RedisSessionStore.record R document token = some found ↔
      parseSessionDocument R document = some found ∧ found.token = token := by
  simp only [RedisSessionStore.record, Option.bind_eq_bind, Option.bind_eq_some_iff,
    encodeUtf8_injective.eq_iff]
  constructor
  · rintro ⟨record, hp, hr⟩
    split at hr
    · rename_i ht
      cases hr
      exact ⟨hp, ht⟩
    · cases hr
  · rintro ⟨hp, ht⟩
    exact ⟨found, hp, if_pos ht⟩

end BetterAuthBridge.RedisStore
