import BetterAuthBridge.Library.Procedure
import BetterAuthBridge.Models

namespace BetterAuthBridge.SqlStore

open Library.Procedure Values Errors SessionDocument Models

/-- One row of an answer, under the labels the statement selects its columns by. -/
abbrev Row := List (Text × Value)

/-- Each table's columns in the database's own order; `none` is a table that does not exist. -/
abbrev Columns := List (Text × Option (List Text))

def names (columns : List String) : List Text := columns.map String.toList

def sessionRequired : List Text := names ["id", "token", "expiresAt", "userId"]

def sessionOptional : List Text := names ["createdAt", "updatedAt", "ipAddress", "userAgent"]

def sessionAdmin : List Text := names ["impersonatedBy"]

def userRequired : List Text := names ["id"]

def userOptional : List Text :=
  names ["name", "email", "emailVerified", "image", "createdAt", "updatedAt"]

def userAdmin : List Text := names ["role", "banned", "banReason", "banExpires"]

def moments : List Text := names ["expiresAt", "createdAt", "updatedAt", "banExpires"]

def sessionPrefix : Text := "s_".toList

def userPrefix : Text := "u_".toList

def rowLimit : Nat := 2

inductive Select
  | session (schema : Option Text) (sessionTable userTable : Text)
      (sessionColumns userColumns : List Text)
  | user (schema : Option Text) (userTable : Text) (userColumns : List Text)

structure Plan where
  sessionColumns : List Text
  userColumns : List Text
  sessionStatement : Select
  userStatement : Select

def listed (columns : List Text) : String := ", ".intercalate (columns.map String.ofList)

def missingTable (table : Text) : String :=
  s!"table {String.ofList table} does not exist in the database this store was pointed at. Either"
    ++ " the Better Auth migration has not been run against it, or the table is named something"
    ++ " else - pass session_table= / user_table= (and schema=) to say so."

def missingRequired (table : Text) (columns : List Text) : String :=
  s!"table {String.ofList table} is missing {listed columns}, which this store reads on every"
    ++ " lookup. A session cannot be found without them, so every request would fail at the"
    ++ " database instead of here. Run the Better Auth migration, or point the store at the table"
    ++ " that has them."

def unknownColumn (table : Text) (columns : List Text) : String :=
  s!"table {String.ofList table} has no column {listed columns}, which the allow-list passed for it"
    ++ " names. Every name on an allow-list has to exist on the table it belongs to - check the"
    ++ " spelling against the live schema, or take the name off the list."

def extras (columns known : List Text) (allowed : Option (List Text)) : List Text :=
  columns.filter fun name => name ∉ known ∧ ∀ list, allowed = some list → name ∈ list

def accepted (table : Text) (present : Columns) (required optional admin : List Text)
    (allowed : Option (List Text)) : Except Exn (List Text) :=
  match (present.lookup table).join with
  | none => throw (configurationError (missingTable table))
  | some columns =>
    let absent := required.filter fun name => name ∉ columns
    let unknown := (allowed.getD []).filter fun name => name ∉ columns
    if absent ≠ [] then throw (configurationError (missingRequired table absent))
    else if unknown ≠ [] then throw (configurationError (unknownColumn table unknown))
    else
      let known := required ++ (optional ++ admin).filter fun name => name ∈ columns
      pure (known ++ extras columns known allowed)

def planFor (sessionTable userTable : Text) (schema : Option Text) (present : Columns)
    (sessionAllowed userAllowed : Option (List Text)) : Except Exn Plan := do
  let sessionColumns ← accepted sessionTable present sessionRequired sessionOptional sessionAdmin
    sessionAllowed
  let userColumns ← accepted userTable present userRequired userOptional userAdmin userAllowed
  return ⟨sessionColumns, userColumns,
    .session schema sessionTable userTable sessionColumns userColumns,
    .user schema userTable userColumns⟩

variable (R : Runtime)

/-- A boolean from a database column, which may be the integer 0 or 1. -/
def asDbFlag : Value → Option Bool
  | .bool b => some b
  | .int 0 => some false
  | .int 1 => some true
  | _ => none

def flagValue : Option Bool → Value
  | none => .none
  | some b => .bool b

def momentValue : Option Moment → Value
  | none => .none
  | some m => .datetime ⟨m.wall, some m.utcoffset⟩

/-- A column as the payload shows it: a moment is made aware, or is gone when it is not one. -/
def shown (name : Text) (value : Value) : Value :=
  if name ∈ moments ∧ value.isNone = false then momentValue (asMoment R value) else value

/-- The row under upstream's own key names. -/
def payload (row : Row) (columns : List Text) (pre : Text) : Except Exn Payload :=
  columns.mapM fun name =>
    match row.lookup (pre ++ name) with
    | some value => pure (ofText name, shown R name value)
    | none => throw (.other "KeyError")

def only : List Row → Option Row
  | [row] => some row
  | _ => none

/-- `payload["banned"] = banned`, where there is one. -/
def normalized (banned : Option Bool) (payload : Payload) : Payload :=
  payload.map fun field =>
    if field.1 = ofString "banned" then (field.1, flagValue banned) else field

def userFrom (rows : List Row) (plan : Plan) (subject : Text) (checkIdentity : Bool) :
    Except Exn (Option StoredUser) :=
  match only rows with
  | none => pure none
  | some row => do
    let payload ← payload R row plan.userColumns userPrefix
    match asText (payload.get "id") with
    | none => return none
    | some identifier =>
      if checkIdentity ∧ encodeUtf8 identifier ≠ encodeUtf8 subject then return none
      let banned := asDbFlag (payload.get "banned")
      if (payload.get "banned").isNone = false ∧ banned = none then return none
      let payload := normalized banned payload
      return some ⟨identifier, payload, banned, asMoment R (payload.get "banExpires")⟩

def sessionFrom (rows : List Row) (plan : Plan) (token : Text) :
    Except Exn (Option StoredSession) :=
  match only rows with
  | none => pure none
  | some row => do
    let payload ← payload R row plan.sessionColumns sessionPrefix
    let user ← userFrom R rows plan token false
    match asMoment R (payload.get "expiresAt"), asText (payload.get "userId"),
      asText (payload.get "token"), user with
    | some expiresAt, some userId, some storedToken, some user =>
      if encodeUtf8 storedToken ≠ encodeUtf8 token then return none
      return some ⟨storedToken, userId, expiresAt, payload, some user,
        asText (payload.get "impersonatedBy")⟩
    | _, _, _, _ => return none

/-- What running a statement comes to: rows, an error of SQLAlchemy's own, or another. -/
inductive SelectAnswer
  | rows (rows : List Row)
  | databaseError
  | raised (exc : Exn)

inductive Question
  | columns
  | select (statement : Select) (parameter : Text)

/-- What a lookup leaves behind: the plan, once discovered, and what the backend was asked. -/
structure Lookups where
  plan : Option Plan
  asked : List Question

abbrev Looking (α : Type) := Proc Exn Lookups α

/-- The two SQL stores; they differ in how a statement is run. -/
structure CoreStore where
  sessionTable : Text
  userTable : Text
  schema : Option Text
  sessionAllowed : Option (List Text)
  userAllowed : Option (List Text)
  columns : Except Exn Columns
  select : Select → Text → SelectAnswer
  named : blank sessionTable = false ∧ blank userTable = false ∧ sessionTable ≠ userTable

namespace CoreStore

variable (store : CoreStore)

def ready : Looking Plan := do
  let s ← get
  match s.plan with
  | some plan => return plan
  | none => do
    modify fun s => { s with asked := s.asked ++ [.columns] }
    let present ← check store.columns
    let plan ← check (planFor store.sessionTable store.userTable store.schema present
      store.sessionAllowed store.userAllowed)
    modify fun s => { s with plan := some plan }
    return plan

def lookupUnavailable (parameter : Text) : Exn :=
  authServiceUnavailable s!"session store lookup could not complete [{fingerprint R parameter}]"

def selected (statement : Select) (parameter : Text) : Looking (List Row) := do
  modify fun s => { s with asked := s.asked ++ [.select statement parameter] }
  match store.select statement parameter with
  | .rows rows => return rows.take rowLimit
  | .databaseError => throw (lookupUnavailable R parameter)
  | .raised exc => throw exc

def fetchSessionByToken (token : Text) : Looking (Option StoredSession) := do
  if blank token then return none
  let plan ← store.ready
  let found ← store.selected R plan.sessionStatement token
  check (sessionFrom R found plan token)

def fetchUserById (userId : Text) : Looking (Option StoredUser) := do
  if blank userId then return none
  let plan ← store.ready
  let found ← store.selected R plan.userStatement userId
  check (userFrom R found plan userId true)

end CoreStore

end BetterAuthBridge.SqlStore
