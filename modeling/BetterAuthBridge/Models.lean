import BetterAuthBridge.Errors
import BetterAuthBridge.SessionDocument

namespace BetterAuthBridge.Models

open Values Errors SessionDocument

variable {υ : Type}

def fullmatch (allowed : Char → Bool) (cap : Nat) (t : Text) : Bool :=
  1 ≤ t.length && t.length ≤ cap && t.all allowed

def redacted : String := "<redacted>"

/-- Text from outside as a reason may carry it: verbatim when it matches, redacted otherwise. -/
def sanitized (allowed : Char → Bool) (cap : Nat) (value : Str) : String :=
  match encodable value with
  | some t => if fullmatch allowed cap t then String.ofList t else redacted
  | none => redacted

def labelChar (c : Char) : Bool :=
  isAscii c && (c.isAlphanum || c == '_' || c == '.' || c == ':' || c == '+' || c == '-')

def safeLabel (value : Str) : String := sanitized labelChar 64 value

def hexByte (b : UInt8) : List Char := [Nat.digitChar (b.toNat / 16), Nat.digitChar (b.toNat % 16)]

/-- The label a credential goes by in a reason: eight hex digits of its digest. -/
def fingerprint (R : Runtime) (credential : Text) : String :=
  "tok_fp=" ++ String.ofList (((R.sha256 (encodeUtf8 credential)).val.flatMap hexByte).take 8)

inductive LocPart
  | index (n : Int)
  | key (s : Str)

structure ErrorDetails where
  loc : List LocPart
  type : String

/-- What `user_model.model_validate` does with a payload. -/
inductive Validation (υ : Type)
  | valid (user : υ)
  | invalid (errors : List ErrorDetails)
  | raised (exc : Exn)

structure UserModel (υ : Type) where
  name : String
  modelValidate : Payload → Validation υ

def locationChar (c : Char) : Bool := isAscii c && (c.isAlphanum || c == '_')

def safe (part : Str) : String := sanitized locationChar 64 part

def LocPart.render : LocPart → String
  | .index n => toString n
  | .key s => safe s

def ErrorDetails.location (error : ErrorDetails) : String :=
  let parts := ".".intercalate (error.loc.map LocPart.render)
  if parts = "" then "<root>" else parts

def ErrorDetails.render (error : ErrorDetails) : String := s!"{error.location}: [{error.type}]"

def maxReportedErrors : Nat := 5

def maxReasonLength : Nat := 500

def summarize (userModel : UserModel υ) (errors : List ErrorDetails) : String :=
  let total := errors.length
  let reported := (errors.take maxReportedErrors).map ErrorDetails.render
  let reported :=
    if reported.length < total then reported ++ [s!"+{total - reported.length} more"] else reported
  let summary := s!"{userModel.name} payload rejected ({total}): " ++ "; ".intercalate reported
  String.ofList (summary.toList.take maxReasonLength)

def parseUser (userModel : UserModel υ) (payload : Payload) : Except Exn υ :=
  match userModel.modelValidate payload with
  | .valid user => pure user
  | .invalid errors => throw (invalidCredential (summarize userModel errors))
  | .raised exc => throw exc

def idMaxLength : Nat := 255

def coerceIntegerId : Value → Value
  | .int n => .str (ofString (toString n))
  | value => value

def controlChar (c : Char) : Bool := c.toNat < 0x20 || c.toNat == 0x7f

def usableId (value : Text) : Bool := !blank value && !value.any controlChar

/-- What the `UserId` annotation makes of a value, `none` where it raises `ValidationError`. -/
def validateUserId (value : Value) : Option Text :=
  match coerceIntegerId value with
  | .str s => (encodable s).bind fun t =>
    if 1 ≤ t.length ∧ t.length ≤ idMaxLength ∧ usableId t = true then some t else none
  | _ => none

@[ext]
structure Session (υ : Type) where
  user : υ
  expiresAt : Option Moment
  token : Option Text
  impersonatedBy : Option Text
  raw : Payload

/-- The two times a verification reads the wall clock, in microseconds of UTC. -/
structure Readings where
  atExpiry : Int
  atBan : Int

/-- `_check_expiry`, up to the words a verifier has for the session. -/
def expiryChecked (named : String) (record : StoredSession) (now : Readings) (marker : String) :
    Except Exn Unit :=
  if record.expiresAt.instant ≤ now.atExpiry then
    throw (sessionExpired s!"{named} has expired [{marker}]")
  else pure ()

/-- A ban is in force unless it is unknown, absent or lapsed. -/
def banned (user : StoredUser) (now : Int) : Bool :=
  match user.banned with
  | none | some false => false
  | some true =>
    match user.banExpires with
    | none => true
    | some lifts => now < lifts.instant

def banChecked (user : StoredUser) (now : Readings) (marker : String) : Except Exn Unit :=
  if banned user now.atBan then throw (sessionRevoked s!"the session's user is banned [{marker}]")
  else pure ()

def sessionBuilt (record : StoredSession) (user : StoredUser) (token : Text)
    (userModel : UserModel υ) : Except Exn (Session υ) := do
  let parsed ← parseUser userModel user.payload
  return ⟨parsed, some record.expiresAt, some token, record.impersonatedBy, record.payload⟩

theorem expiryChecked_ok {named marker : String} {record : StoredSession} {now : Readings}
    {u : Unit} : expiryChecked named record now marker = .ok u ↔
      now.atExpiry < record.expiresAt.instant := by
  by_cases h : record.expiresAt.instant ≤ now.atExpiry
  · simp [expiryChecked, h, not_lt.mpr h]
  · simp [expiryChecked, h, not_le.mp h]

theorem banChecked_ok {marker : String} {user : StoredUser} {now : Readings} {u : Unit} :
    banChecked user now marker = .ok u ↔ banned user now.atBan = false := by
  by_cases h : banned user now.atBan
  · simp [banChecked, h]
  · simp [banChecked, h]

theorem parseUser_ok {userModel : UserModel υ} {payload : Payload} {user : υ} :
    parseUser userModel payload = .ok user ↔ userModel.modelValidate payload = .valid user := by
  cases h : userModel.modelValidate payload <;>
    simp [parseUser, h]

theorem sessionBuilt_ok {record : StoredSession} {user : StoredUser} {token : Text}
    {userModel : UserModel υ} {session : Session υ} :
    sessionBuilt record user token userModel = .ok session ↔
      ∃ parsed, userModel.modelValidate user.payload = .valid parsed ∧ session =
        ⟨parsed, some record.expiresAt, some token, record.impersonatedBy, record.payload⟩ := by
  cases h : parseUser userModel user.payload with
  | ok parsed =>
    rw [parseUser_ok] at h
    simp [sessionBuilt, parseUser, h, eq_comm]
  | error e =>
    have hn : ∀ parsed, userModel.modelValidate user.payload ≠ .valid parsed := by
      intro parsed hp
      rw [parseUser_ok.mpr hp] at h
      cases h
    simp [sessionBuilt, h, hn]

end BetterAuthBridge.Models
