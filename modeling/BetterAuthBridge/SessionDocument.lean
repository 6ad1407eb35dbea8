import BetterAuthBridge.Values

namespace BetterAuthBridge.SessionDocument

open Values

structure Moment where
  wall : Int
  utcoffset : Int
  deriving DecidableEq, Repr

/-- The point in time, in microseconds of UTC; aware values compare by it. -/
def Moment.instant (m : Moment) : Int := m.wall - m.utcoffset

/-- `replace(tzinfo=timezone.utc)` on a naive value. -/
def DateTime.aware (d : DateTime) : Moment := ⟨d.wall, d.utcoffset.getD 0⟩

structure StoredUser where
  id : Text
  payload : Payload
  banned : Option Bool
  banExpires : Option Moment

structure StoredSession where
  token : Text
  userId : Text
  expiresAt : Moment
  payload : Payload
  user : Option StoredUser
  impersonatedBy : Option Text

variable (R : Runtime)

def isoCandidate (value : Str) : Str :=
  match value.getLast? with
  | some (.char 'Z') | some (.char 'z') => value.dropLast ++ ofString "+00:00"
  | _ => value

def asMoment : Value → Option Moment
  | .datetime d => some (DateTime.aware d)
  | .str value =>
    if value = [] then none else (R.fromisoformat (isoCandidate value)).map DateTime.aware
  | _ => none

/-- A non-blank string that has an encoding. -/
def asText : Value → Option Text
  | .str value => if value.blank then none else encodable value
  | _ => none

def asFlag : Value → Option Bool
  | .bool b => some b
  | _ => none

def parseStoredUser (payload : Payload) : Option StoredUser := do
  let identifier ← asText (payload.get "id")
  let banned := payload.get "banned"
  if !banned.isNone && (asFlag banned).isNone then none
  let recorded := payload.get "banExpires"
  let banExpires := if recorded.isNone then none else asMoment R recorded
  if !recorded.isNone && banExpires.isNone then none
  return ⟨identifier, payload, asFlag banned, banExpires⟩

/-- The `{session, user}` object as a record, `none` for any shape this reader cannot promote. -/
def parseSessionDocument (document : Payload) : Option StoredSession :=
  match document.get "session", document.get "user" with
  | .dict payload, .dict storedUser =>
    match asMoment R (Payload.get payload "expiresAt"), asText (Payload.get payload "userId"),
      asText (Payload.get payload "token"), parseStoredUser R storedUser with
    | some expiresAt, some userId, some storedToken, some user =>
      some ⟨storedToken, userId, expiresAt, payload, some user,
        asText (Payload.get payload "impersonatedBy")⟩
    | _, _, _, _ => none
  | _, _ => none

theorem asText_eq_some {value : Value} {t : Text} :
    asText value = some t ↔ value = .str (ofText t) ∧ blank t = false := by
  cases value with
  | str s =>
    rw [asText, Value.str.injEq]
    by_cases hb : s.blank = true
    · rw [if_pos hb]
      refine ⟨nofun, ?_⟩
      rintro ⟨rfl, hn⟩
      rw [Str.blank_ofText, hn] at hb
      cases hb
    · rw [if_neg hb, encodable_eq_some]
      refine ⟨fun h => ⟨h, ?_⟩, fun h => h.1⟩
      rw [h, Str.blank_ofText] at hb
      exact eq_false_of_ne_true hb
  | _ => exact ⟨nofun, fun h => by cases h.1⟩

theorem asText_not_blank {value : Value} {t : Text} (h : asText value = some t) :
    blank t = false := (asText_eq_some.mp h).2

theorem asText_inj {value value' : Value} {t t' : Text} (h : asText value = some t)
    (h' : asText value' = some t') : t = t' ↔ value = value' := by
  obtain ⟨rfl, -⟩ := asText_eq_some.mp h
  constructor
  · rintro rfl
    exact (asText_eq_some.mp h').1.symm
  · rintro rfl
    exact Option.some.inj (h.symm.trans h')

theorem parseStoredUser_eq_some {payload : Payload} {user : StoredUser} :
    parseStoredUser R payload = some user ↔ ∃ identifier,
      asText (payload.get "id") = some identifier ∧
      ((payload.get "banned").isNone = true ∨ asFlag (payload.get "banned") ≠ none) ∧
      ((payload.get "banExpires").isNone = true ∨ asMoment R (payload.get "banExpires") ≠ none) ∧
      user = ⟨identifier, payload, asFlag (payload.get "banned"),
        asMoment R (payload.get "banExpires")⟩ := by
  have hnone : ∀ value : Value, value.isNone = true → asMoment R value = none := by
    intro value h
    cases value with
    | none => rfl
    | _ => cases h
  have hreads : ∀ (value : Value) {α : Type} (read : Option α),
      (!value.isNone && read.isNone) = false ↔ value.isNone = true ∨ read ≠ none := by
    intro value α read
    cases value.isNone <;> cases read <;> simp
  have hexp : (if (payload.get "banExpires").isNone = true then none
      else asMoment R (payload.get "banExpires")) = asMoment R (payload.get "banExpires") := by
    split
    · exact (hnone _ ‹_›).symm
    · rfl
  rw [parseStoredUser]
  simp only [hexp]
  cases hid : asText (payload.get "id") with
  | none => simp
  | some identifier =>
    simp only [Option.bind_eq_bind, Option.bind_some, Option.some.injEq, exists_eq_left',
      ← hreads]
    cases (!(payload.get "banned").isNone && (asFlag (payload.get "banned")).isNone) with
    | true => simp
    | false =>
      cases (!(payload.get "banExpires").isNone &&
          (asMoment R (payload.get "banExpires")).isNone) with
      | true => simp
      | false => simp [eq_comm]

theorem parseSessionDocument_eq_some {document : Payload} {record : StoredSession} :
    parseSessionDocument R document = some record ↔ ∃ payload stored,
      document.get "session" = .dict payload ∧ document.get "user" = .dict stored ∧
      ∃ expiresAt userId token user,
        asMoment R (Payload.get payload "expiresAt") = some expiresAt ∧
        asText (Payload.get payload "userId") = some userId ∧
        asText (Payload.get payload "token") = some token ∧ parseStoredUser R stored = some user ∧
        record = ⟨token, userId, expiresAt, payload, some user,
          asText (Payload.get payload "impersonatedBy")⟩ := by
  rw [parseSessionDocument]
  constructor
  · intro h
    split at h
    · rename_i payload stored hs hu
      split at h
      · rename_i expiresAt userId token user he hi ht hp
        cases h
        exact ⟨payload, stored, hs, hu, expiresAt, userId, token, user, he, hi, ht, hp, rfl⟩
      · cases h
    · cases h
  · rintro ⟨payload, stored, hs, hu, expiresAt, userId, token, user, he, hi, ht, hp, rfl⟩
    simp only [hs, hu, he, hi, ht, hp]

/-- A promoted record embeds its user and carries a token that is not blank. -/
theorem parseSessionDocument_spec {document : Payload} {record : StoredSession}
    (h : parseSessionDocument R document = some record) :
    (∃ user, record.user = some user) ∧ blank record.token = false := by
  obtain ⟨payload, stored, -, -, expiresAt, userId, token, user, -, -, ht, -, rfl⟩ :=
    (parseSessionDocument_eq_some R).mp h
  exact ⟨⟨user, rfl⟩, asText_not_blank ht⟩

end BetterAuthBridge.SessionDocument
