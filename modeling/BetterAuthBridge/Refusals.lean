import BetterAuthBridge.Errors

namespace BetterAuthBridge.Refusals

open Values Errors

def statusBreach : String := "its status_code is not a plain int, 403 or 404"

def headersBreach : String := "its headers are not a plain dict of str to str"

def challengeBreach : String := "its headers carry WWW-Authenticate"

def fieldBreachText : String :=
  "its headers are not RFC 9110 fields: a name must be a token, and a value may carry only"
    ++ " tabs, spaces and visible US-ASCII"

def challengeHeader : Text := "www-authenticate".toList

/-- One read of a refusal: the rule it breaks, if any, and its headers exactly as judged. -/
structure Judgement where
  breach : Option String
  headers : Option (List (Str × Str))

/-- `type(status_code) is int and status_code in REFUSAL_STATUSES`. -/
def refusalStatus : Value → Bool
  | .int n => n == 403 || n == 404
  | _ => false

def textPair : Value × Value → Option (Str × Str)
  | (.str name, .str value) => some (name, value)
  | _ => none

/-- One read of exactly a plain dict of plain `str` to plain `str`. -/
def textPairs : RefusalHeaders → Option (List (Str × Str))
  | .dict items => items.mapM textPair
  | _ => none

def fieldNameChar (c : Char) : Bool := c.isAlphanum || "!#$%&'*+-.^_`|~".toList.contains c

def fieldValueChar (c : Char) : Bool := c == '\t' || (0x20 ≤ c.toNat && c.toNat ≤ 0x7e)

/-- `FIELD_NAME.fullmatch`; a surrogate is in neither class of characters. -/
def fieldName (name : Str) : Bool :=
  match encodable name with
  | some t => t ≠ [] && t.all fieldNameChar
  | none => false

def fieldValue (value : Str) : Bool :=
  match encodable value with
  | some t => t.all fieldValueChar
  | none => false

def namesChallenge (name : Str) : Bool :=
  match encodable name with
  | some t => lower (strip t) == challengeHeader
  | none => false

def fieldBreach (pairs : List (Str × Str)) : Option String :=
  if pairs.any fun pair => namesChallenge pair.1 then some challengeBreach
  else if pairs.all fun pair => fieldName pair.1 && fieldValue pair.2 then none
  else some fieldBreachText

def judgeRefusal (statusCode : Value) (headers : RefusalHeaders) : Judgement :=
  if !refusalStatus statusCode then ⟨some statusBreach, none⟩
  else if headers.isNone then ⟨none, none⟩
  else
    match textPairs headers with
    | none => ⟨some headersBreach, none⟩
    | some pairs => ⟨fieldBreach pairs, some pairs⟩

def plainHeaders : Option (List (Str × Str)) → RefusalHeaders
  | none => .none
  | some pairs => .dict (pairs.map fun pair => (.str pair.1, .str pair.2))

def Kept (refusal : Refusal) : Prop :=
  (judgeRefusal refusal.statusCode refusal.headers).breach = none

theorem textPairs_plainHeaders (pairs : List (Str × Str)) :
    textPairs (plainHeaders (some pairs)) = some pairs := by
  change (pairs.map fun pair => ((.str pair.1, .str pair.2) : Value × Value)).mapM textPair =
    some pairs
  induction pairs with
  | nil => rfl
  | cons pair pairs ih =>
    rw [List.map_cons, List.mapM_cons, ih]
    rfl

theorem judgeRefusal_none {statusCode : Value} (hs : refusalStatus statusCode = true) :
    judgeRefusal statusCode .none = ⟨none, none⟩ := by
  simp [judgeRefusal, hs, RefusalHeaders.isNone]

theorem judgeRefusal_pairs {statusCode : Value} {headers : RefusalHeaders} {pairs : List (Str × Str)}
    (hs : refusalStatus statusCode = true) (hp : textPairs headers = some pairs) :
    judgeRefusal statusCode headers = ⟨fieldBreach pairs, some pairs⟩ := by
  have hn : headers.isNone = false := by
    cases headers with
    | none => cases hp
    | _ => rfl
  simp [judgeRefusal, hs, hn, hp]

theorem kept_iff {statusCode : Value} {headers : RefusalHeaders} :
    (judgeRefusal statusCode headers).breach = none ↔ refusalStatus statusCode = true ∧
      (headers = .none ∨ ∃ pairs, textPairs headers = some pairs ∧ fieldBreach pairs = none) := by
  by_cases hs : refusalStatus statusCode = true
  · cases headers with
    | none => simp [judgeRefusal_none hs, hs]
    | dict items =>
      cases hp : textPairs (.dict items) with
      | none => simp [judgeRefusal, hs, RefusalHeaders.isNone, hp]
      | some pairs => simp [judgeRefusal_pairs hs hp, hs]
    | object className => simp [judgeRefusal, hs, RefusalHeaders.isNone, textPairs]
  · simp [judgeRefusal, hs]

/-- The headers a judgement hands on are judged as they were. -/
theorem judgeRefusal_plainHeaders {statusCode : Value} {headers : RefusalHeaders}
    (h : (judgeRefusal statusCode headers).breach = none) :
    judgeRefusal statusCode (plainHeaders (judgeRefusal statusCode headers).headers) =
      judgeRefusal statusCode headers := by
  obtain ⟨hs, rfl | ⟨pairs, hp, -⟩⟩ := kept_iff.mp h
  · rw [judgeRefusal_none hs]
    exact judgeRefusal_none hs
  · rw [judgeRefusal_pairs hs hp]
    exact judgeRefusal_pairs hs (textPairs_plainHeaders pairs)

theorem kept_plainHeaders {refusal : Refusal} (h : Kept refusal) :
    Kept { refusal with
      headers := plainHeaders (judgeRefusal refusal.statusCode refusal.headers).headers } := by
  rw [Kept, judgeRefusal_plainHeaders h]
  exact h

end BetterAuthBridge.Refusals
