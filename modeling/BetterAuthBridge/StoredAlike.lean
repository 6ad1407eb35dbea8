import BetterAuthBridge.StoreMisses

namespace BetterAuthBridge.StoredAlike

open Values Errors SessionDocument SqlStore SqlReading ReadersAgree StoreMisses

variable {R : Runtime} {plan : Plan} {token : Text}

/-- The value of a field as it is stored; a `datetime` may have a `tzinfo` that gives no offset. -/
inductive Stored
  | plain (value : Value)
  | offsetless (wall : Int)

namespace Stored

def value : Stored → Value
  | plain value => value
  | offsetless wall => .datetime ⟨wall, none⟩

def isOffsetless : Stored → Bool
  | plain _ => false
  | offsetless _ => true

end Stored

structure StoredFields where
  session : Text → Stored
  user : Text → Stored

variable {stored : StoredFields}

def StoredFields.values (stored : StoredFields) : Fields :=
  ⟨fun name => (stored.session name).value, fun name => (stored.user name).value⟩

def offsetless (columns : List Text) (values : Text → Stored) : List Text :=
  columns.filter fun name => (values name).isOffsetless

def answeredRow (plan : Plan) (stored : StoredFields) : AnsweredRow where
  cells := row plan stored.values
  offsetless := (offsetless plan.sessionColumns stored.session).map (sessionPrefix ++ ·) ++
    (offsetless plan.userColumns stored.user).map (userPrefix ++ ·)

/-- A parsed document, with the fields of either half whose `datetime` has a `tzinfo` that gives no
offset. -/
structure ParsedDocument where
  document : Payload
  session : List Text
  user : List Text

def parsedDocument (plan : Plan) (stored : StoredFields) : ParsedDocument where
  document := document plan stored.values
  session := offsetless plan.sessionColumns stored.session
  user := offsetless plan.userColumns stored.user

/-- A field that is such a `datetime`; `as_moment` hands it on as it is. -/
def unaware (payload : Payload) (offsetless : List Text) (name : String) : Bool :=
  name.toList ∈ offsetless &&
    match payload.get name with
    | .datetime ⟨_, none⟩ => true
    | _ => false

def parseStoredUser (R : Runtime) (payload : Payload) (offsetless : List Text) :
    Except Exn (Option StoredUser) :=
  match SessionDocument.parseStoredUser R payload with
  | none => pure none
  | some user => do
    requireAware (unaware payload offsetless "banExpires")
    return some user

/-- The user is built first, whatever becomes of the session. -/
def parseSessionDocument (R : Runtime) (parsed : ParsedDocument) :
    Except Exn (Option StoredSession) :=
  match parsed.document.get "session", parsed.document.get "user" with
  | .dict payload, .dict storedUser => do
    let _ ← parseStoredUser R storedUser parsed.user
    match SessionDocument.parseSessionDocument R parsed.document with
    | none => return none
    | some record =>
      requireAware (unaware payload parsed.session "expiresAt")
      return some record
  | _, _ => pure none

/-- Both readers answer, with a miss each or with records that agree. -/
def SameAnswer (R : Runtime) (plan : Plan) (stored : StoredFields) (token : Text) : Prop :=
  ∃ answer record, StoreMisses.sessionFrom R [answeredRow plan stored] plan token = .ok answer ∧
    parseSessionDocument R (parsedDocument plan stored) = .ok record ∧
    answer.map essentials = record.map essentials

/-- There is a column for the field, and it is a `datetime` without an offset. -/
def Offsetless (columns : List Text) (values : Text → Stored) (name : String) : Prop :=
  name.toList ∈ columns ∧ (values name.toList).isOffsetless = true

/-- What both readers promote is legible to both: the ban's end is, or the record is lost anyway,
and no `datetime` without an offset comes to be part of a record. -/
structure Legible (R : Runtime) (plan : Plan) (stored : StoredFields) : Prop where
  ban : BanLegible R plan stored.values ∨ Unusable R plan stored.values
  banExpires : asText (userField plan stored.values "id") ≠ none → FlagLegible plan stored.values →
    ¬ Offsetless plan.userColumns stored.user "banExpires"
  expiresAt : ¬ Unusable R plan stored.values →
    ¬ Offsetless plan.sessionColumns stored.session "expiresAt"

theorem mem_offsetless {columns : List Text} {values : Text → Stored} {name : String} :
    name.toList ∈ offsetless columns values ↔ Offsetless columns values name := List.mem_filter

theorem held_offsetless {columns : List Text} {values : Text → Stored} {name : String}
    (h : Offsetless columns values name) :
    ∃ wall, held columns (fun name => (values name).value) name = .datetime ⟨wall, none⟩ := by
  obtain ⟨hm, ho⟩ := h
  rw [held, if_pos hm]
  cases hv : values name.toList with
  | plain value =>
    rw [hv] at ho
    cases ho
  | offsetless wall => exact ⟨wall, rfl⟩

theorem unaware_object {columns : List Text} {values : Text → Stored} {name : String} :
    unaware (object columns fun name => (values name).value) (offsetless columns values) name =
      true ↔ Offsetless columns values name := by
  rw [unaware, Bool.and_eq_true, decide_eq_true_eq, mem_offsetless, object_get]
  refine and_iff_left_of_imp fun h => ?_
  obtain ⟨wall, hw⟩ := held_offsetless h
  rw [hw]

theorem mem_labels {pre pre' : Text} (hpre : ∀ a b : Text, pre ++ a ≠ pre' ++ b)
    {names others : List Text} {name : Text} :
    pre ++ name ∈ names.map (pre ++ ·) ++ others.map (pre' ++ ·) ↔ name ∈ names := by
  rw [List.mem_append, List.mem_map, List.mem_map]
  constructor
  · rintro (⟨a, ha, he⟩ | ⟨b, -, he⟩)
    · exact List.append_cancel_left he ▸ ha
    · exact absurd he.symm (hpre name b)
  · exact fun h => .inl ⟨name, h, rfl⟩

theorem prefixes_apart (a b : Text) : sessionPrefix ++ a ≠ userPrefix ++ b := by
  intro h
  exact absurd (List.cons.inj h).1 (by decide)

theorem unaware_session {name : String} :
    (answeredRow plan stored).unaware plan.sessionColumns sessionPrefix name = true ↔
      Offsetless plan.sessionColumns stored.session name := by
  rw [AnsweredRow.unaware, Bool.and_eq_true, decide_eq_true_eq, answeredRow,
    mem_labels prefixes_apart, mem_offsetless, cell_row_session]
  refine and_iff_left_of_imp fun h => ?_
  obtain ⟨wall, hw⟩ := held_offsetless h
  rw [sessionField, StoredFields.values, hw]

theorem unaware_user {name : String} :
    (answeredRow plan stored).unaware plan.userColumns userPrefix name = true ↔
      Offsetless plan.userColumns stored.user name := by
  have hcomm : ∀ (names others : List Text) (label : Text),
      label ∈ names ++ others ↔ label ∈ others ++ names := by
    intro names others label
    rw [List.mem_append, List.mem_append, or_comm]
  rw [AnsweredRow.unaware, Bool.and_eq_true, decide_eq_true_eq, answeredRow, hcomm,
    mem_labels fun a b => (prefixes_apart b a).symm, mem_offsetless, cell_row_user]
  refine and_iff_left_of_imp fun h => ?_
  obtain ⟨wall, hw⟩ := held_offsetless h
  rw [userField, StoredFields.values, hw]

theorem requireAware_ok {b : Bool} : requireAware b = .ok () ↔ ¬ b = true := by
  cases b with
  | false => exact iff_of_true rfl Bool.false_ne_true
  | true => exact iff_of_false nofun (not_not_intro rfl)

theorem sessionFrom_read {row : AnsweredRow} {found : Option StoredSession}
    (h : StoreMisses.sessionFrom R [row] plan token = .ok found) :
    SqlStore.sessionFrom R [row.cells] plan token = .ok found := by
  obtain ⟨-, -, h⟩ := bind_eq_ok.mp h
  obtain ⟨read, hr, h⟩ := bind_eq_ok.mp h
  cases read with
  | none => exact hr.trans h
  | some record =>
    obtain ⟨-, -, h⟩ := bind_eq_ok.mp h
    exact hr.trans h

theorem parseStoredUser_ok {payload : Payload} {marked : List Text} :
    (∃ found, parseStoredUser R payload marked = .ok found) ↔
      ¬ (SessionDocument.parseStoredUser R payload ≠ none ∧
        unaware payload marked "banExpires" = true) := by
  rw [parseStoredUser]
  cases SessionDocument.parseStoredUser R payload with
  | none => exact iff_of_true ⟨none, rfl⟩ fun h => h.1 rfl
  | some user => simp only [built_answers, ne_eq, reduceCtorEq, not_false_eq_true, true_and]

/-- A document is read without an exception exactly where nothing that is not aware becomes part of
its records, and then it is read as it was. -/
theorem parseSessionDocument_ok {parsed : ParsedDocument} {payload storedUser : Payload}
    (hs : parsed.document.get "session" = .dict payload)
    (hu : parsed.document.get "user" = .dict storedUser) {found : Option StoredSession} :
    parseSessionDocument R parsed = .ok found ↔
      found = SessionDocument.parseSessionDocument R parsed.document ∧
      ¬ (SessionDocument.parseStoredUser R storedUser ≠ none ∧
        unaware storedUser parsed.user "banExpires" = true) ∧
      ¬ (found ≠ none ∧ unaware payload parsed.session "expiresAt" = true) := by
  rw [parseSessionDocument, hs, hu, ← parseStoredUser_ok]
  dsimp only
  cases parseStoredUser R storedUser parsed.user with
  | error exc =>
    refine iff_of_false nofun ?_
    rintro ⟨-, ⟨user, h⟩, -⟩
    cases h
  | ok user =>
    have hsome : ∃ found, (Except.ok user : Except Exn (Option StoredUser)) = .ok found :=
      ⟨user, rfl⟩
    rw [ok_bind, and_iff_right hsome]
    cases SessionDocument.parseSessionDocument R parsed.document with
    | none =>
      constructor
      · intro h
        cases h
        exact ⟨rfl, fun h => h.1 rfl⟩
      · rintro ⟨rfl, -⟩
        rfl
    | some record =>
      constructor
      · intro h
        obtain ⟨_, hk, h⟩ := bind_eq_ok.mp h
        cases h
        exact ⟨rfl, fun h => requireAware_ok.mp hk h.2⟩
      · rintro ⟨rfl, hn⟩
        dsimp only
        rw [requireAware_ok.mpr fun h => hn ⟨nofun, h⟩]
        rfl

section Row

variable (hflag : ∀ n, userField plan stored.values "banned" = .int n → n ≠ 0 ∧ n ≠ 1)

include hflag

theorem userReadable_iff : UserReadable (row plan stored.values) plan ↔
    asText (userField plan stored.values "id") ≠ none ∧ FlagLegible plan stored.values := by
  have hread : Readable (userField plan stored.values "banned") ↔
      FlagLegible plan stored.values := by
    rw [Readable, asDbFlag_eq_asFlag hflag, FlagLegible]
  constructor
  · rintro ⟨hi, hb⟩
    rw [cell_row_user] at hi hb
    exact ⟨hi, hread.mp hb⟩
  · rintro ⟨hi, hb⟩
    refine ⟨?_, ?_⟩ <;> rw [cell_row_user]
    · exact hi
    · exact hread.mpr hb

theorem sessionReadable_iff
    (htoken : sessionField plan stored.values "token" = .str (ofText token)) :
    SessionReadable R (row plan stored.values) plan token ↔ ¬ Unusable R plan stored.values := by
  have ht : asText (sessionField plan stored.values "token") = some token ↔
      asText (sessionField plan stored.values "token") ≠ none := by
    rw [htoken, asText, encodable_ofText]
    split <;> simp
  rw [← exists_reads]
  constructor
  · rintro ⟨hu, he, hi, hk⟩
    rw [cell_row_session] at he hi hk
    obtain ⟨hid, hf⟩ := (userReadable_iff hflag).mp hu
    rw [exists_reads, Unusable]
    simp only [not_or, not_not]
    exact ⟨he, hi, ht.mp hk, hid, hf⟩
  · rintro ⟨e, h⟩
    obtain ⟨id, hid, -⟩ := h.user
    refine ⟨(userReadable_iff hflag).mpr ⟨by simp [hid], h.flag⟩, ?_, ?_, ?_⟩ <;>
      rw [cell_row_session]
    · simp [h.expiresAt]
    · simp [h.userId]
    · exact ht.mpr (by simp [h.token])

theorem row_answers_iff (htoken : sessionField plan stored.values "token" = .str (ofText token)) :
    (∃ found, StoreMisses.sessionFrom R [answeredRow plan stored] plan token = .ok found) ↔
      (asText (userField plan stored.values "id") ≠ none → FlagLegible plan stored.values →
        ¬ Offsetless plan.userColumns stored.user "banExpires") ∧
      (¬ Unusable R plan stored.values →
        ¬ Offsetless plan.sessionColumns stored.session "expiresAt") := by
  obtain ⟨p, q, hp, hq⟩ : ∃ p q, payload R (row plan stored.values) plan.sessionColumns
      sessionPrefix = .ok p ∧ payload R (row plan stored.values) plan.userColumns userPrefix =
        .ok q := row_payloads
  rw [sessionFrom_answers_iff hp hq, Unaware, unaware_user,
    unaware_session]
  change ¬ (UserReadable (row plan stored.values) plan ∧ _ ∨
    SessionReadable R (row plan stored.values) plan token ∧ _) ↔ _
  rw [userReadable_iff hflag, sessionReadable_iff hflag htoken, not_or, not_and, and_imp, not_and]

end Row

theorem parseStoredUser_promoted
    (hp : SessionDocument.parseStoredUser R
      (object plan.userColumns stored.values.user) ≠ none) :
    asText (userField plan stored.values "id") ≠ none ∧ FlagLegible plan stored.values := by
  obtain ⟨user, hu⟩ := Option.ne_none_iff_exists'.mp hp
  obtain ⟨identifier, hid, hf, -, -⟩ := (parseStoredUser_eq_some R).mp hu
  rw [object_get] at hid hf
  exact ⟨Option.ne_none_iff_exists'.mpr ⟨identifier, hid⟩, hf⟩

theorem parseSessionDocument_unusable
    (h : SessionDocument.parseSessionDocument R (document plan stored.values) ≠ none) :
    ¬ Unusable R plan stored.values := by
  obtain ⟨record, hr⟩ := Option.ne_none_iff_exists'.mp h
  have hmap := congrArg (Option.map essentials) hr
  exact exists_reads.mp ⟨essentials record, (document_reads.mp hmap).1⟩

/-- The document is read without an exception wherever the row is. -/
theorem document_answers (h : Legible R plan stored) :
    parseSessionDocument R (parsedDocument plan stored) =
      .ok (SessionDocument.parseSessionDocument R (document plan stored.values)) := by
  have hsession : (parsedDocument plan stored).document.get "session" =
      .dict (object plan.sessionColumns stored.values.session) := rfl
  have huser : (parsedDocument plan stored).document.get "user" =
      .dict (object plan.userColumns stored.values.user) := rfl
  refine (parseSessionDocument_ok hsession huser).mpr ⟨rfl, ?_, ?_⟩
  · rintro ⟨hp, hu⟩
    obtain ⟨hid, hf⟩ := parseStoredUser_promoted hp
    exact h.banExpires hid hf (unaware_object.mp hu)
  · rintro ⟨hp, hs⟩
    exact h.expiresAt (parseSessionDocument_unusable hp) (unaware_object.mp hs)

theorem sameAnswer_iff
    (hflag : ∀ n, userField plan stored.values "banned" = .int n → n ≠ 0 ∧ n ≠ 1)
    (htoken : sessionField plan stored.values "token" = .str (ofText token)) :
    SameAnswer R plan stored token ↔ Legible R plan stored := by
  have halike := readAlike_iff (R := R) hflag htoken
  constructor
  · rintro ⟨answer, record, ha, hd, he⟩
    obtain ⟨hban, hexpires⟩ := (row_answers_iff hflag htoken).mp ⟨answer, ha⟩
    obtain ⟨rfl, -, -⟩ := (parseSessionDocument_ok rfl rfl).mp hd
    exact ⟨halike.mp ⟨answer, sessionFrom_read ha, he⟩, hban, hexpires⟩
  · intro h
    obtain ⟨answer, ha⟩ := (row_answers_iff hflag htoken).mpr ⟨h.banExpires, h.expiresAt⟩
    obtain ⟨read, hr, he⟩ := halike.mpr h.ban
    obtain rfl : answer = read := Except.ok.inj ((sessionFrom_read ha).symm.trans hr)
    exact ⟨answer, _, ha, document_answers h, he⟩

section Sample

def sampleStored (banExpires : Stored) : StoredFields :=
  ⟨fun name => .plain (sampleSession name), fun name =>
    if name = "banExpires".toList then banExpires else .plain (sampleOwner .none name)⟩

end Sample

theorem sameAnswer_iff_sample :
    SameAnswer RemoteSoundness.sampleRuntime samplePlan (sampleStored (.plain sampleMoment))
        "tok1".toList ↔
      Legible RemoteSoundness.sampleRuntime samplePlan (sampleStored (.plain sampleMoment)) :=
  sameAnswer_iff (fun n h => by cases h) rfl

/-- A ban that ends `whenever` is a record for one reader and a miss for the other. -/
theorem illegible_ban_splits : ¬ ∀ (R : Runtime) (plan : Plan) (stored : StoredFields)
    (token : Text),
    userField plan stored.values "id" = sessionField plan stored.values "userId" →
    sessionField plan stored.values "token" = .str (ofText token) →
    (∀ n, userField plan stored.values "banned" = .int n → n ≠ 0 ∧ n ≠ 1) →
    (∀ name, (stored.session name).isOffsetless = false ∧
      (stored.user name).isOffsetless = false) →
    SameAnswer R plan stored token := by
  intro h
  have hflag : ∀ n, userField samplePlan
      (sampleStored (.plain (.str (ofString "whenever")))).values "banned" = .int n →
        n ≠ 0 ∧ n ≠ 1 := fun n h => by cases h
  obtain ⟨answer, record, ha, hd, he⟩ := h RemoteSoundness.sampleRuntime samplePlan
    (sampleStored (.plain (.str (ofString "whenever")))) "tok1".toList rfl rfl hflag
    fun name => ⟨rfl, by unfold sampleStored; dsimp only; split <;> rfl⟩
  obtain ⟨rfl, -, -⟩ := (parseSessionDocument_ok rfl rfl).mp hd
  have hreads : Reads RemoteSoundness.sampleRuntime samplePlan
      (sampleStored (.plain (.str (ofString "whenever")))).values
      ⟨"tok1".toList, "u1".toList, ⟨1893456000000000, 0⟩, none,
        some ("u1".toList, some false, none)⟩ :=
    ⟨rfl, rfl, rfl, rfl, .inr (by decide), "u1".toList, rfl, rfl⟩
  have hrow := (row_reads hflag rfl (sessionFrom_read ha)).mpr hreads
  rw [he] at hrow
  obtain hb | hb := (document_reads.mp hrow).2
  · exact absurd hb (by decide)
  · exact hb rfl

end BetterAuthBridge.StoredAlike
