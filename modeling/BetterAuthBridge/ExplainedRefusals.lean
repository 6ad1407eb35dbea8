import BetterAuthBridge.Library.Ordered
import BetterAuthBridge.TaskGroups

namespace BetterAuthBridge.ExplainedRefusals

open Library Library.Procedure Values Errors Models Refusals

variable {υ γ : Type} {statusCode : Value} {headers : RefusalHeaders} {refusal : Refusal}
  {exceptions : List Exn} {what : String}

/-- A status as it is passed, with its `repr`: any value, or an instance of a subclass of `int`. -/
inductive StatusArgument
  | value (v : Value) (rendered : String)
  | intSubclass (n : Int) (rendered : String)

/-- A name or a value of a header as it is passed: any value, or an instance of a subclass of
`str`. -/
inductive FieldArgument
  | value (v : Value)
  | strSubclass (className : String) (s : Str)

/-- A mapping is read as its `items` come, until they end or raise. -/
inductive HeadersArgument
  | none
  | dict (items : List (FieldArgument × FieldArgument))
  | mapping (className : String) (items : List (FieldArgument × FieldArgument))
      (failure : Option Exn)
  | object (className : String)

inductive InitError
  | valueError (message : String)
  | raised (exc : Exn)

namespace FieldArgument

/-- `str.__str__`, for what is a string. -/
def text : FieldArgument → Option Str
  | value (.str s) => some s
  | strSubclass _ s => some s
  | _ => none

/-- The object itself, as it is seen where only exact types count. -/
def itself : FieldArgument → Value
  | value v => v
  | strSubclass className _ => .object className

end FieldArgument

namespace StatusArgument

def rendered : StatusArgument → String
  | value _ rendered => rendered
  | intSubclass _ rendered => rendered

def plain : StatusArgument → Value
  | value v _ => v
  | intSubclass n _ => .int n

end StatusArgument

def copied (plain : Ordered.Table Str Str) :
    List (FieldArgument × FieldArgument) → Option (Ordered.Table Str Str)
  | [] => some plain
  | (name, value) :: items =>
    match name.text, value.text with
    | some name, some value => copied (Ordered.set plain name value) items
    | _, _ => none

/-- `_plain_headers`: what is no mapping of text to text is handed back as it is. -/
def HeadersArgument.plain : HeadersArgument → Except Exn RefusalHeaders
  | none => pure .none
  | dict items =>
    match copied [] items with
    | some pairs => pure (plainHeaders (some pairs))
    | .none => pure (.dict (items.map fun item => (item.1.itself, item.2.itself)))
  | mapping className items failure =>
    match copied [] items, failure with
    | .none, _ => pure (.object className)
    | some _, some exc => throw exc
    | some pairs, .none => pure (plainHeaders (some pairs))
  | object className => pure (.object className)

def breachCause (breach : String) : String :=
  if breach = statusBreach then
    "A 401 would tell a session that already verified to re-authenticate, 400 is the"
      ++ " ambiguous-credential answer, and any other status is not a refusal."
  else if breach = headersBreach then
    "Pass a mapping of str to str; it is copied into a plain dict. Nothing else is honoured once"
      ++ " the refusal leaves the rule, because only a plain dict reads the same when it is checked"
      ++ " and when it is written."
  else if breach = challengeBreach then
    "The challenge belongs to authentication, and a session that reached a rule already passed it."
  else
    "A CR or LF in a value splits the response on a server that writes it, and one that refuses it"
      ++ " aborts the response or answers 500; obs-text is what RFC 9110 says new fields should not"
      ++ " use, and a client may be unable to decode it (sections 5.1, 5.5 and 5.6.2)."

def misbuilt (breach : String) (statusCode : StatusArgument) : String :=
  let got := if breach = statusBreach then s!" (got {statusCode.rendered})" else ""
  s!"AuthorizationRefused was built wrong: {breach}{got}. {breachCause breach}"

/-- `AuthorizationRefused.__init__`, for a class of this name. -/
def init (name : String) (statusCode : StatusArgument) (headers : HeadersArgument) :
    Except InitError Refusal :=
  match headers.plain with
  | .error exc => .error (.raised exc)
  | .ok kept =>
    let verdict := judgeRefusal statusCode.plain kept
    match verdict.breach with
    | some breach => .error (.valueError (misbuilt breach statusCode))
    | none => .ok ⟨name, statusCode.plain, plainHeaders verdict.headers⟩

/-- A header field that can stand in any response but a challenge. -/
structure SafeField (name value : Text) : Prop where
  token : name ≠ [] ∧ ∀ c ∈ name, fieldNameChar c = true
  unchallenging : name.map Char.toLower ≠ challengeHeader
  printable : ∀ c ∈ value, c = '\t' ∨ 32 ≤ c.toNat ∧ c.toNat ≤ 126

def fieldsHeaders (fields : List (Text × Text)) : RefusalHeaders :=
  plainHeaders (some (fields.map fun field => (ofText field.1, ofText field.2)))

structure WireSafe (refusal : Refusal) : Prop where
  status : refusal.statusCode = .int 403 ∨ refusal.statusCode = .int 404
  headers : refusal.headers = .none ∨ ∃ fields, refusal.headers = fieldsHeaders fields ∧
    ∀ field ∈ fields, SafeField field.1 field.2

theorem SafeField.unsplit {name value : Text} (h : SafeField name value) :
    '\r' ∉ value ∧ '\n' ∉ value ∧ '\x00' ∉ value := by
  have hout : ∀ c, c.toNat < 32 → c ≠ '\t' → c ∉ value := by
    intro c hc ht hm
    obtain rfl | ⟨hl, -⟩ := h.printable c hm
    · exact ht rfl
    · omega
  exact ⟨hout _ (by decide) (by decide), hout _ (by decide) (by decide),
    hout _ (by decide) (by decide)⟩

theorem fieldNameChar_plain {c : Char} (hc : fieldNameChar c = true) :
    isSpace c = false ∧ c ≠ '\u212a' := by
  have ha : isAscii c = true := by
    rw [fieldNameChar, Bool.or_eq_true] at hc
    obtain hc | hc := hc
    · unfold Char.isAlphanum Char.isAlpha Char.isUpper Char.isLower Char.isDigit at hc
      simp only [Bool.or_eq_true, Bool.and_eq_true, decide_eq_true_eq, UInt32.le_iff_toNat_le,
        ge_iff_le] at hc
      change ((65 ≤ c.toNat ∧ c.toNat ≤ 90) ∨ (97 ≤ c.toNat ∧ c.toNat ≤ 122)) ∨
        (48 ≤ c.toNat ∧ c.toNat ≤ 57) at hc
      rw [isAscii, decide_eq_true_eq]
      omega
    · have hall : ("!#$%&'*+-.^_`|~".toList.all isAscii) = true := by decide
      exact List.all_eq_true.mp hall c (List.contains_iff_mem.mp hc)
  revert hc
  exact forall_ascii (P := fun c => fieldNameChar c = true → isSpace c = false ∧ c ≠ '\u212a')
    (by decide) ha

theorem namesChallenge_token {name : Text} (h : ∀ c ∈ name, fieldNameChar c = true) :
    namesChallenge (ofText name) = true ↔ name.map Char.toLower = challengeHeader := by
  have hs : strip name = name := by
    apply Text.trim_eq_self
    intro c hc hspace
    rw [(fieldNameChar_plain (h c hc)).1] at hspace
    cases hspace
  have hl : lower name = name.map Char.toLower := by
    apply List.map_congr_left
    intro c hc
    exact if_neg (fieldNameChar_plain (h c hc)).2
  simp only [namesChallenge, encodable_ofText, hs, hl, beq_iff_eq]

theorem fieldName_iff {name : Str} : fieldName name = true ↔
    ∃ t, name = ofText t ∧ t ≠ [] ∧ ∀ c ∈ t, fieldNameChar c = true := by
  unfold fieldName
  cases he : encodable name with
  | none =>
    refine ⟨nofun, ?_⟩
    rintro ⟨t, rfl, -⟩
    rw [encodable_ofText] at he
    cases he
  | some t =>
    obtain rfl := encodable_eq_some.mp he
    simp only [Bool.and_eq_true, decide_eq_true_eq, List.all_eq_true]
    constructor
    · rintro ⟨hn, ht⟩
      exact ⟨t, rfl, hn, ht⟩
    · rintro ⟨t', ht', hn, hc⟩
      have hsame := congrArg encodable ht'
      rw [encodable_ofText, encodable_ofText, Option.some.injEq] at hsame
      subst hsame
      exact ⟨hn, hc⟩

theorem fieldValue_iff {value : Str} : fieldValue value = true ↔
    ∃ t, value = ofText t ∧ ∀ c ∈ t, c = '\t' ∨ 32 ≤ c.toNat ∧ c.toNat ≤ 126 := by
  unfold fieldValue
  cases he : encodable value with
  | none =>
    refine ⟨nofun, ?_⟩
    rintro ⟨t, rfl, -⟩
    rw [encodable_ofText] at he
    cases he
  | some t =>
    obtain rfl := encodable_eq_some.mp he
    simp only [List.all_eq_true, fieldValueChar, Bool.or_eq_true, beq_iff_eq, Bool.and_eq_true,
      decide_eq_true_eq]
    constructor
    · exact fun h => ⟨t, rfl, h⟩
    · rintro ⟨t', ht', hc⟩
      have hsame := congrArg encodable ht'
      rw [encodable_ofText, encodable_ofText, Option.some.injEq] at hsame
      subst hsame
      exact hc

theorem fieldBreach_none {pairs : List (Str × Str)} : fieldBreach pairs = none ↔
    ∀ pair ∈ pairs, namesChallenge pair.1 = false ∧ fieldName pair.1 = true ∧
      fieldValue pair.2 = true := by
  unfold fieldBreach
  by_cases hc : (pairs.any fun pair => namesChallenge pair.1) = true
  · rw [if_pos hc]
    refine ⟨nofun, fun h => ?_⟩
    obtain ⟨pair, hp, hn⟩ := List.any_eq_true.mp hc
    rw [(h pair hp).1] at hn
    cases hn
  · rw [if_neg hc]
    rw [Bool.not_eq_true, List.any_eq_false] at hc
    by_cases hf : (pairs.all fun pair => fieldName pair.1 && fieldValue pair.2) = true
    · rw [if_pos hf]
      rw [List.all_eq_true] at hf
      refine ⟨fun _ pair hp => ?_, fun _ => rfl⟩
      have hboth := hf pair hp
      rw [Bool.and_eq_true] at hboth
      exact ⟨eq_false_of_ne_true (hc pair hp), hboth⟩
    · rw [if_neg hf]
      refine ⟨nofun, fun h => (hf ?_).elim⟩
      apply List.all_eq_true.mpr
      intro pair hp
      rw [Bool.and_eq_true]
      exact (h pair hp).2

theorem fieldBreach_safe {pairs : List (Str × Str)} : fieldBreach pairs = none ↔
    ∃ fields : List (Text × Text),
      pairs = fields.map (fun field => (ofText field.1, ofText field.2)) ∧
        ∀ field ∈ fields, SafeField field.1 field.2 := by
  rw [fieldBreach_none]
  constructor
  · intro h
    induction pairs with
    | nil => exact ⟨[], rfl, by simp⟩
    | cons pair pairs ih =>
      obtain ⟨fields, rfl, hsafe⟩ := ih fun p hp => h p (List.mem_cons_of_mem _ hp)
      obtain ⟨name, value⟩ := pair
      obtain ⟨hn, hname, hvalue⟩ := h _ List.mem_cons_self
      obtain ⟨t, rfl, hne, htoken⟩ := fieldName_iff.mp hname
      obtain ⟨w, rfl, hprint⟩ := fieldValue_iff.mp hvalue
      have hun : t.map Char.toLower ≠ challengeHeader := by
        intro he
        rw [(namesChallenge_token htoken).mpr he] at hn
        cases hn
      exact ⟨(t, w) :: fields, rfl, List.forall_mem_cons.mpr ⟨⟨⟨hne, htoken⟩, hun, hprint⟩, hsafe⟩⟩
  · rintro ⟨fields, rfl, hsafe⟩ pair hp
    obtain ⟨field, hf, rfl⟩ := List.mem_map.mp hp
    obtain ⟨⟨hne, htoken⟩, hun, hprint⟩ := hsafe field hf
    refine ⟨?_, fieldName_iff.mpr ⟨_, rfl, hne, htoken⟩, fieldValue_iff.mpr ⟨_, rfl, hprint⟩⟩
    exact eq_false_of_ne_true fun hc => hun ((namesChallenge_token htoken).mp hc)

theorem refusalStatus_iff :
    refusalStatus statusCode = true ↔ statusCode = .int 403 ∨ statusCode = .int 404 := by
  cases statusCode with
  | int n => simp [refusalStatus]
  | _ => simp [refusalStatus]

theorem textPairs_eq_some {pairs : List (Str × Str)} :
    textPairs headers = some pairs ↔ headers = plainHeaders (some pairs) := by
  constructor
  · intro h
    cases headers with
    | none | object className => cases h
    | dict items =>
      have hitems : items = pairs.map fun pair => (.str pair.1, .str pair.2) := by
        induction items generalizing pairs with
        | nil =>
          cases h
          rfl
        | cons item items ih =>
          simp only [textPairs, List.mapM_cons] at h
          obtain ⟨pair, hpair, h⟩ := Option.bind_eq_some_iff.mp h
          obtain ⟨rest, hrest, h⟩ := Option.bind_eq_some_iff.mp h
          cases h
          rw [ih hrest, List.map_cons]
          unfold textPair at hpair
          split at hpair
          · cases hpair
            rfl
          · cases hpair
      rw [hitems]
      rfl
  · rintro rfl
    exact textPairs_plainHeaders pairs

/-- To keep the rules is to be safe on the wire. -/
theorem kept_iff_safe : Kept refusal ↔ WireSafe refusal := by
  rw [Kept, kept_iff, refusalStatus_iff]
  constructor
  · rintro ⟨hs, hn | ⟨pairs, hp, hf⟩⟩
    · exact ⟨hs, .inl hn⟩
    · obtain ⟨fields, rfl, hsafe⟩ := fieldBreach_safe.mp hf
      exact ⟨hs, .inr ⟨fields, textPairs_eq_some.mp hp, hsafe⟩⟩
  · rintro ⟨hs, hn | ⟨fields, hp, hsafe⟩⟩
    · exact ⟨hs, .inl hn⟩
    · exact ⟨hs, .inr ⟨_, textPairs_eq_some.mpr hp, fieldBreach_safe.mpr ⟨fields, rfl, hsafe⟩⟩⟩

theorem judged_headers (h : Kept refusal) :
    plainHeaders (judgeRefusal refusal.statusCode refusal.headers).headers = refusal.headers := by
  obtain ⟨hs, hn | ⟨pairs, hp, hf⟩⟩ := kept_iff.mp h
  · rw [hn, judgeRefusal_none hs]
    rfl
  · rw [judgeRefusal_pairs hs hp, textPairs_eq_some.mp hp]

theorem answered_eq (refusal : Refusal) (exceptions : List Exn) (what : String) :
    (WireSafe refusal ∧
        Authz.answered refusal exceptions what = .authorizationRefused refusal exceptions) ∨
      (¬ WireSafe refusal ∧
        ∃ reason, Authz.answered refusal exceptions what = notAuthorized reason) := by
  cases hb : (judgeRefusal refusal.statusCode refusal.headers).breach with
  | none =>
    have hk : Kept refusal := hb
    refine .inl ⟨kept_iff_safe.mp hk, ?_⟩
    simp only [Authz.answered, hb, judged_headers hk]
  | some breach =>
    refine .inr ⟨fun hs => ?_, _, by simp only [Authz.answered, hb]; rfl⟩
    have hk := kept_iff_safe.mpr hs
    rw [Kept, hb] at hk
    cases hk

theorem asking_refusal {e : Exn}
    (h : delivered Exn.isLibrary e = .authorizationRefused refusal exceptions) :
    (TaskGroups.asking what).outcome e = Authz.answered refusal exceptions what := by
  rw [TaskGroups.Place.outcome]
  change (if Exn.isLibrary (delivered Exn.isLibrary e) then delivered Exn.isLibrary e else
    (TaskGroups.asking what).judged (delivered Exn.isLibrary e)) = _
  rw [h]
  rfl

theorem init_ok {name : String} {status : StatusArgument} {given : HeadersArgument}
    (h : init name status given = .ok refusal) : Kept refusal := by
  unfold init at h
  split at h
  · cases h
  · rename_i kept hk
    cases hb : (judgeRefusal status.plain kept).breach with
    | some breach =>
      simp only [hb] at h
      cases h
    | none =>
      simp only [hb, Except.ok.injEq] at h
      subst h
      have hkept : Kept ⟨name, status.plain, kept⟩ := hb
      exact kept_plainHeaders hkept

/-- A judgement judged again is itself, unless there was nothing it could read. -/
theorem judgeRefusal_idempotent
    (h : (judgeRefusal statusCode headers).breach ≠ some headersBreach) :
    judgeRefusal statusCode (plainHeaders (judgeRefusal statusCode headers).headers) =
      judgeRefusal statusCode headers := by
  cases hs : refusalStatus statusCode with
  | false =>
    have hall : ∀ given, judgeRefusal statusCode given = ⟨some statusBreach, none⟩ := by
      intro given
      rw [judgeRefusal, hs]
      rfl
    rw [hall, hall]
  | true =>
    cases hn : headers.isNone with
    | true =>
      cases headers with
      | none => rw [judgeRefusal_none hs]; exact judgeRefusal_none hs
      | _ => cases hn
    | false =>
      cases hp : textPairs headers with
      | none =>
        refine (h ?_).elim
        simp [judgeRefusal, hs, hn, hp]
      | some pairs =>
        rw [judgeRefusal_pairs hs hp]
        exact judgeRefusal_pairs hs (textPairs_plainHeaders pairs)

/-- Refusals that explain themselves are held to one set of rules, when they are built and when
they leave a gate. -/
structure HeldToRules (υ γ : Type) : Prop where
  built : ∀ name status given refusal, init name status given = .ok refusal →
    WireSafe refusal ∧ (judgeRefusal refusal.statusCode refusal.headers).breach = none ∧
      plainHeaders (judgeRefusal refusal.statusCode refusal.headers).headers = refusal.headers
  predicate : ∀ (predicate : Authz.Predicate υ) (session : Session υ) e refusal exceptions,
    predicate session = .error e →
    delivered Exn.isLibrary e = .authorizationRefused refusal exceptions →
    (WireSafe refusal ∧ Authz.permitted predicate session =
        .error (.authorizationRefused refusal exceptions)) ∨
      (¬ WireSafe refusal ∧
        ∃ reason, Authz.permitted predicate session = .error (notAuthorized reason))
  lookup : ∀ (member : Authz.Member υ γ) (resourceId : Str) (session : Session υ) calls e refusal
      exceptions,
    Authz.LookupRaises member resourceId session e →
    delivered Exn.isLibrary e = .authorizationRefused refusal exceptions →
    (WireSafe refusal ∧ (exec (Authz.granted member resourceId session) calls).1 =
        .error (.authorizationRefused refusal exceptions)) ∨
      (¬ WireSafe refusal ∧ ∃ reason,
        (exec (Authz.granted member resourceId session) calls).1 = .error (notAuthorized reason))
  safe : ∀ refusal, WireSafe refusal → ∀ fields, refusal.headers = fieldsHeaders fields →
    ∀ field ∈ fields, '\r' ∉ field.2 ∧ '\n' ∉ field.2 ∧ '\x00' ∉ field.2
  idempotent : ∀ statusCode headers,
    (judgeRefusal statusCode headers).breach ≠ some headersBreach →
    judgeRefusal statusCode (plainHeaders (judgeRefusal statusCode headers).headers) =
      judgeRefusal statusCode headers

theorem refusals_held (υ γ : Type) : HeldToRules υ γ := by
  constructor
  · intro name status given refusal h
    have hk := init_ok h
    exact ⟨kept_iff_safe.mp hk, hk, judged_headers hk⟩
  · intro predicate session e refusal exceptions he hd
    rw [TaskGroups.permitted_raised he, asking_refusal hd]
    obtain ⟨hs, ha⟩ | ⟨hs, reason, ha⟩ :=
      answered_eq refusal exceptions Authz.predicateName
    · exact .inl ⟨hs, by rw [ha]⟩
    · exact .inr ⟨hs, reason, by rw [ha]⟩
  · intro member resourceId session calls e refusal exceptions he hd
    rw [TaskGroups.granted_raised he, asking_refusal hd]
    obtain ⟨hs, ha⟩ | ⟨hs, reason, ha⟩ := answered_eq refusal exceptions Authz.lookupName
    · exact .inl ⟨hs, by rw [ha]⟩
    · exact .inr ⟨hs, reason, by rw [ha]⟩
  · intro refusal hw fields hf field hm
    obtain hn | ⟨others, ho, hsafe⟩ := hw.headers
    · rw [hn] at hf
      cases hf
    · have he : fieldsHeaders others = fieldsHeaders fields := ho.symm.trans hf
      have hpairs := congrArg textPairs he
      rw [fieldsHeaders, fieldsHeaders, textPairs_plainHeaders, textPairs_plainHeaders,
        Option.some.injEq] at hpairs
      have hm' : (ofText field.1, ofText field.2) ∈
          others.map fun field => (ofText field.1, ofText field.2) := by
        rw [hpairs]
        exact List.mem_map_of_mem hm
      obtain ⟨other, hother, hsame⟩ := List.mem_map.mp hm'
      have hvalue := congrArg (fun pair : Str × Str => encodable pair.2) hsame
      simp only [encodable_ofText, Option.some.injEq] at hvalue
      rw [← hvalue]
      exact (hsafe other hother).unsplit
  · exact fun statusCode headers => judgeRefusal_idempotent

/-- A judgement of headers it could not read hands none on, and none break no rule. -/
theorem unread_headers_forgotten : ¬ ∀ statusCode headers,
    judgeRefusal statusCode (plainHeaders (judgeRefusal statusCode headers).headers) =
      judgeRefusal statusCode headers := by
  intro h
  have hb := congrArg Judgement.breach (h (.int 403) (.object "list"))
  cases hb

end BetterAuthBridge.ExplainedRefusals
