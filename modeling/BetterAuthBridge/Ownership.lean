import BetterAuthBridge.StoreAnswers

namespace BetterAuthBridge.Ownership

open Library Library.Procedure Library.Runs Library.Tasks Values Errors SessionDocument Models
open CookieParsing CookieVerifier RedisStore Signing SqlStore SqlReading StoreAnswers RemoteResponse
open RemoteVerifier hiding Verifier
open RemoteSteps RemoteInvariants RemoteSoundness
open ModesAgree (sessionStore)

variable {R : Runtime} {υ : Type} {plan : Plan} {row : Row} {rows : List Row} {document : Payload}
  {record : StoredSession} {user : StoredUser} {userModel : UserModel υ} {token : Text}
  {found : Session υ} {now : Readings} {halves : Halves}

/-- The two halves of a joined row or of a document, and the fields by which they name an owner, a
token and a user. -/
structure Halves where
  session : Payload
  user : Payload
  userId : Value
  token : Value
  id : Value

/-- The halves of a row, as payloads; a readable flag is a boolean in its own. -/
structure RowHalves (R : Runtime) (plan : Plan) (row : Row) (halves : Halves) : Prop where
  session : payload R row plan.sessionColumns sessionPrefix = .ok halves.session
  user : ∃ q, payload R row plan.userColumns userPrefix = .ok q ∧
    halves.user = normalized (asDbFlag (cell row plan.userColumns userPrefix "banned")) q
  userId : halves.userId = cell row plan.sessionColumns sessionPrefix "userId"
  token : halves.token = cell row plan.sessionColumns sessionPrefix "token"
  id : halves.id = cell row plan.userColumns userPrefix "id"

structure DocumentHalves (document : Payload) (halves : Halves) : Prop where
  session : document.get "session" = .dict halves.session
  user : document.get "user" = .dict halves.user
  userId : halves.userId = halves.session.get "userId"
  token : halves.token = halves.session.get "token"
  id : halves.id = halves.user.get "id"

/-- A record and the user embedded in it are of these halves: each id is the text of its own half,
and they are one exactly when the halves name one user. -/
structure Paired (halves : Halves) (record : StoredSession) (user : StoredUser) : Prop where
  embedded : record.user = some user
  session : record.payload = halves.session
  payload : user.payload = halves.user
  owner : asText halves.userId = some record.userId
  named : asText halves.token = some record.token
  identity : asText halves.id = some user.id
  same : user.id = record.userId ↔ halves.id = halves.userId

/-- The session is built of the record, for the token presented. -/
structure Carries (userModel : UserModel υ) (token : Text) (record : StoredSession)
    (user : StoredUser) (found : Session υ) : Prop where
  named : record.token = token
  token : found.token = some token
  raw : found.raw = record.payload
  parsed : userModel.modelValidate user.payload = .valid found.user

theorem parsed_paired (h : parseSessionDocument R document = some record) :
    ∃ halves user, DocumentHalves document halves ∧ Paired halves record user := by
  obtain ⟨payload, stored, hs, hu, expiresAt, userId, token, user, -, hi, ht, hp, rfl⟩ :=
    (parseSessionDocument_eq_some R).mp h
  obtain ⟨identifier, hid, -, -, rfl⟩ := (parseStoredUser_eq_some R).mp hp
  exact ⟨⟨payload, stored, _, _, _⟩, _, ⟨hs, hu, rfl, rfl, rfl⟩, rfl, rfl, rfl, hi, ht, hid,
    asText_inj hid hi⟩

theorem row_paired (h : sessionFrom R rows plan token = .ok (some record)) :
    ∃ row halves user, rows = [row] ∧ RowHalves R plan row halves ∧ Paired halves record user := by
  obtain ⟨row, p, user, expiresAt, userId, hr, hp, hu, -, hi, ht, rfl⟩ := sessionFrom_ok.mp h
  obtain ⟨row', q, identifier, hr', hq, hid, -, -, rfl⟩ := userFrom_ok.mp hu
  obtain rfl : row = row' := by simpa using hr.symm.trans hr'
  exact ⟨row, ⟨p, _, _, _, _⟩, _, hr, ⟨hp, ⟨q, hq, rfl⟩, rfl, rfl, rfl⟩, rfl, rfl, rfl, hi, ht, hid,
    asText_inj hid hi⟩

def Presents (R : Runtime) (v : CookieVerifier.Verifier) (credential : Credential) (token : Text) :
    Prop :=
  ∃ snapshot material, credential = .cookie snapshot ∧
    resolveCookieValue R snapshot.pairs v.names.base = .ok material ∧
    Signed R v.secrets material token

/-- Only a credential of its own kind makes a session, and the store has to vouch for its token. -/
theorem verify_vouched {v : CookieVerifier.Verifier} {credential : Credential}
    {calls : List StoreCall}
    (h : (exec (v.verify R credential userModel now) calls).1 = .ok found) :
    ∃ token, Presents R v credential token ∧ Vouched v.store userModel token now found := by
  cases credential with
  | cookie snapshot =>
    obtain ⟨material, token, hm, hsig, -, hs⟩ := verify_ok.mp h
    exact ⟨token, ⟨snapshot, material, rfl, hm, hsig⟩, hs⟩
  | _ => cases h

theorem vouched_carries {store : SessionStore} (h : Vouched store userModel token now found)
    (hread : ∀ record, store.fetchSessionByToken token = .ok (some record) →
      record.token = token ∧ ∃ user, record.user = some user) :
    ∃ record user, store.fetchSessionByToken token = .ok (some record) ∧ record.user = some user ∧
      Carries userModel token record user found := by
  obtain ⟨record, stored, parsed, hf, -, ho, -, hp, rfl⟩ := h
  obtain ⟨ht, user, hu⟩ := hread record hf
  obtain hs | ⟨hs, -⟩ := ho
  · exact ⟨record, stored, hf, hs, ht, rfl, rfl, hp⟩
  · rw [hs] at hu
    cases hu

/-- The session is built of the record that a store answered for the token of its credential, and
of the user embedded in it. -/
def Answered (R : Runtime) (v : CookieVerifier.Verifier) (credential : Credential)
    (userModel : UserModel υ) (record : StoredSession) (user : StoredUser) (found : Session υ) :
    Prop :=
  ∃ token, Presents R v credential token ∧
    v.store.fetchSessionByToken token = .ok (some record) ∧ Carries userModel token record user found

/-- Whose user the readers' records and the verifiers' sessions carry. -/
structure Pairing (R : Runtime) : Prop where
  row : ∀ rows plan token record, sessionFrom R rows plan token = .ok (some record) →
    ∃ row halves user, rows = [row] ∧ RowHalves R plan row halves ∧ Paired halves record user
  document : ∀ document record, parseSessionDocument R document = some record →
    ∃ halves user, DocumentHalves document halves ∧ Paired halves record user
  redis : ∀ {υ : Type} (store : RedisSessionStore) (v : CookieVerifier.Verifier),
    v.store = sessionStore R store → ∀ credential (userModel : UserModel υ) now calls found,
      (exec (v.verify R credential userModel now) calls).1 = .ok found →
      ∃ document halves record user, parseSessionDocument R document = some record ∧
        DocumentHalves document halves ∧ Paired halves record user ∧
        Answered R v credential userModel record user found
  sql : ∀ {υ : Type} (store : CoreStore) (s : Lookups) (v : CookieVerifier.Verifier),
    v.store = sqlStore R store s → ∀ credential (userModel : UserModel υ) now calls found,
      (exec (v.verify R credential userModel now) calls).1 = .ok found →
      ∃ row plan halves record user, sessionFrom R [row] plan record.token = .ok (some record) ∧
        RowHalves R plan row halves ∧ Paired halves record user ∧
        Answered R v credential userModel record user found
  remote : ∀ {ι υ : Type} [DecidableEq ι] (v : RemoteVerifier.Verifier) (clock : Seconds)
    (tr : History ι υ) (w : World ι (Shared ι) (Phase υ)),
    Run (v.machine R) (RemoteVerifier.Verifier.start clock) tr w → ∀ (a b : History ι υ) x i found,
      tr = a ++ x :: b → Did i (.ended (.session found)) x →
      ∃ snapshot userModel material token response now document halves record user,
        (∃ y ∈ a, y.event = .act i (.start (.verify (.remote snapshot) userModel))) ∧
        resolveCookieValue R snapshot.pairs v.names.base = .ok material ∧
        rungOne R material = .ok token ∧
        x.event = .act i (.answered (.response response) now) ∧
        R.loads (.bytes response.content) = some (.dict document) ∧
        parseSessionDocument R document = some record ∧ DocumentHalves document halves ∧
        Paired halves record user ∧ Carries userModel token record user found

theorem pairing (R : Runtime) : Pairing R where
  row _ _ _ _ h := row_paired h
  document _ _ h := parsed_paired h
  redis := by
    intro υ store v hv credential userModel now calls found h
    obtain ⟨token, hpresents, hs⟩ := verify_vouched h
    have hread : ∀ record, v.store.fetchSessionByToken token = .ok (some record) →
        record.token = token ∧ ∃ document, parseSessionDocument R document = some record := by
      intro record hf
      obtain ⟨document, hd, ht⟩ := redis_fetched (hv ▸ hf)
      exact ⟨ht, document, hd⟩
    obtain ⟨record, user, hf, hu, hc⟩ := vouched_carries hs fun record hf => by
      obtain ⟨ht, document, hd⟩ := hread record hf
      exact ⟨ht, (parseSessionDocument_spec R hd).1⟩
    obtain ⟨-, document, hd⟩ := hread record hf
    obtain ⟨halves, user', hh, hp⟩ := parsed_paired hd
    obtain rfl : user' = user := Option.some.inj (hp.embedded.symm.trans hu)
    exact ⟨document, halves, record, user', hd, hh, hp, token, hpresents, hf, hc⟩
  sql := by
    intro υ store s v hv credential userModel now calls found h
    obtain ⟨token, hpresents, hs⟩ := verify_vouched h
    have hread : ∀ record, v.store.fetchSessionByToken token = .ok (some record) →
        record.token = token ∧ ∃ row plan halves user,
          sessionFrom R [row] plan token = .ok (some record) ∧ RowHalves R plan row halves ∧
            Paired halves record user := by
      intro record hf
      rw [hv] at hf
      obtain ⟨rows, plan, hd⟩ := sql_fetched hf
      obtain ⟨row, halves, user, rfl, hh, hp⟩ := row_paired hd
      exact ⟨((sql_honest R store s).session token record hf).1, row, plan, halves, user, hd, hh, hp⟩
    obtain ⟨record, user, hf, hu, hc⟩ := vouched_carries hs fun record hf => by
      obtain ⟨ht, _, _, _, user, _, _, hp⟩ := hread record hf
      exact ⟨ht, user, hp.embedded⟩
    obtain ⟨rfl, row, plan, halves, user', hd, hh, hp⟩ := hread record hf
    obtain rfl : user' = user := Option.some.inj (hp.embedded.symm.trans hu)
    exact ⟨row, plan, halves, record, user', hd, hh, hp, record.token, hpresents, hf, hc⟩
  remote := by
    rintro ι υ _ v clock tr w h a b x i found rfl hd
    obtain ⟨snapshot, userModel, material, token, document, record, stored, hg⟩ :=
      grounded_of_ended h hd
    obtain ⟨response, now, he, -, -, hload, -, -⟩ := hg.answered
    obtain ⟨parsed, hvalid, rfl⟩ := hg.built
    obtain ⟨halves, user, hh, hp⟩ := parsed_paired hg.read
    obtain rfl : stored = user := Option.some.inj (hg.user.symm.trans hp.embedded)
    exact ⟨snapshot, userModel, material, token, response, now, document, halves, record, stored,
      hg.started, hg.presented, hg.divided, he, hload, hg.read, hh, hp, hg.same, rfl, rfl, hvalid⟩

section Sample

def swappedDocument : Payload :=
  [(ofString "session", .dict [(ofString "token", .str (ofString "tok1")),
      (ofString "userId", .str (ofString "u1")),
      (ofString "expiresAt", .str (ofString "2030-01-01T00:00:00.000Z"))]),
    (ofString "user", .dict [(ofString "id", .str (ofString "u2"))])]

def swappedPlan : Plan where
  sessionColumns := sessionRequired
  userColumns := userRequired
  sessionStatement := .session none "session".toList "user".toList sessionRequired userRequired
  userStatement := .user none "user".toList userRequired

def swappedRow : Row :=
  [("s_id".toList, .str (ofString "s1")), ("s_token".toList, .str (ofString "tok1")),
    ("s_expiresAt".toList, .str (ofString "2030-01-01T00:00:00.000Z")),
    ("s_userId".toList, .str (ofString "u1")), ("u_id".toList, .str (ofString "u2"))]

end Sample

/-- Both readers promote a session of `u1` with the user `u2`. -/
theorem swapped_is_promoted :
    (∃ record user, parseSessionDocument RemoteSoundness.sampleRuntime swappedDocument =
        some record ∧ record.user = some user ∧ user.id ≠ record.userId) ∧
      ∃ record user, sessionFrom RemoteSoundness.sampleRuntime [swappedRow] swappedPlan
        "tok1".toList = .ok (some record) ∧ record.user = some user ∧ user.id ≠ record.userId := by
  constructor
  · exact ⟨_, _, rfl, rfl, by decide⟩
  · exact ⟨_, _, rfl, rfl, by decide⟩

end BetterAuthBridge.Ownership
