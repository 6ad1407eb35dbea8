import BetterAuthBridge.CookieVerifier
import BetterAuthBridge.RedisStore
import BetterAuthBridge.RemoteSoundness

namespace BetterAuthBridge.ModesAgree

open Library Library.Text Library.Procedure Library.Runs Library.Tasks Values Errors
open SessionDocument Models Csrf CookieParsing Signing RedisStore RemoteResponse RemoteGates
open RemoteVerifier RemoteSections RemoteSteps RemoteInvariants RemoteSoundness

variable {ι υ : Type} [DecidableEq ι] {R : Runtime} {v : Verifier} {i : ι}
  {w : World ι (Shared ι) (Phase υ)} {snapshot : Snapshot} {userModel : UserModel υ}
  {now : Readings} {content : Bytes} {found : Session υ} {token : Text}

def sessionStore (R : Runtime) (store : RedisSessionStore) : CookieVerifier.SessionStore :=
  ⟨store.fetchSessionByToken R, RedisSessionStore.fetchUserById⟩

/-- What a client answers for a key that holds the text: its bytes, or the decoded string where
that is the same JSON. -/
inductive Stores (R : Runtime) (content : Bytes) : RedisAnswer → Prop
  | bytes : Stores R content (.bytes content)
  | str {t : Text} : encodeUtf8 t = content →
      R.loads (.str (ofText t)) = R.loads (.bytes content) → Stores R content (.str (ofText t))

/-- The session document is where both modes look for it, within their limits: under the key of
the snapshot's token, and not too long for either. -/
def Held (R : Runtime) (store : RedisSessionStore) (names : CookieNames) (snapshot : Snapshot)
    (content : Bytes) : Prop :=
  content.length ≤ store.maxBytes ∧ ∀ token, tokenOf R names snapshot = some token →
    token.length ≤ maxTokenBytes ∧
      ∃ held, store.client (store.keyPrefix ++ token) = .ok held ∧ Stores R content held

structure Ready (R : Runtime) (v : Verifier) (i : ι) (w : World ι (Shared ι) (Phase υ))
    (snapshot : Snapshot) : Prop where
  idle : w.phase i = .idle
  uncached : ∀ material, resolveCookieValue R snapshot.pairs v.names.base = .ok material →
    (holds R v.negativeTtl w.shared.clock material w.shared.entries).1 = false
  clear : ¬ InForce w.shared.clock w.shared.blockedUntil
  probed : w.shared.probedOk = true
  slot : w.shared.borrowers.length < v.concurrency

/-- A call that runs through its suspensions and is answered with the response. -/
def conversation (snapshot : Snapshot) (userModel : UserModel υ) (response : TransportResponse)
    (now : Readings) : List (Event υ) :=
  [.start (.verify (.remote snapshot) userModel), .slotAcquired, .slotResumed,
    .answered (.response response) now]

def Answers (R : Runtime) (v : Verifier) (i : ι) (w : World ι (Shared ι) (Phase υ))
    (events : List (Event υ)) (found : Session υ) : Prop :=
  ∃ tr u, replay (v.machine R) w (events.map (.act i)) = some (tr, u) ∧
    ∃ x ∈ tr, Did i (.ended (.session found)) x

/-- The two forms a client may answer in come to the same measured text. -/
theorem document_eq {store : RedisSessionStore} {held : RedisAnswer}
    (hlen : content.length ≤ store.maxBytes) (h : Stores R content held) :
    store.document R held = .ok (match R.loads (.bytes content) with
      | some (.dict parsed) => some parsed
      | _ => none) := by
  have key : ∀ text, R.loads text = R.loads (.bytes content) →
      measured held = .ok (some (content.length, text)) →
      store.document R held = .ok (match R.loads (.bytes content) with
        | some (.dict parsed) => some parsed
        | _ => none) := by
    intro text ht hm
    rw [RedisSessionStore.document, hm, ok_bind]
    dsimp only
    rw [if_neg (not_lt.mpr hlen), ht]
    split <;> simp_all
  cases h with
  | bytes => exact key _ rfl rfl
  | str he hl =>
    apply key _ hl
    simp [measured, he]

theorem fetch_ok {store : RedisSessionStore} {held : RedisAnswer} {record : StoredSession}
    (hlen : content.length ≤ store.maxBytes) (hs : Stores R content held)
    (hc : store.client (store.keyPrefix ++ token) = .ok held) :
    store.fetchSessionByToken R token = .ok (some record) ↔
      ∃ document, R.loads (.bytes content) = some (.dict document) ∧
        parseSessionDocument R document = some record ∧ record.token = token := by
  have hfetch : store.fetchSessionByToken R token = if blank token then .ok none else
      .ok ((match R.loads (.bytes content) with
        | some (.dict parsed) => some parsed
        | _ => none).bind fun document => RedisSessionStore.record R document token) := by
    unfold RedisSessionStore.fetchSessionByToken
    by_cases hb : blank token = true
    · simp [hb]
    · simp only [hb, hc, ok_bind, Bool.false_eq_true, if_false]
      have hd := document_eq hlen hs
      cases hs <;> simp only [hd, ok_bind] <;> split <;> simp_all
  rw [hfetch]
  by_cases hb : blank token = true
  · refine iff_of_false (by simp [hb]) ?_
    rintro ⟨document, -, hp, rfl⟩
    rw [(parseSessionDocument_spec R hp).2] at hb
    cases hb
  · simp only [hb, Bool.false_eq_true, if_false, Except.ok.injEq, Option.bind_eq_some_iff,
      record_eq_some]
    cases R.loads (.bytes content) with
    | none => simp
    | some value => cases value <;> simp

theorem alone_act {s t : Shared ι} {p q : Phase υ} {e : Event υ} {es : List (Event υ)}
    {fs : List (Effect υ)} (h : v.act R i e s p = some (t, q, fs)) :
    (v.program R).alone i s p (e :: es) = ((v.program R).alone i t q es).map (fs ++ ·) :=
  Program.alone_cons h

theorem alone_refused {response : TransportResponse} {exc : Exn} {s : Shared ι}
    (ha : v.admitted R (.remote snapshot) userModel = .error exc) :
    (v.program R).alone i s .idle (conversation snapshot userModel response now) = none := by
  have hstart : v.act R i (.start (.verify (.remote snapshot) userModel)) s .idle =
      some (s, .finished, [.ended (.raised exc)]) := by
    rw [Verifier.act, Verifier.opened, exec_opening, ha]
    rfl
  rw [conversation, alone_act hstart]
  rfl

theorem alone_admitted (response : TransportResponse) (now : Readings) {pending : Pending υ}
    (hr : Ready R v i w snapshot) (ha : v.admitted R (.remote snapshot) userModel = .ok pending) :
    ∃ s : Shared ι, (v.program R).alone i w.shared .idle
      (conversation snapshot userModel response now) =
        some ([.getSessionSent v.uri (Verifier.outbound pending.name pending.material)] ++
          (v.closed R i pending (.response response) now s).2.2) := by
  obtain ⟨-, huncached, hclear, hprobed, hslot⟩ := hr
  obtain ⟨snapshot', he, hm, -⟩ := (admitted_ok.mp ha).snapshot
  cases he
  have hcache := huncached _ hm
  have hlatch : (latched w.shared.clock w.shared.blockedUntil).1 = false :=
    eq_false_of_ne_true (latched_iff.not.mpr hclear)
  have hstart : v.act R i (.start (.verify (.remote snapshot) userModel)) w.shared .idle =
      some (latchAsked R v pending.material w.shared, .waitingSlot pending, []) := by
    simp only [Verifier.act, Verifier.opened, exec_opening, ha, hcache, hlatch, Verifier.gate,
      Bool.false_eq_true, if_false, Option.some.injEq]
    exact if_pos hprobed
  let s : Shared ι := { latchAsked R v pending.material w.shared with
    borrowers := i :: w.shared.borrowers }
  have hslot' : v.act R i .slotAcquired (latchAsked R v pending.material w.shared)
      (.waitingSlot pending) = some (s, .slotGranted pending, []) := if_pos hslot
  have hresume : v.act R i .slotResumed s (.slotGranted pending) = some (s, .fetching pending,
    [.getSessionSent v.uri (Verifier.outbound pending.name pending.material)]) := rfl
  have hanswer : v.act R i (.answered (.response response) now) s (.fetching pending) =
    some (v.closed R i pending (.response response) now s) := rfl
  refine ⟨s, ?_⟩
  rw [conversation, alone_act hstart, alone_act hslot', alone_act hresume, alone_act hanswer]
  simp only [Program.alone, Option.map_some, List.append_nil, List.nil_append]
  rfl

theorem closed_session {pending : Pending υ} {answer : Answer} {s : Shared ι} :
    .ended (.session found) ∈ (v.closed R i pending answer now s).2.2 ↔
      ∃ t, exec (v.closing R pending answer now) (Verifier.released i s) = (.ok found, t) := by
  rw [Verifier.closed]
  cases exec (v.closing R pending answer now) (Verifier.released i s) with
  | mk result t => cases result <;> simp [finish, eq_comm]

/-- A call that finds nothing in its way is decided by its credential and its answer. -/
theorem answers_iff {response : TransportResponse} (hr : Ready R v i w snapshot) :
    Answers R v i w (conversation snapshot userModel response now) found ↔
      ∃ pending record stored, Admitted R v (.remote snapshot) userModel pending ∧
        sessionDocumentFrom R response v.uri pending.marker pending.verified = .ok record ∧
        Attests record pending now found stored := by
  rw [Answers, replay_alone, hr.idle]
  cases ha : v.admitted R (.remote snapshot) userModel with
  | error exc =>
    rw [alone_refused ha]
    refine iff_of_false (by simp) ?_
    rintro ⟨pending, record, stored, hadm, -⟩
    cases ha.symm.trans (admitted_ok.mpr hadm)
  | ok pending =>
    obtain ⟨s, halone⟩ := alone_admitted response now hr ha
    simp only [halone, Option.some.injEq, exists_eq_left', List.mem_append, List.mem_singleton,
      reduceCtorEq, false_or, closed_session, closing_ok]
    constructor
    · rintro ⟨t, response', record, stored, he, hd, hs, -⟩
      cases he
      exact ⟨pending, record, stored, admitted_ok.mp ha, hd, hs⟩
    · rintro ⟨pending', record, stored, hadm', hd, hs⟩
      cases ha.symm.trans (admitted_ok.mpr hadm')
      exact ⟨_, response, record, stored, rfl, hd, hs, rfl⟩

/-- What the remote verifier admits, beside the limit on tokens, is what the cookie verifier takes
to its store. -/
theorem admitted_iff_signed (hs : v.secrets ≠ []) {pending : Pending υ} :
    Admitted R v (.remote snapshot) userModel pending ↔ ∃ material token,
      pending = ⟨v.names.base, material, token, fingerprint R token, true, userModel⟩ ∧
      resolveCookieValue R snapshot.pairs v.names.base = .ok material ∧
      Signed R v.secrets material token ∧ v.csrf.check snapshot.facts token = .none ∧
      token.length ≤ maxTokenBytes := by
  constructor
  · intro h
    obtain ⟨-, -, hlen, -⟩ := rungOne_ok.mp h.token
    have hsig := h.signed hs
    obtain ⟨hn, hv⟩ | ⟨-, hv, -⟩ := (rungTwo_ok h.token).mp h.verified
    · exact (hs hn).elim
    obtain ⟨snapshot', he, hm, hc⟩ := h.snapshot
    cases he
    refine ⟨pending.material, pending.token, ?_, hm, hsig, hc, hlen⟩
    rw [← h.name, ← h.marker, ← hv, ← h.userModel]
  · rintro ⟨material, token, rfl, hm, hsig, hc, hlen⟩
    obtain ⟨signature, hcut, hl⟩ := hsig.cut
    have hne : signature ≠ [] := by
      rintro rfl
      cases hl
    have hone : rungOne R material = .ok token :=
      rungOne_ok.mpr ⟨hsig.1, hsig.2.1, hlen, signature, hcut, hne⟩
    exact ⟨rfl, hone, rfl, (rungTwo_ok hone).mpr (.inr ⟨hs, rfl, hsig⟩), rfl, snapshot, rfl, hm, hc⟩

/-- Both modes extract the same pairs, and on the same document, where nothing but the document
and the cookie can decide, they find the same session or none. -/
theorem modes_agree (R : Runtime) (store : RedisSessionStore) (u : CookieVerifier.Verifier)
    (v : Verifier) (hnames : u.names = v.names) (hsecrets : u.secrets = v.secrets)
    (hcsrf : u.csrf = v.csrf) (hstore : u.store = sessionStore R store) :
    (∀ connection, ∃ found : Option Snapshot,
      u.extract connection = found.map .cookie ∧ v.extract connection = found.map .remote) ∧
    ∀ (snapshot : Snapshot) (userModel : UserModel υ) (now : Readings) (i : ι)
      (w : World ι (Shared ι) (Phase υ)) (response : TransportResponse),
      Held R store v.names snapshot response.content → Ready R v i w snapshot →
      response.statusCode = 200 → mediaType response = jsonMediaType →
      ∀ found, (exec (u.verify R (.cookie snapshot) userModel now) []).1 = .ok found ↔
        Answers R v i w (conversation snapshot userModel response now) found := by
  constructor
  · intro connection
    refine ⟨snapshotOf v.names v.csrf connection, ?_, rfl⟩
    rw [CookieVerifier.Verifier.extract, hnames, hcsrf]
  · intro snapshot userModel now i w response hheld hready hstatus hmedia found
    have hs : v.secrets ≠ [] := hsecrets ▸ u.keyed
    rw [CookieVerifier.verify_ok, answers_iff hready, hnames, hsecrets, hcsrf, hstore]
    simp only [admitted_iff_signed hs, sessionDocumentFrom_ok]
    obtain ⟨hlen, hheld⟩ := hheld
    have hfetch : ∀ {material token record},
        resolveCookieValue R snapshot.pairs v.names.base = .ok material →
        Signed R v.secrets material token →
        ((sessionStore R store).fetchSessionByToken token = .ok (some record) ↔
          ∃ document, R.loads (.bytes response.content) = some (.dict document) ∧
            parseSessionDocument R document = some record ∧ record.token = token) := by
      intro material token record hm hsig
      obtain ⟨signature, hcut, -⟩ := hsig.cut
      obtain ⟨-, held, hc, hst⟩ := hheld token (tokenOf_eq hm hcut)
      exact fetch_ok hlen hst hc
    constructor
    · rintro ⟨material, token, hm, hsig, hc, record, stored, parsed, hf, he, ho, hb, hp, rfl⟩
      obtain ⟨document, hl, hdoc, ht⟩ := (hfetch hm hsig).mp hf
      obtain ⟨signature, hcut, -⟩ := hsig.cut
      have hu : record.user = some stored := by
        obtain ho | ⟨hn, -⟩ := ho
        · exact ho
        · obtain ⟨⟨user, hu⟩, -⟩ := parseSessionDocument_spec R hdoc
          cases hn.symm.trans hu
      exact ⟨_, record, stored, ⟨material, token, rfl, hm, hsig, hc,
        (hheld token (tokenOf_eq hm hcut)).1⟩, ⟨hstatus, hmedia, document, hl, hdoc⟩,
        ⟨ht, he, hu, hb, parsed, hp, rfl⟩⟩
    · rintro ⟨pending, record, stored, ⟨material, token, rfl, hm, hsig, hc, -⟩,
        ⟨-, -, document, hl, hdoc⟩, ht, he, hu, hb, parsed, hp, rfl⟩
      exact ⟨material, token, hm, hsig, hc, record, stored, parsed,
        (hfetch hm hsig).mpr ⟨document, hl, hdoc, ht⟩, he, .inl hu, hb, hp, rfl⟩

section Sample

def sampleContent : Bytes := encodeUtf8 sampleText.toList

def sampleStore : RedisSessionStore :=
  ⟨[], 1048576, fun key => if key = sampleToken then .ok (.bytes sampleContent) else .ok .none⟩

def storedVerifier : CookieVerifier.Verifier :=
  ⟨sampleNames, [sampleSecret], sampleSecret_keys, samplePolicy,
    sessionStore sampleRuntime sampleStore⟩

def sampleResponse : TransportResponse :=
  ⟨200, [("content-type".toList, jsonMediaType)], sampleContent⟩

def readyWorld : World Nat (Shared Nat) (Phase Payload) :=
  ⟨{ Shared.initial 0 with probedOk := true }, fun _ => .idle⟩

theorem held_sample : Held sampleRuntime sampleStore sampleNames sampleSnapshot sampleContent := by
  refine ⟨by decide +kernel, fun token ht => ?_⟩
  have htoken : tokenOf sampleRuntime sampleNames sampleSnapshot = some sampleToken := by
    decide +kernel
  obtain rfl : sampleToken = token := Option.some.inj (htoken.symm.trans ht)
  exact ⟨by decide, .bytes sampleContent, rfl, .bytes⟩

theorem ready_sample : Ready sampleRuntime sampleVerifier 0 readyWorld sampleSnapshot := by
  refine ⟨rfl, fun material _ => ?_, ?_, rfl, by decide⟩
  · unfold holds
    split <;> rfl
  · rintro ⟨till, ht, -⟩
    cases ht

end Sample

theorem modes_agree_sample : ∃ found,
    (exec (storedVerifier.verify sampleRuntime (.cookie sampleSnapshot) sampleUser ⟨0, 0⟩) []).1 =
      .ok found ∧
    Answers sampleRuntime sampleVerifier 0 readyWorld
      (conversation sampleSnapshot sampleUser sampleResponse ⟨0, 0⟩) found := by
  have hok : (exec (storedVerifier.verify sampleRuntime (.cookie sampleSnapshot) sampleUser ⟨0, 0⟩)
      []).1.toBool = true := by decide +kernel
  cases hx : (exec (storedVerifier.verify sampleRuntime (.cookie sampleSnapshot) sampleUser ⟨0, 0⟩)
      []).1 with
  | error exc =>
    rw [hx] at hok
    cases hok
  | ok found =>
    have hagree := (modes_agree sampleRuntime sampleStore storedVerifier sampleVerifier rfl rfl rfl
      rfl).2 sampleSnapshot sampleUser ⟨0, 0⟩ 0 readyWorld sampleResponse held_sample ready_sample
      rfl (by decide) found
    exact ⟨found, rfl, hagree.mp hx⟩

end BetterAuthBridge.ModesAgree
