import BetterAuthBridge.RemoteInvariants

namespace BetterAuthBridge.RemoteSoundness

open Library Library.Runs Library.Tasks Values SessionDocument Models Csrf CookieParsing Signing
open RemoteResponse RemoteVerifier RemoteSections RemoteSteps RemoteInvariants

variable {ι υ : Type} [DecidableEq ι] {R : Runtime} {v : Verifier} {i : ι} {s t : Shared ι}
  {e : Event υ} {p q : Phase υ} {fs : List (Effect υ)} {found : Session υ}
  {tr : History ι υ} {w : World ι (Shared ι) (Phase υ)} {clock : Seconds}

/-- What a session that call `i` answers with in the step `x`, after the steps `a`, rests on: the
credential it was started with, its own request, sent after a passed probe, and the document that
request was answered with. -/
structure Grounds (R : Runtime) (v : Verifier) (i : ι) (a : History ι υ)
    (x : Transition (World ι (Shared ι) (Phase υ)) (Happening ι (Event υ) Seconds) (Effect υ))
    (found : Session υ) (snapshot : Snapshot) (userModel : UserModel υ) (material token : Text)
    (document : Payload) (record : StoredSession) (stored : StoredUser) : Prop where
  started : ∃ y ∈ a, y.event = .act i (.start (.verify (.remote snapshot) userModel))
  presented : resolveCookieValue R snapshot.pairs v.names.base = .ok material
  divided : rungOne R material = .ok token
  allowed : v.csrf.check snapshot.facts token = .none
  signed : v.secrets ≠ [] → Signed R v.secrets material token
  sent : ∃ b y c, a = b ++ y :: c ∧ Probed R v b ∧ Did i (.getSessionSent v.uri
    [("cookie", v.names.base ++ '=' :: material), ("accept", "application/json".toList)]) y
  answered : ∃ response now, x.event = .act i (.answered (.response response) now) ∧
    response.statusCode = 200 ∧ mediaType response = jsonMediaType ∧
    R.loads (.bytes response.content) = some (.dict document) ∧
    now.atExpiry < record.expiresAt.instant ∧ banned stored now.atBan = false
  read : parseSessionDocument R document = some record
  same : record.token = token
  user : record.user = some stored
  built : ∃ parsed, userModel.modelValidate stored.payload = .valid parsed ∧
    found = ⟨parsed, some record.expiresAt, some token, record.impersonatedBy, record.payload⟩

/-- Every session has its grounds, and no cookie is forwarded before a probe has passed. -/
structure Sound (R : Runtime) (v : Verifier) (tr : History ι υ) : Prop where
  grounded : ∀ a x b i found, tr = a ++ x :: b → Did i (.ended (.session found)) x →
    ∃ snapshot userModel material token document record stored,
      Grounds R v i a x found snapshot userModel material token document record stored
  probed : ∀ a x b i uri headers, tr = a ++ x :: b → Did i (.getSessionSent uri headers) x →
    Probed R v a

/-- A session that a call ends with has its grounds in the steps before. -/
theorem grounded_of_ended {a b : History ι υ}
    {x : Transition (World ι (Shared ι) (Phase υ)) (Happening ι (Event υ) Seconds) (Effect υ)}
    (h : Run (v.machine R) (Verifier.start clock) (a ++ x :: b) w)
    (hd : Did i (.ended (.session found)) x) :
    ∃ snapshot userModel material token document record stored,
      Grounds R v i a x found snapshot userModel material token document record stored := by
  obtain ⟨⟨e, he⟩, hf⟩ := hd
  obtain ⟨hr, hx, -⟩ := h.at
  have hm := moves_of_event hx he
  obtain ⟨pending, response, now, record, stored, hp, rfl, hd, hs⟩ := hm.sessionEnded hf
  have hi := (stands hr).2 i
  rw [hp] at hi
  obtain ⟨y, hy, credential, userModel, hstart, hadm⟩ := hi.began pending rfl
  obtain ⟨snapshot, rfl, hmat, hcsrf⟩ := hadm.snapshot
  obtain ⟨hstatus, hmedia, document, hload, hparse⟩ := sessionDocumentFrom_ok.mp hd
  obtain ⟨c, z, d, hc, hprobed, hsent⟩ := hi.asked pending rfl
  obtain ⟨parsed, hvalid, hfound⟩ := hs.built
  rw [Verifier.outbound, hadm.name] at hsent
  rw [hadm.userModel] at hvalid
  exact ⟨snapshot, userModel, pending.material, pending.token, document, record, stored,
    ⟨y, hy, hstart⟩, hmat, hadm.token, hcsrf, hadm.signed, ⟨c, z, d, hc, hprobed, hsent⟩,
    ⟨response, now, he, hstatus, hmedia, hload, hs.unexpired, hs.unbanned⟩, hparse, hs.token,
    hs.user, parsed, hvalid, hfound⟩

theorem sound (R : Runtime) (v : Verifier) (clock : Seconds)
    (h : Run (v.machine R) (Verifier.start clock) tr w) : Sound R v tr := by
  constructor
  · rintro a x b i found rfl hd
    exact grounded_of_ended h hd
  · rintro a x b i uri headers rfl ⟨⟨e, he⟩, hf⟩
    obtain ⟨hr, hx, -⟩ := h.at
    have hm := moves_of_event hx he
    obtain ⟨hs, hi⟩ := stands hr
    exact hs.proven ((hi i).ready (hm.requestSent hf))

section Sample

def sampleSecret : SharedSecret := ⟨"0123456789abcdef0123456789abcdef".toList⟩

theorem sampleSecret_keys : [sampleSecret] ≠ [] := List.cons_ne_nil _ _

def sampleToken : Text := "tok1".toList

def sampleMaterial : Text := "tok1.jwntk6FFhPjp7njpyj0Pu0C4dLMTP23uYTDhq8uZzuM%3D".toList

def sampleSignature : Digest := ⟨[143, 9, 237, 147, 161, 69, 132, 248, 233, 238, 120, 233, 202,
  61, 15, 187, 64, 184, 116, 179, 19, 63, 109, 238, 97, 48, 225, 171, 203, 153, 206, 227], rfl⟩

def tokenDigest : Digest := ⟨[128, 179, 173, 45, 67, 139, 250, 250, 30, 166, 144, 197, 165, 159,
  84, 84, 141, 204, 118, 173, 106, 131, 156, 103, 4, 172, 29, 157, 86, 93, 156, 128], rfl⟩

def materialDigest : Digest := ⟨[236, 88, 91, 128, 85, 87, 245, 186, 123, 128, 90, 114, 44, 202,
  177, 152, 3, 154, 223, 140, 32, 243, 185, 27, 44, 128, 229, 219, 100, 71, 2, 83], rfl⟩

def sampleText : String :=
  "\x7b\"session\":\x7b\"token\":\"tok1\",\"userId\":\"u1\","
    ++ "\"expiresAt\":\"2030-01-01T00:00:00.000Z\"\x7d,"
    ++ "\"user\":\x7b\"id\":\"u1\"\x7d\x7d"

def sampleDocument : Payload :=
  [(ofString "session", .dict [(ofString "token", .str (ofString "tok1")),
      (ofString "userId", .str (ofString "u1")),
      (ofString "expiresAt", .str (ofString "2030-01-01T00:00:00.000Z"))]),
    (ofString "user", .dict [(ofString "id", .str (ofString "u1"))])]

def sampleRuntime : Runtime where
  hmacSha256 key message :=
    if key = encodeUtf8 sampleSecret.value ∧ message = encodeUtf8 sampleToken then sampleSignature
    else default
  sha256 message := if message = encodeUtf8 sampleToken then tokenDigest
    else if message = encodeUtf8 sampleMaterial then materialDigest else default
  loads
    | .bytes b =>
      if b = encodeUtf8 "null".toList then some .none
      else if b = encodeUtf8 sampleText.toList then some (.dict sampleDocument) else none
    | .str s => if s = ofString sampleText then some (.dict sampleDocument) else none
  fromisoformat s := if s = ofString "2030-01-01T00:00:00.000+00:00" then
    some ⟨1893456000000000, some 0⟩ else none
  repr t := "'" ++ String.ofList t ++ "'"

def sampleNames : CookieNames :=
  ⟨defaultCookieName, defaultSecurePrefix, true, by decide, by decide⟩

def samplePolicy : CsrfPolicy := ⟨"SamplePolicy", none, fun _ _ => .none⟩

def sampleSnapshot : Snapshot :=
  ⟨[(sampleNames.base, sampleMaterial)], ⟨some "GET", none, 0, none, none, none, false⟩⟩

def sampleUser : UserModel Payload := ⟨"User", fun payload => .valid payload⟩

def sampleVerifier : Verifier where
  names := sampleNames
  secrets := [sampleSecret]
  csrf := samplePolicy
  uri := "https://auth.example/api/auth/get-session?disableCookieCache=true"
  transportName := "HttpxTransport"
  negativeTtl := 30
  maxRemembered := 1024
  concurrency := 8
  queueTimeout := .finite 2
  queueTimeoutShown := "2.0"
  maxBytes := 1048576
  refuseUnsignedBearer := false

def jsonAnswer (text : String) : Answer :=
  .response ⟨200, [("content-type".toList, jsonMediaType)], encodeUtf8 text.toList⟩

def sampleEvents (i : Nat) : List (Happening Nat (Event Payload) Seconds) :=
  [.start (.verify (.remote sampleSnapshot) sampleUser), .lockAcquired, .lockResumed,
    .probeAnswered (jsonAnswer "null"), .advised (jsonAnswer "null"), .slotAcquired, .slotResumed,
    .answered (jsonAnswer sampleText) ⟨1800000000000000, 1800000000000000⟩].map (.act i)

def endsInSession : Effect Payload → Bool
  | .ended (.session _) => true
  | _ => false

end Sample

/-- A call that probes, sends its request and is answered with a session. -/
theorem sound_sample : ∃ (tr : History Nat Payload) (w : World Nat (Shared Nat) (Phase Payload)),
    Run (sampleVerifier.machine sampleRuntime) (Verifier.start 0) tr w ∧
      (tr.any fun x => x.effects.any endsInSession) = true ∧
      Sound sampleRuntime sampleVerifier tr := by
  have h : ((replay (sampleVerifier.machine sampleRuntime) (Verifier.start 0) (sampleEvents 0)).any
      fun r => r.1.any fun x => x.effects.any endsInSession) = true := by decide +kernel
  obtain ⟨tr, w, hr, hs⟩ :=
    Run.of_replay_any (P := fun tr => tr.any fun x => x.effects.any endsInSession) h
  exact ⟨tr, w, hr, hs, sound _ _ _ hr⟩

end BetterAuthBridge.RemoteSoundness
