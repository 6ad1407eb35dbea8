import BetterAuthBridge.Errors
import BetterAuthBridge.Library.Procedure

namespace BetterAuthBridge.Dispatch

open Library.Procedure Errors

variable {ρ κ σ υ : Type}

/-- What `extract` returned, as the dispatcher sees it. An unreadable object raises when it is
looked at or closed. -/
inductive Extracted (κ : Type)
  | nothing
  | credential (credential : κ)
  | awaitable
  | unreadable (exc : Exn)

/-- What awaiting `verify` gave: a session, with what reading its user gives, or something else. -/
inductive Answer (σ υ : Type)
  | session (session : σ) (user : Except Exn υ)
  | other (typeName : String)
  | unreadable (exc : Exn)

inductive Returned (σ υ : Type)
  | plain
  | awaitable (answer : Except Exn (Answer σ υ))

structure UserModel (υ : Type) where
  name : String
  isInstance : υ → Bool
  typeName : υ → String

structure Verifier (ρ κ σ υ : Type) where
  className : String
  credentialSource : String
  extract : ρ → Except Exn (Extracted κ)
  verify : κ → UserModel υ → Except Exn (Returned σ υ)

/-- A session whose user is of the requested model. -/
structure Session (σ : Type) (userModel : UserModel υ) where
  object : σ
  user : υ
  isInstance : userModel.isInstance user = true

inductive Call (ρ κ σ υ : Type)
  | extract (verifier : Verifier ρ κ σ υ)
  | verify (verifier : Verifier ρ κ σ υ) (credential : κ)

abbrev Dispatching (ρ κ σ υ α : Type) := Proc Exn (List (Call ρ κ σ υ)) α

def contained (exc : Exn) (name method : String) : Exn :=
  invalidCredential s!"{exc.className} escaped {name}.{method}"

def resolved (exc : Exn) (name method : String) (honoured : Exn → Bool) : Exn :=
  if honoured (unwrapped exc) then unwrapped exc else contained (unwrapped exc) name method

/-- What comes of an exception: it passes as it was raised where it is honoured, and is resolved
where it is not. -/
def escaped (exc : Exn) (name method : String) (honoured : Exn → Bool) : Exn :=
  if honoured exc then exc else resolved exc name method honoured

namespace Verifier

variable (v : Verifier ρ κ σ υ)

def presence : Extracted κ → Except Exn (Option κ)
  | .nothing => pure none
  | .credential credential => pure (some credential)
  | .awaitable => throw (configurationError
      (s!"{v.className}.extract() returned an awaitable. extract() is a synchronous presence check,"
        ++ " and an awaitable is never None, so this verifier would claim every request. Declare it"
        ++ " with `def` - and note that a decorator hides an `async def` from the check made at"
        ++ " construction."))
  | .unreadable exc => throw exc

def extracted (connection : ρ) : Except Exn (Option κ) :=
  match v.extract connection with
  | .ok credential => v.presence credential
  | .error exc =>
    if exc.isBetterAuth then throw exc
    else throw (resolved exc v.className "extract" Exn.isBetterAuth)

def awaited (credential : κ) (userModel : UserModel υ) : Except Exn (Answer σ υ) := do
  match ← v.verify credential userModel with
  | .plain => throw (configurationError
      s!"{v.className}.verify() did not return an awaitable. Declare it with `async def`.")
  | .awaitable answer => answer

def verified (credential : κ) (userModel : UserModel υ) : Except Exn (Answer σ υ) :=
  match v.awaited credential userModel with
  | .ok answer => pure answer
  | .error exc =>
    if exc.isLibrary then throw exc
    else throw (resolved exc v.className "verify" Exn.isLibrary)

def checked (userModel : UserModel υ) : Answer σ υ → Except Exn (Session σ userModel)
  | .session session user => do
    let user ← user
    if h : userModel.isInstance user = true then pure ⟨session, user, h⟩
    else throw (configurationError
      (s!"{v.className}.verify() ignored user_model: it returned a {userModel.typeName user} where"
        ++ s!" {userModel.name} was asked for."))
  | .other typeName => throw (configurationError
      (s!"{v.className}.verify() returned {typeName} for a credential it accepted; it must return a"
        ++ " Session or raise a SessionError."))
  | .unreadable exc => throw exc

def settled (credential : κ) (userModel : UserModel υ) : Except Exn (Session σ userModel) := do
  let answer ← v.verified credential userModel
  v.checked userModel answer

def named : String := s!"{v.className}({v.credentialSource})"

end Verifier

def ambiguity (names : List String) : String :=
  s!"{names.length} credentials presented at once: " ++ ", ".intercalate names

def nothingPresented (verifiers : List (Verifier ρ κ σ υ)) : String :=
  "no credential presented; verifiers asked: " ++ ", ".intercalate (verifiers.map Verifier.named)

def collected (connection : ρ) (presented : List (Verifier ρ κ σ υ × κ)) :
    List (Verifier ρ κ σ υ) → Dispatching ρ κ σ υ (List (Verifier ρ κ σ υ × κ))
  | [] => pure presented
  | v :: verifiers => do
    modify (· ++ [.extract v])
    match ← check (v.extracted connection) with
    | some credential => collected connection (presented ++ [(v, credential)]) verifiers
    | none => collected connection presented verifiers

def authenticate (verifiers : List (Verifier ρ κ σ υ)) (connection : ρ) (userModel : UserModel υ) :
    Dispatching ρ κ σ υ (Option (Session σ userModel)) := do
  match ← collected connection [] verifiers with
  | [] => pure none
  | [(chosen, credential)] => do
    modify (· ++ [.verify chosen credential])
    let session ← check (chosen.settled credential userModel)
    pure (some session)
  | presented => throw (ambiguousCredentials (ambiguity (presented.map fun p => p.1.named)))

def required (verifiers : List (Verifier ρ κ σ υ)) {userModel : UserModel υ} :
    Option (Session σ userModel) → Except Exn (Session σ userModel)
  | some session => pure session
  | none => throw (missingCredential (nothingPresented verifiers))

def dispatch (verifiers : List (Verifier ρ κ σ υ)) (connection : ρ) (userModel : UserModel υ) :
    Except Exn (Option (Session σ userModel)) × List (Call ρ κ σ υ) :=
  exec (authenticate verifiers connection userModel) []

def optionalSession (verifiers : List (Verifier ρ κ σ υ)) (connection : ρ)
    (userModel : UserModel υ) : Except Exn (Option (Session σ userModel)) :=
  (dispatch verifiers connection userModel).1

def currentSession (verifiers : List (Verifier ρ κ σ υ)) (connection : ρ)
    (userModel : UserModel υ) : Except Exn (Session σ userModel) := do
  required verifiers (← (dispatch verifiers connection userModel).1)

def Quiet (connection : ρ) (v : Verifier ρ κ σ υ) : Prop :=
  v.extract connection = .ok .nothing ∨
    ∃ credential, v.extract connection = .ok (.credential credential)

def found (connection : ρ) (vs : List (Verifier ρ κ σ υ)) : List (Verifier ρ κ σ υ × κ) :=
  vs.filterMap fun v =>
    match v.extract connection with
    | .ok (.credential credential) => some (v, credential)
    | _ => none

inductive Dispatches (vs : List (Verifier ρ κ σ υ)) (connection : ρ) (userModel : UserModel υ) :
    Except Exn (Option (Session σ userModel)) → List (Call ρ κ σ υ) → Prop
  | anonymous : (∀ v ∈ vs, Quiet connection v) → found connection vs = [] →
      Dispatches vs connection userModel (.ok none) (vs.map .extract)
  | settled {v credential} : (∀ v ∈ vs, Quiet connection v) →
      found connection vs = [(v, credential)] →
      Dispatches vs connection userModel (some <$> v.settled credential userModel)
        (vs.map .extract ++ [.verify v credential])
  | ambiguous : (∀ v ∈ vs, Quiet connection v) → 2 ≤ (found connection vs).length →
      Dispatches vs connection userModel
        (.error (ambiguousCredentials (ambiguity ((found connection vs).map fun p => p.1.named))))
        (vs.map .extract)
  | stopped {a v b exc} : vs = a ++ v :: b → (∀ u ∈ a, Quiet connection u) →
      ¬ Quiet connection v → v.extracted connection = .error exc →
      Dispatches vs connection userModel (.error exc) ((a ++ [v]).map .extract)

variable {v : Verifier ρ κ σ υ} {vs : List (Verifier ρ κ σ υ)} {connection : ρ}
  {userModel : UserModel υ} {credential : κ} {exc : Exn}

theorem extracted_loud (h : ¬ Quiet connection v) : ∃ exc, v.extracted connection = .error exc := by
  unfold Verifier.extracted
  cases he : v.extract connection with
  | error exc =>
    by_cases hb : exc.isBetterAuth = true
    · exact ⟨exc, by simp [hb]⟩
    · exact ⟨_, by simp [hb]; rfl⟩
  | ok credential =>
    cases credential with
    | nothing => exact absurd (.inl he) h
    | credential credential => exact absurd (.inr ⟨credential, he⟩) h
    | awaitable => exact ⟨_, rfl⟩
    | unreadable exc => exact ⟨exc, rfl⟩

theorem exec_collected_cons (presented : List (Verifier ρ κ σ υ × κ))
    (calls : List (Call ρ κ σ υ)) :
    exec (collected connection presented (v :: vs)) calls =
      match v.extracted connection with
      | .ok (some credential) =>
        exec (collected connection (presented ++ [(v, credential)]) vs) (calls ++ [.extract v])
      | .ok none => exec (collected connection presented vs) (calls ++ [.extract v])
      | .error exc => (.error exc, calls ++ [.extract v]) := by
  rw [collected, exec_bind, exec_modify]
  dsimp only
  rw [exec_check_bind]
  cases v.extracted connection with
  | error exc => rfl
  | ok found => cases found <;> rfl

/-- The loop asks every verifier, or stops at the first whose extraction has no answer. -/
theorem exec_collected (vs : List (Verifier ρ κ σ υ)) (connection : ρ)
    (presented : List (Verifier ρ κ σ υ × κ)) (calls : List (Call ρ κ σ υ)) :
    ((∀ v ∈ vs, Quiet connection v) ∧ exec (collected connection presented vs) calls =
      (.ok (presented ++ found connection vs), calls ++ vs.map .extract)) ∨
    ∃ a v b exc, vs = a ++ v :: b ∧ (∀ u ∈ a, Quiet connection u) ∧ ¬ Quiet connection v ∧
      v.extracted connection = .error exc ∧ exec (collected connection presented vs) calls =
        (.error exc, calls ++ (a ++ [v]).map .extract) := by
  induction vs generalizing presented calls with
  | nil => exact .inl ⟨by simp, by simp [collected, found]⟩
  | cons v vs ih =>
    rw [exec_collected_cons]
    by_cases hq : Quiet connection v
    · obtain hn | ⟨credential, hc⟩ := id hq
      · have he : v.extracted connection = .ok none := by
          simp [Verifier.extracted, Verifier.presence, hn]
        rw [he]
        obtain ⟨hall, hx⟩ | ⟨a, u, b, exc, rfl, ha, hu, hue, hx⟩ :=
          ih presented (calls ++ [.extract v])
        · refine .inl ⟨List.forall_mem_cons.mpr ⟨hq, hall⟩, ?_⟩
          simp [hx, found, hn]
        · refine .inr ⟨v :: a, u, b, exc, rfl, List.forall_mem_cons.mpr ⟨hq, ha⟩, hu, hue, ?_⟩
          simp [hx]
      · have he : v.extracted connection = .ok (some credential) := by
          simp [Verifier.extracted, Verifier.presence, hc]
        rw [he]
        obtain ⟨hall, hx⟩ | ⟨a, u, b, exc, rfl, ha, hu, hue, hx⟩ :=
          ih (presented ++ [(v, credential)]) (calls ++ [.extract v])
        · refine .inl ⟨List.forall_mem_cons.mpr ⟨hq, hall⟩, ?_⟩
          simp [hx, found, hc]
        · refine .inr ⟨v :: a, u, b, exc, rfl, List.forall_mem_cons.mpr ⟨hq, ha⟩, hu, hue, ?_⟩
          simp [hx]
    · obtain ⟨exc, he⟩ := extracted_loud hq
      rw [he]
      exact .inr ⟨[], v, vs, exc, rfl, by simp, hq, he, rfl⟩

theorem dispatches (vs : List (Verifier ρ κ σ υ)) (connection : ρ) (userModel : UserModel υ) :
    Dispatches vs connection userModel (dispatch vs connection userModel).1
      (dispatch vs connection userModel).2 := by
  rw [dispatch, authenticate, exec_bind]
  obtain ⟨hall, hx⟩ | ⟨a, v, b, exc, hvs, ha, hv, he, hx⟩ := exec_collected vs connection [] []
  · rw [hx]
    simp only [List.nil_append]
    cases hf : found connection vs with
    | nil => exact .anonymous hall hf
    | cons p ps =>
      cases ps with
      | nil =>
        obtain ⟨v, credential⟩ := p
        have hs : Dispatches vs connection userModel _ _ := .settled hall hf
        simp only [exec_bind, exec_modify, exec_check]
        cases hset : v.settled credential userModel with
        | ok session =>
          rw [hset] at hs
          exact hs
        | error exc =>
          rw [hset] at hs
          exact hs
      | cons q qs =>
        have hm : Dispatches vs connection userModel _ _ := .ambiguous hall (by simp [hf])
        rw [hf] at hm
        exact hm
  · rw [hx]
    exact .stopped hvs ha hv he

def Verifier.Raises (v : Verifier ρ κ σ υ) (credential : κ) (userModel : UserModel υ) (exc : Exn) :
    Prop :=
  v.verify credential userModel = .error exc ∨
    v.verify credential userModel = .ok (.awaitable (.error exc))

def Answer.Readable : Answer σ υ → Prop
  | .session _ user => ∃ u, user = .ok u
  | .other _ => True
  | .unreadable _ => False

theorem escaped_isLibrary (exc : Exn) (name method : String) :
    (escaped exc name method Exn.isLibrary).isLibrary = true := by
  unfold escaped resolved
  split
  · assumption
  · split
    · assumption
    · rfl

theorem escaped_isMissing (exc : Exn) (name method : String) :
    (escaped exc name method Exn.isLibrary).isMissing =
      (delivered Exn.isLibrary exc).isMissing := by
  unfold escaped delivered resolved
  split
  · rfl
  · split
    · rfl
    · rename_i h
      have hn : (unwrapped exc).isMissing ≠ true := fun hm => h (Exn.isLibrary_of_isMissing hm)
      exact (eq_false_of_ne_true hn).symm

theorem verified_raised (h : v.Raises credential userModel exc) :
    v.verified credential userModel =
      .error (escaped exc v.className "verify" Exn.isLibrary) := by
  have ha : v.awaited credential userModel = .error exc := by
    obtain h | h := h <;> simp [Verifier.awaited, h]
  rw [Verifier.verified, ha, escaped]
  by_cases hl : exc.isLibrary = true
  · simp only [hl, if_true, throw_eq_error]
  · simp only [hl, if_false, throw_eq_error, Bool.false_eq_true]

theorem verified_cases (v : Verifier ρ κ σ υ) (credential : κ) (userModel : UserModel υ) :
    (∃ exc, v.Raises credential userModel exc) ∨
    (∃ message, v.verified credential userModel = .error (configurationError message)) ∨
    ∃ answer, v.verify credential userModel = .ok (.awaitable (.ok answer)) ∧
      v.verified credential userModel = .ok answer := by
  cases h : v.verify credential userModel with
  | error exc => exact .inl ⟨exc, .inl h⟩
  | ok returned =>
    cases returned with
    | plain =>
      have hv : v.verified credential userModel = .error (configurationError
          s!"{v.className}.verify() did not return an awaitable. Declare it with `async def`.") :=
        by
        rw [Verifier.verified, Verifier.awaited, h]
        rfl
      exact .inr (.inl ⟨_, hv⟩)
    | awaitable answer =>
      cases answer with
      | error exc => exact .inl ⟨exc, .inr h⟩
      | ok answer =>
        exact .inr (.inr ⟨answer, rfl, by simp [Verifier.verified, Verifier.awaited, h]⟩)

theorem checked_cases (v : Verifier ρ κ σ υ) (userModel : UserModel υ) {answer : Answer σ υ}
    (h : answer.Readable) :
    (∃ session, v.checked userModel answer = .ok session ∧
      answer = .session session.object (.ok session.user)) ∨
    ∃ message, v.checked userModel answer = .error (configurationError message) := by
  cases answer with
  | session session user =>
    obtain ⟨u, rfl⟩ := h
    by_cases hi : userModel.isInstance u = true
    · exact .inl ⟨⟨session, u, hi⟩, by simp [Verifier.checked, hi], rfl⟩
    · exact .inr ⟨_, by simp [Verifier.checked, hi]; rfl⟩
  | other typeName => exact .inr ⟨_, rfl⟩
  | unreadable exc => cases h

theorem checked_ok {answer : Answer σ υ} {session : Session σ userModel}
    (h : v.checked userModel answer = .ok session) :
    answer = .session session.object (.ok session.user) := by
  cases answer with
  | session object user =>
    cases user with
    | error exc => cases h
    | ok u =>
      by_cases hi : userModel.isInstance u = true
      · simp only [Verifier.checked, ok_bind, dif_pos hi, pure_eq_ok] at h
        cases h
        rfl
      · simp [Verifier.checked, hi] at h
  | other typeName => cases h
  | unreadable exc => cases h

theorem settled_ok {session : Session σ userModel}
    (h : v.settled credential userModel = .ok session) :
    v.verify credential userModel =
      .ok (.awaitable (.ok (.session session.object (.ok session.user)))) := by
  obtain ⟨answer, ha, hc⟩ := bind_eq_ok.mp h
  obtain ⟨exc, hr⟩ | ⟨message, hv⟩ | ⟨answer', hv, ha'⟩ := verified_cases v credential userModel
  · cases (verified_raised hr).symm.trans ha
  · cases hv.symm.trans ha
  · cases ha'.symm.trans ha
    rw [hv, checked_ok hc]

theorem settled_error
    (hr : ∀ answer, v.verify credential userModel = .ok (.awaitable (.ok answer)) → answer.Readable)
    (h : v.settled credential userModel = .error exc) :
    (∃ raised, v.Raises credential userModel raised ∧
      exc = escaped raised v.className "verify" Exn.isLibrary) ∨
    ∃ message, exc = configurationError message := by
  unfold Verifier.settled at h
  obtain ⟨raised, hraised⟩ | ⟨message, hv⟩ | ⟨answer, hv, ha⟩ :=
    verified_cases v credential userModel
  · rw [verified_raised hraised] at h
    cases h
    exact .inl ⟨raised, hraised, rfl⟩
  · rw [hv] at h
    cases h
    exact .inr ⟨message, rfl⟩
  · rw [ha, ok_bind] at h
    obtain ⟨session, hc, -⟩ | ⟨message, hc⟩ := checked_cases v userModel (hr answer hv)
    · cases hc.symm.trans h
    · cases hc.symm.trans h
      exact .inr ⟨message, rfl⟩

/-- A verifier whose extraction has no answer stops the request with an error of the library, and
not for want of a credential. -/
theorem extracted_error (hr : ∀ e, v.extract connection ≠ .ok (.unreadable e))
    (h : v.extracted connection = .error exc) : exc.isLibrary = true ∧ exc.isMissing = false := by
  have ofBetterAuth : ∀ {e : Exn}, e.isBetterAuth = true →
      e.isLibrary = true ∧ e.isMissing = false := by
    intro e he
    cases e with
    | betterAuth kind name message => exact ⟨rfl, rfl⟩
    | _ => cases he
  unfold Verifier.extracted at h
  cases he : v.extract connection with
  | error raised =>
    rw [he] at h
    dsimp only at h
    split at h
    · cases h
      exact ofBetterAuth ‹_›
    · cases h
      unfold resolved
      split
      · exact ofBetterAuth ‹_›
      · exact ⟨rfl, rfl⟩
  | ok found =>
    rw [he] at h
    cases found with
    | nothing => cases h
    | credential credential => cases h
    | awaitable =>
      cases h
      exact ⟨rfl, rfl⟩
    | unreadable e => exact absurd he (hr e)

def Call.isVerify : Call ρ κ σ υ → Bool
  | .extract _ => false
  | .verify .. => true

/-- Nothing that these calls returned raises when it is looked at. -/
structure Readable (calls : List (Call ρ κ σ υ)) (connection : ρ) (userModel : UserModel υ) :
    Prop where
  credentials : ∀ v, .extract v ∈ calls → ∀ exc, v.extract connection ≠ .ok (.unreadable exc)
  answers : ∀ v credential, .verify v credential ∈ calls → ∀ answer,
    v.verify credential userModel = .ok (.awaitable (.ok answer)) → answer.Readable

/-- What one request meets, whatever its verifiers do. -/
structure Contract (vs : List (Verifier ρ κ σ υ)) (connection : ρ) (userModel : UserModel υ) :
    Prop where
  single : ((dispatch vs connection userModel).2.filter Call.isVerify).length ≤ 1
  final : ∀ v credential, .verify v credential ∈ (dispatch vs connection userModel).2 →
    (∀ u ∈ vs, Quiet connection u) ∧ found connection vs = [(v, credential)] ∧
      (dispatch vs connection userModel).2 = vs.map .extract ++ [.verify v credential] ∧
      currentSession vs connection userModel = v.settled credential userModel ∧
      optionalSession vs connection userModel = some <$> v.settled credential userModel
  ambiguous : (∀ v ∈ vs, Quiet connection v) → 2 ≤ (found connection vs).length →
    ∃ reason, currentSession vs connection userModel = .error (ambiguousCredentials reason) ∧
      optionalSession vs connection userModel = .error (ambiguousCredentials reason) ∧
      ∀ v credential, .verify v credential ∉ (dispatch vs connection userModel).2
  stopped : ∀ a v b, vs = a ++ v :: b → (∀ u ∈ a, Quiet connection u) → ¬ Quiet connection v →
    (dispatch vs connection userModel).2 = (a ++ [v]).map .extract ∧
      ∃ exc, currentSession vs connection userModel = .error exc ∧
        optionalSession vs connection userModel = .error exc
  anonymous : optionalSession vs connection userModel = .ok none ↔
    ∀ v ∈ vs, v.extract connection = .ok .nothing
  missing : Readable (dispatch vs connection userModel).2 connection userModel →
    ((∃ exc, currentSession vs connection userModel = .error exc ∧ exc.isMissing = true) ↔
      (∀ v ∈ vs, v.extract connection = .ok .nothing) ∨
      ∃ v credential exc, .verify v credential ∈ (dispatch vs connection userModel).2 ∧
        v.Raises credential userModel exc ∧ (delivered Exn.isLibrary exc).isMissing = true)
  sessions : ∀ session, currentSession vs connection userModel = .ok session ↔
    optionalSession vs connection userModel = .ok (some session)
  vouched : ∀ session, optionalSession vs connection userModel = .ok (some session) →
    userModel.isInstance session.user = true ∧ ∃ v credential,
      .verify v credential ∈ (dispatch vs connection userModel).2 ∧
      v.verify credential userModel =
        .ok (.awaitable (.ok (.session session.object (.ok session.user))))
  library : Readable (dispatch vs connection userModel).2 connection userModel → ∀ exc,
    currentSession vs connection userModel = .error exc ∨
      optionalSession vs connection userModel = .error exc → exc.isLibrary = true

theorem verify_notMem {l : List (Verifier ρ κ σ υ)} :
    (.verify v credential : Call ρ κ σ υ) ∉ l.map .extract := by
  simp

theorem found_eq_nil (h : ∀ v ∈ vs, Quiet connection v) :
    found connection vs = [] ↔ ∀ v ∈ vs, v.extract connection = .ok .nothing := by
  rw [found, List.filterMap_eq_nil_iff]
  refine forall₂_congr fun v hv => ?_
  obtain hn | ⟨credential, hc⟩ := h v hv
  · simp [hn]
  · simp [hc]

theorem mem_of_found (h : found connection vs = [(v, credential)]) : v ∈ vs := by
  have hm : (v, credential) ∈ found connection vs := by simp [h]
  obtain ⟨u, hu, he⟩ := List.mem_filterMap.mp hm
  split at he
  · cases he
    exact hu
  · cases he

theorem split_first {a b a' b' : List (Verifier ρ κ σ υ)} {u : Verifier ρ κ σ υ}
    (h : a ++ v :: b = a' ++ u :: b') (ha : ∀ w ∈ a, Quiet connection w) (hv : ¬ Quiet connection v)
    (ha' : ∀ w ∈ a', Quiet connection w) (hu : ¬ Quiet connection u) : a = a' ∧ v = u := by
  induction a generalizing a' with
  | nil =>
    cases a' with
    | nil =>
      cases h
      exact ⟨rfl, rfl⟩
    | cons w a' =>
      cases h
      exact absurd (ha' v List.mem_cons_self) hv
  | cons w a ih =>
    cases a' with
    | nil =>
      cases h
      exact absurd (ha u List.mem_cons_self) hu
    | cons w' a' =>
      obtain ⟨rfl, ht⟩ := List.cons.inj h
      obtain ⟨rfl, rfl⟩ := ih ht (fun x hx => ha x (List.mem_cons_of_mem _ hx))
        (fun x hx => ha' x (List.mem_cons_of_mem _ hx))
      exact ⟨rfl, rfl⟩

section

variable {outcome : Except Exn (Option (Session σ userModel))} {calls : List (Call ρ κ σ υ)}

theorem Dispatches.single (h : Dispatches vs connection userModel outcome calls) :
    (calls.filter Call.isVerify).length ≤ 1 := by
  have hnone : ∀ l : List (Verifier ρ κ σ υ), (l.map Call.extract).filter Call.isVerify = [] := by
    intro l
    simp [List.filter_map, Function.comp_def, Call.isVerify]
  cases h with
  | settled =>
    rw [List.filter_append, hnone, List.nil_append]
    exact List.length_filter_le ..
  | anonymous | ambiguous | stopped => simp only [hnone, List.length_nil, Nat.zero_le]

theorem Dispatches.of_verify (h : Dispatches vs connection userModel outcome calls)
    (hm : .verify v credential ∈ calls) :
    (∀ u ∈ vs, Quiet connection u) ∧ found connection vs = [(v, credential)] ∧
      calls = vs.map .extract ++ [.verify v credential] ∧
      outcome = some <$> v.settled credential userModel := by
  cases h with
  | settled hq hf =>
    obtain hm | hm := List.mem_append.mp hm
    · exact absurd hm verify_notMem
    · cases List.mem_singleton.mp hm
      exact ⟨hq, hf, rfl, rfl⟩
  | anonymous | ambiguous | stopped => exact absurd hm verify_notMem

theorem Dispatches.of_two (h : Dispatches vs connection userModel outcome calls)
    (hq : ∀ v ∈ vs, Quiet connection v) (hf : 2 ≤ (found connection vs).length) :
    ∃ reason, outcome = .error (ambiguousCredentials reason) ∧ calls = vs.map .extract := by
  cases h with
  | anonymous _ hn => simp [hn] at hf
  | settled _ hn => simp [hn] at hf
  | ambiguous => exact ⟨_, rfl, rfl⟩
  | stopped hvs _ hv => exact absurd (hq _ (by simp [hvs])) hv

theorem Dispatches.of_loud (h : Dispatches vs connection userModel outcome calls)
    {a b : List (Verifier ρ κ σ υ)} (hvs : vs = a ++ v :: b) (ha : ∀ u ∈ a, Quiet connection u)
    (hv : ¬ Quiet connection v) :
    calls = (a ++ [v]).map .extract ∧ ∃ exc, outcome = .error exc := by
  have hloud : ¬ ∀ u ∈ vs, Quiet connection u := fun hq => hv (hq v (by simp [hvs]))
  cases h with
  | anonymous hq | settled hq | ambiguous hq => exact absurd hq hloud
  | stopped hvs' ha' hv' =>
    obtain ⟨rfl, rfl⟩ := split_first (hvs.symm.trans hvs') ha hv ha' hv'
    exact ⟨rfl, _, rfl⟩

theorem Dispatches.none_iff (h : Dispatches vs connection userModel outcome calls) :
    outcome = .ok none ↔ ∀ v ∈ vs, v.extract connection = .ok .nothing := by
  have loud : ∀ {u : Verifier ρ κ σ υ}, u ∈ vs → ¬ Quiet connection u →
      ¬ ∀ v ∈ vs, v.extract connection = .ok .nothing :=
    fun hu hq hn => hq (.inl (hn _ hu))
  cases h with
  | anonymous hq hf => simpa using (found_eq_nil hq).mp hf
  | settled hq hf =>
    rename_i u c
    have hn := mt (found_eq_nil hq).mpr (by simp [hf])
    simp only [hn, iff_false]
    cases u.settled c userModel <;> simp
  | ambiguous hq hf =>
    have hn := mt (found_eq_nil hq).mpr (by rintro he; simp [he] at hf)
    simp only [hn, reduceCtorEq]
  | stopped hvs _ hv => simp [loud (by simp [hvs]) hv]

theorem Dispatches.some_ok {session : Session σ userModel}
    (h : Dispatches vs connection userModel outcome calls) (ho : outcome = .ok (some session)) :
    ∃ v credential, .verify v credential ∈ calls ∧
      v.settled credential userModel = .ok session := by
  cases h with
  | settled =>
    rename_i v credential _ _
    refine ⟨v, credential, by simp, ?_⟩
    cases hs : v.settled credential userModel with
    | error exc =>
      rw [hs] at ho
      cases ho
    | ok s =>
      rw [hs] at ho
      cases ho
      rfl
  | anonymous | ambiguous | stopped => cases ho

/-- A request fails as the verifier that was asked does, or with an error of the library that does
not speak of a missing credential. -/
theorem Dispatches.error_cases (h : Dispatches vs connection userModel outcome calls)
    (hr : Readable calls connection userModel) (ho : outcome = .error exc) :
    (∃ v credential raised, .verify v credential ∈ calls ∧ v.Raises credential userModel raised ∧
      exc = escaped raised v.className "verify" Exn.isLibrary) ∨
    exc.isLibrary = true ∧ exc.isMissing = false := by
  cases h with
  | anonymous => cases ho
  | settled hq hf =>
    rename_i v credential
    have hs : v.settled credential userModel = .error exc := by
      cases hs : v.settled credential userModel with
      | error e =>
        rw [hs] at ho
        cases ho
        rfl
      | ok s =>
        rw [hs] at ho
        cases ho
    obtain ⟨raised, hraised, rfl⟩ | ⟨message, rfl⟩ :=
      settled_error (hr.answers v credential (by simp)) hs
    · exact .inl ⟨v, credential, raised, by simp, hraised, rfl⟩
    · exact .inr ⟨rfl, rfl⟩
  | ambiguous =>
    cases ho
    exact .inr ⟨rfl, rfl⟩
  | stopped hvs _ _ he =>
    cases ho
    exact .inr (extracted_error (hr.credentials _ (by simp)) he)

end

theorem currentSession_error :
    currentSession vs connection userModel = .error exc ↔
      optionalSession vs connection userModel = .error exc ∨
      optionalSession vs connection userModel = .ok none ∧
        exc = missingCredential (nothingPresented vs) := by
  unfold currentSession optionalSession
  cases (dispatch vs connection userModel).1 with
  | error e => simp
  | ok found => cases found <;> simp [required, eq_comm]

theorem currentSession_ok {session : Session σ userModel} :
    currentSession vs connection userModel = .ok session ↔
      optionalSession vs connection userModel = .ok (some session) := by
  unfold currentSession optionalSession
  cases (dispatch vs connection userModel).1 with
  | error e => simp
  | ok found => cases found <;> simp [required]

/-- The contract of the dispatcher, for every list of verifiers and everything they may do. -/
theorem contract (vs : List (Verifier ρ κ σ υ)) (connection : ρ) (userModel : UserModel υ) :
    Contract vs connection userModel := by
  have h := dispatches vs connection userModel
  have hanon : optionalSession vs connection userModel = .ok none ↔
      ∀ v ∈ vs, v.extract connection = .ok .nothing := h.none_iff
  have hmissing : (missingCredential (nothingPresented vs)).isMissing = true := rfl
  constructor
  · exact h.single
  · intro v credential hm
    obtain ⟨hq, hf, hcalls, ho⟩ := h.of_verify hm
    refine ⟨hq, hf, hcalls, ?_, ho⟩
    unfold currentSession
    rw [ho]
    cases v.settled credential userModel <;> rfl
  · intro hq hf
    obtain ⟨reason, ho, hcalls⟩ := h.of_two hq hf
    refine ⟨reason, currentSession_error.mpr (.inl ho), ho, fun v credential => ?_⟩
    rw [hcalls]
    exact verify_notMem
  · intro a v b hvs ha hv
    obtain ⟨hcalls, exc, ho⟩ := h.of_loud hvs ha hv
    exact ⟨hcalls, exc, currentSession_error.mpr (.inl ho), ho⟩
  · exact hanon
  · intro hr
    constructor
    · rintro ⟨exc, hc, hm⟩
      obtain ho | ⟨ho, -⟩ := currentSession_error.mp hc
      · obtain ⟨v, credential, raised, hv, hraised, rfl⟩ | ⟨-, hn⟩ := h.error_cases hr ho
        · exact .inr ⟨v, credential, raised, hv, hraised, escaped_isMissing .. ▸ hm⟩
        · cases hm.symm.trans hn
      · exact .inl (hanon.mp ho)
    · rintro (hn | ⟨v, credential, exc, hv, hraised, hm⟩)
      · exact ⟨_, currentSession_error.mpr (.inr ⟨hanon.mpr hn, rfl⟩), hmissing⟩
      · refine ⟨escaped exc v.className "verify" Exn.isLibrary, ?_,
          (escaped_isMissing ..).trans hm⟩
        refine currentSession_error.mpr (.inl ((h.of_verify hv).2.2.2.trans ?_))
        rw [Verifier.settled, verified_raised hraised]
        rfl
  · exact fun session => currentSession_ok
  · intro session ho
    obtain ⟨v, credential, hv, hs⟩ := h.some_ok ho
    exact ⟨session.isInstance, v, credential, hv, settled_ok hs⟩
  · intro hr exc he
    have hopt : optionalSession vs connection userModel = .error exc → exc.isLibrary = true := by
      intro ho
      obtain ⟨v, credential, raised, -, -, rfl⟩ | ⟨hl, -⟩ := h.error_cases hr ho
      · exact escaped_isLibrary ..
      · exact hl
    obtain hc | ho := he
    · obtain ho | ⟨-, rfl⟩ := currentSession_error.mp hc
      · exact hopt ho
      · rfl
    · exact hopt ho

section Sample

def anyUser : UserModel Unit := ⟨"User", fun _ => true, fun _ => "User"⟩

def presenting (source : String) (verify : Except Exn (Returned Unit Unit)) :
    Verifier Unit Unit Unit Unit :=
  ⟨"SampleVerifier", source, fun _ => .ok (.credential ()), fun _ _ => verify⟩

def failing (source : String) : Verifier Unit Unit Unit Unit :=
  ⟨"SampleVerifier", source, fun _ => .error (.other "ValueError"), fun _ _ => .ok .plain⟩

def denying : Verifier Unit Unit Unit Unit :=
  presenting "cookie:a" (.error (missingCredential "nothing here"))

def halfBuilding : Verifier Unit Unit Unit Unit :=
  presenting "cookie:a" (.ok (.awaitable (.ok (.session () (.error (.other "AttributeError"))))))

def crowd : List (Verifier Unit Unit Unit Unit) :=
  [presenting "cookie:a" (.ok .plain), presenting "cookie:b" (.ok .plain), failing "cookie:c"]

end Sample

theorem contract_exceptions :
    ((∃ exc, currentSession [denying] () anyUser = .error exc ∧ exc.isMissing = true) ∧
      optionalSession [denying] () anyUser ≠ .ok none) ∧
    (2 ≤ (found () crowd).length ∧
      ∀ reason, currentSession crowd () anyUser ≠ .error (ambiguousCredentials reason)) ∧
    ∃ exc, currentSession [halfBuilding] () anyUser = .error exc ∧ exc.isLibrary = false := by
  refine ⟨⟨⟨_, rfl, rfl⟩, nofun⟩, ⟨by decide, fun reason h => ?_⟩, ⟨_, rfl, rfl⟩⟩
  have he : currentSession crowd () anyUser =
      .error (invalidCredential "ValueError escaped SampleVerifier.extract") := rfl
  simp [ambiguousCredentials, invalidCredential, he] at h

end BetterAuthBridge.Dispatch
