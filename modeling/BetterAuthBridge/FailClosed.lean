import BetterAuthBridge.InspectedGates

namespace BetterAuthBridge.FailClosed

open Library.Procedure Values Errors Models Refusals InspectedGates
open Authz (Answer Grant Lookup predicateName lookupName asyncPredicate syncLookup usable unusable
  noMembership)

variable {υ γ α : Type} {session : Session υ} {predicate : Predicate υ} {member : Member υ γ}
  {resourceId : Str} {what text name : String} {exc : Exn} {raised : Raised} {idOf : υ → Text}
  {calls : List (Lookup υ)}

def Presentable (exc : Exn) : Prop :=
  exc.isLibrary = true ∨
    ∃ refusal exceptions, exc = .authorizationRefused refusal exceptions ∧ Kept refusal

/-- What was raised passes for a refusal, bare or alone in groups. -/
structure Refuses (raised : Raised) (leaf : Object) : Prop where
  unwrapped : unwrapped raised = .ok leaf
  honoured : leaf.honoured = .ok false
  refusal : leaf.refusal = .ok true

/-- Looking at what was raised raises. -/
inductive Slips (raised : Raised) : Exn → Prop
  | group {exc : Exn} : unwrapped raised = .error exc → Slips raised exc
  | honoured {leaf : Object} {exc : Exn} : unwrapped raised = .ok leaf →
      leaf.honoured = .error exc → Slips raised exc
  | refusal {leaf : Object} {exc : Exn} : unwrapped raised = .ok leaf →
      leaf.honoured = .ok false → leaf.refusal = .error exc → Slips raised exc
  | accident {leaf : Object} {exc : Exn} : unwrapped raised = .ok leaf →
      leaf.honoured = .ok false → leaf.refusal = .ok false → leaf.name = .error exc →
      Slips raised exc
  | statusCode {leaf : Object} {exc : Exn} : Refuses raised leaf → leaf.statusCode = .error exc →
      Slips raised exc
  | headers {leaf : Object} {status : Value} {exc : Exn} : Refuses raised leaf →
      leaf.statusCode = .ok status → leaf.headers = .error exc → Slips raised exc
  | setHeaders {leaf : Object} {status : Value} {headers : RefusalHeaders} {exc : Exn} :
      Refuses raised leaf → leaf.statusCode = .ok status → leaf.headers = .ok headers →
      (judgeRefusal status headers).breach = none → leaf.setHeaders = .error exc →
      Slips raised exc
  | name {leaf : Object} {status : Value} {headers : RefusalHeaders} {breach : String}
      {exc : Exn} : Refuses raised leaf → leaf.statusCode = .ok status →
      leaf.headers = .ok headers → (judgeRefusal status headers).breach = some breach →
      leaf.name = .error exc → Slips raised exc

/-- What was raised passes for a library error, or for a refusal that keeps its rules. -/
inductive Passes (raised : Raised) : Exn → Prop
  | honoured {leaf : Object} : unwrapped raised = .ok leaf → leaf.honoured = .ok true →
      Passes raised leaf.exc
  | refusal {leaf : Object} {status : Value} {headers : RefusalHeaders} : Refuses raised leaf →
      leaf.statusCode = .ok status → leaf.headers = .ok headers →
      (judgeRefusal status headers).breach = none → leaf.setHeaders = .ok () →
      Passes raised (withHeaders leaf.exc (plainHeaders (judgeRefusal status headers).headers))

/-- An exception that can be looked at, and is what it passes for. -/
def Inspectable (raised : Raised) : Prop :=
  raised.exc.isLibrary = true ∨ ∀ exc, Slips raised exc ∨ Passes raised exc → Presentable exc

def Stumbles (answer : Answer) (exc : Exn) : Prop :=
  answer.isawaitable = .error exc ∨ (answer.isawaitable = .ok true ∧ answer.closed = .error exc)

/-- The exceptions that come of a callable: what it raised, or what that holds where it is no
library error, or what looking at it raised. -/
inductive Given : Raised → Exn → Prop
  | bare {raised : Raised} : raised.exc.isLibrary = true → Given raised raised.exc
  | leaf {raised : Raised} {leaf : Object} : raised.exc.isLibrary = false →
      unwrapped raised = .ok leaf → Given raised leaf.exc
  | slip {raised : Raised} {exc : Exn} : raised.exc.isLibrary = false → Slips raised exc →
      Given raised exc

def PredicateRaises (predicate : Predicate υ) (session : Session υ) (exc : Exn) : Prop :=
  (∃ raised, predicate session = .error raised ∧ Given raised exc) ∨
    ∃ answer, predicate session = .ok answer ∧ Stumbles answer exc

def LookupFails (member : Member υ γ) (resourceId : Str) (session : Session υ) (raised : Raised) :
    Prop :=
  member resourceId session = .error raised ∨ ∃ reply, member resourceId session = .ok reply ∧
    (reply.isawaitable = .error raised ∨
      (reply.isawaitable = .ok true ∧ reply.awaited = .error raised))

def LookupRaises (member : Member υ γ) (resourceId : Str) (session : Session υ) (exc : Exn) :
    Prop :=
  ∃ raised, LookupFails member resourceId session raised ∧ Given raised exc

def LookupGrants (member : Member υ γ) (resourceId : Str) (session : Session υ) (grant : Grant γ) :
    Prop :=
  ∃ reply, member resourceId session = .ok reply ∧ reply.isawaitable = .ok true ∧
    reply.awaited = .ok grant

def AwaitablePredicate (predicate : Predicate υ) (session : Session υ) : Prop :=
  ∃ answer, predicate session = .ok answer ∧ answer.isawaitable = .ok true

def PlainLookup (member : Member υ γ) (resourceId : Str) (session : Session υ) : Prop :=
  ∃ reply, member resourceId session = .ok reply ∧ reply.isawaitable = .ok false

/-- The exceptions a gate may answer with, for a callable that `raises` and may be `misdeclared`,
which `mistake` says. -/
inductive Sanctioned (raises : Exn → Prop) (misdeclared : Prop) (mistake : String) : Exn → Prop
  | uniform (reason : String) : Sanctioned raises misdeclared mistake (notAuthorized reason)
  | library {exc : Exn} : raises exc → exc.isLibrary = true →
      Sanctioned raises misdeclared mistake exc
  | misdeclared : misdeclared →
      Sanctioned raises misdeclared mistake (configurationError mistake)
  | explained {refusal : Refusal} {exceptions : List Exn} : Kept refusal →
      Sanctioned raises misdeclared mistake (.authorizationRefused refusal exceptions)

/-- Nothing improper comes of what the predicate raised or answered with. -/
structure Contained (predicate : Predicate υ) (session : Session υ) : Prop where
  raised : ∀ raised, predicate session = .error raised → Inspectable raised
  answered : ∀ answer exc, predicate session = .ok answer → Stumbles answer exc → Presentable exc

theorem Sanctioned.presentable {raises : Exn → Prop} {misdeclared : Prop} {mistake : String}
    (h : Sanctioned raises misdeclared mistake exc) : Presentable exc := by
  cases h with
  | uniform reason => exact .inl rfl
  | library _ hl => exact .inl hl
  | misdeclared _ => exact .inl rfl
  | explained hk => exact .inr ⟨_, _, rfl, hk⟩

theorem Presentable.sanctioned {raises : Exn → Prop} {misdeclared : Prop} {mistake : String}
    (h : Presentable exc) (hr : exc.isLibrary = true → raises exc) :
    Sanctioned raises misdeclared mistake exc := by
  obtain hl | ⟨refusal, exceptions, rfl, hk⟩ := h
  · exact .library (hr hl) hl
  · exact .explained hk

theorem withHeaders_library {headers : RefusalHeaders}
    (h : (withHeaders exc headers).isLibrary = true) : withHeaders exc headers = exc := by
  cases exc with
  | authorizationRefused refusal exceptions => cases h
  | _ => rfl

theorem Passes.given (hl : raised.exc.isLibrary = false) (h : Passes raised exc)
    (he : exc.isLibrary = true) : Given raised exc := by
  cases h with
  | honoured hu hh => exact .leaf hl hu
  | refusal hr hs hh hb hw =>
    rw [withHeaders_library he]
    exact .leaf hl hr.unwrapped

theorem answered_slips {leaf : Object} (hr : Refuses raised leaf)
    (h : answered leaf what = .error exc) : Slips raised exc := by
  obtain hs | ⟨status, hs, h⟩ := bind_eq_error.mp h
  · exact .statusCode hr hs
  obtain hh | ⟨headers, hh, h⟩ := bind_eq_error.mp h
  · exact .headers hr hs hh
  dsimp only at h
  split at h
  · rename_i hb
    obtain hw | ⟨-, -, h⟩ := bind_eq_error.mp h
    · exact .setHeaders hr hs hh hb hw
    · cases h
  · rename_i breach hb
    obtain hn | ⟨name, -, h⟩ := bind_eq_error.mp h
    · exact .name hr hs hh hb hn
    · cases h

theorem answered_passes {leaf : Object} (hr : Refuses raised leaf)
    (h : answered leaf what = .ok exc) :
    Passes raised exc ∨ ∃ reason, exc = notAuthorized reason := by
  obtain ⟨status, hs, h⟩ := bind_eq_ok.mp h
  obtain ⟨headers, hh, h⟩ := bind_eq_ok.mp h
  dsimp only at h
  split at h
  · rename_i hb
    obtain ⟨_, hw, h⟩ := bind_eq_ok.mp h
    cases h
    exact .inl (.refusal hr hs hh hb hw)
  · obtain ⟨name, -, h⟩ := bind_eq_ok.mp h
    cases h
    exact .inr ⟨_, rfl⟩

/-- What comes of an exception is what it passes for or the uniform refusal, where looking at it
raises nothing. -/
theorem resolved_cases (raised : Raised) (what : String) :
    (∃ exc, resolved raised what = .error exc ∧ Slips raised exc) ∨
      ∃ exc, resolved raised what = .ok exc ∧
        (Passes raised exc ∨ ∃ reason, exc = notAuthorized reason) := by
  rw [resolved]
  cases hu : unwrapped raised with
  | error exc => exact .inl ⟨exc, rfl, .group hu⟩
  | ok leaf =>
    rw [ok_bind]
    cases hh : leaf.honoured with
    | error exc => exact .inl ⟨exc, rfl, .honoured hu hh⟩
    | ok honoured =>
      cases honoured with
      | true => exact .inr ⟨_, rfl, .inl (.honoured hu hh)⟩
      | false =>
        cases hf : leaf.refusal with
        | error exc => exact .inl ⟨exc, rfl, .refusal hu hh hf⟩
        | ok refusal =>
          cases refusal with
          | true =>
            have hr : Refuses raised leaf := ⟨hu, hh, hf⟩
            change (∃ exc, answered leaf what = .error exc ∧ _) ∨
              ∃ exc, answered leaf what = .ok exc ∧ _
            cases ha : answered leaf what with
            | error exc => exact .inl ⟨exc, rfl, answered_slips hr ha⟩
            | ok exc => exact .inr ⟨exc, rfl, answered_passes hr ha⟩
          | false =>
            cases hn : leaf.name with
            | error exc =>
              refine .inl ⟨exc, ?_, .accident hu hh hf hn⟩
              change contained leaf what = _
              rw [contained, hn]
              rfl
            | ok name =>
              refine .inr ⟨notAuthorized s!"{name} escaped the {what}", ?_, .inr ⟨_, rfl⟩⟩
              change contained leaf what = _
              rw [contained, hn]
              rfl

theorem resolved_refuses {leaf : Object} (h : Refuses raised leaf) :
    resolved raised what = answered leaf what := by
  rw [resolved, h.unwrapped, ok_bind, h.honoured, ok_bind, h.refusal]
  rfl

theorem resolved_slips (h : Slips raised exc) : resolved raised what = .error exc := by
  cases h with
  | group hu =>
    rw [resolved, hu]
    rfl
  | honoured hu hh =>
    rw [resolved, hu, ok_bind, hh]
    rfl
  | refusal hu hh hf =>
    rw [resolved, hu, ok_bind, hh, ok_bind, hf]
    rfl
  | accident hu hh hf hn =>
    rw [resolved, hu, ok_bind, hh, ok_bind, hf]
    change contained _ what = _
    rw [contained, hn]
    rfl
  | statusCode hr hs =>
    rw [resolved_refuses hr, answered, hs]
    rfl
  | headers hr hs hh =>
    rw [resolved_refuses hr, answered, hs, ok_bind, hh]
    rfl
  | setHeaders hr hs hh hb hw =>
    rw [resolved_refuses hr, answered, hs, ok_bind, hh, ok_bind]
    simp only [hb, hw, error_bind]
  | name hr hs hh hb hn =>
    rw [resolved_refuses hr, answered, hs, ok_bind, hh, ok_bind]
    simp only [hb, hn, error_bind]

theorem resolved_passes (h : Passes raised exc) : resolved raised what = .ok exc := by
  cases h with
  | honoured hu hh =>
    rw [resolved, hu, ok_bind, hh]
    rfl
  | refusal hr hs hh hb hw =>
    rw [resolved_refuses hr, answered, hs, ok_bind, hh, ok_bind]
    simp only [hb, hw, ok_bind, pure_eq_ok]

/-- An exception that is what it seems can be looked at, whatever it is. -/
theorem inspectable_plain (exc : Exn) : Inspectable (plain exc) := by
  refine .inr fun found h => ?_
  obtain hs | hp := h
  · cases (resolved_slips hs).symm.trans (resolved_plain exc lookupName)
  · cases hp with
    | honoured hu hh =>
      rw [unwrapped_plain] at hu
      cases hu
      exact .inl (Except.ok.inj hh)
    | refusal hr hs hh hb hw =>
      obtain ⟨hu, -, hf⟩ := hr
      rw [unwrapped_plain] at hu
      cases hu
      cases hl : Errors.unwrapped exc with
      | authorizationRefused refusal exceptions =>
        rw [hl] at hs hh
        cases hs
        cases hh
        exact .inr ⟨_, exceptions, rfl, kept_plainHeaders hb⟩
      | _ =>
        rw [hl] at hs
        cases hs

theorem held_ok {x : Except Raised α} {a : α} : held what x = .ok a ↔ x = .ok a := by
  cases x <;> simp [held]

/-- What leaves a gate for an exception that can be looked at is sanctioned. -/
theorem held_sanctioned {raises : Exn → Prop} {misdeclared : Prop} {mistake : String}
    {x : Except Raised α} (hx : x = .error raised) (hi : Inspectable raised)
    (hr : ∀ exc, Given raised exc → raises exc) (h : held what x = .error exc) :
    Sanctioned raises misdeclared mistake exc := by
  subst hx
  rw [held, Except.error.injEq] at h
  by_cases hl : raised.exc.isLibrary = true
  · rw [if_pos hl] at h
    subst h
    exact .library (hr _ (.bare hl)) hl
  · have hn : raised.exc.isLibrary = false := eq_false_of_ne_true hl
    have hp := hi.resolve_left hl
    rw [if_neg hl] at h
    obtain ⟨found, hf, hs⟩ | ⟨found, hf, hs⟩ := resolved_cases raised what
    · rw [hf, settled] at h
      subst h
      exact (hp found (.inl hs)).sanctioned fun _ => hr found (.slip hn hs)
    · rw [hf, settled] at h
      subst h
      obtain hs | ⟨reason, rfl⟩ := hs
      · exact (hp found (.inr hs)).sanctioned fun he => hr found (hs.given hn he)
      · exact .uniform reason

theorem held_escapes {x : Except Raised α} (hx : x = .error raised)
    (hl : raised.exc.isLibrary ≠ true) (h : Slips raised exc ∨ Passes raised exc) :
    held what x = .error exc := by
  rw [hx, held, if_neg hl]
  obtain hs | hs := h
  · rw [resolved_slips hs, settled]
  · rw [resolved_passes hs, settled]

theorem inspectable_of_presentable
    (h : raised.exc.isLibrary ≠ true → ∀ exc, Slips raised exc ∨ Passes raised exc →
      Presentable exc) : Inspectable raised := by
  by_cases hl : raised.exc.isLibrary = true
  · exact .inl hl
  · exact .inr (h hl)

theorem exactlyTrue_ok {answer : Answer} {b : Bool} :
    answer.exactlyTrue = .ok b ↔ answer.isawaitable = .ok false ∧ answer.isTrue = b := by
  rw [Answer.exactlyTrue]
  obtain exc | awaitable := answer.isawaitable
  · simp
  · cases awaitable with
    | true => cases answer.closed <;> simp
    | false => simp

theorem exactlyTrue_error {answer : Answer} :
    answer.exactlyTrue = .error exc ↔ Stumbles answer exc ∨
      (answer.isawaitable = .ok true ∧ answer.closed = .ok () ∧
        exc = configurationError asyncPredicate) := by
  rw [Answer.exactlyTrue, Stumbles]
  obtain raised | awaitable := answer.isawaitable
  · simp
  · cases awaitable with
    | true => cases answer.closed <;> simp [eq_comm]
    | false => simp

theorem permitted_ok {b : Bool} : permitted predicate session = .ok b ↔
    ∃ answer, predicate session = .ok answer ∧ answer.isawaitable = .ok false ∧
      answer.isTrue = b := by
  simp only [permitted, bind_eq_ok, held_ok, exactlyTrue_ok]

theorem permitted_sanctioned (hc : Contained predicate session)
    (h : permitted predicate session = .error exc) :
    Sanctioned (PredicateRaises predicate session) (AwaitablePredicate predicate session)
      asyncPredicate exc := by
  obtain h | ⟨answer, ha, h⟩ := bind_eq_error.mp h
  · cases hp : predicate session with
    | ok answer =>
      rw [hp] at h
      cases h
    | error raised =>
      exact held_sanctioned hp (hc.raised raised hp) (fun exc hg => .inl ⟨raised, hp, hg⟩) h
  · obtain ha := held_ok.mp ha
    obtain hs | ⟨hawait, -, rfl⟩ := exactlyTrue_error.mp h
    · exact (hc.answered answer exc ha hs).sanctioned fun _ => .inr ⟨answer, ha, hs⟩
    · exact .misdeclared ⟨answer, ha, hawait⟩

/-- The session reaches the route exactly when the answer is `True`. -/
theorem require_ok {reached : Session υ} :
    requireDependency idOf predicate text session = .ok reached ↔
      reached = session ∧ ∃ answer, predicate session = .ok answer ∧ answer.isTrue = true := by
  have hb : requireDependency idOf predicate text session = .ok reached ↔
      permitted predicate session = .ok true ∧ reached = session := by
    rw [requireDependency]
    obtain raised | b := permitted predicate session
    · simp
    · cases b <;> simp [eq_comm]
  rw [hb, permitted_ok, and_comm]
  refine and_congr_right fun _ => exists_congr fun answer => and_congr_right fun _ => ?_
  exact ⟨fun h => h.2, fun h => ⟨answer.plain h, h⟩⟩

theorem require_error (h : requireDependency idOf predicate text session = .error exc) :
    permitted predicate session = .error exc ∨ ∃ reason, exc = notAuthorized reason := by
  obtain hp | ⟨b, -, hp⟩ := bind_eq_error.mp h
  · exact .inl hp
  · cases b with
    | true => cases hp
    | false =>
      cases hp
      exact .inr ⟨_, rfl⟩

theorem require_raises (h : permitted predicate session = .error exc) :
    requireDependency idOf predicate text session = .error exc := by
  rw [requireDependency, h]
  rfl

theorem permitted_stumbles {answer : Answer} (ha : predicate session = .ok answer)
    (hs : Stumbles answer exc) : permitted predicate session = .error exc := by
  rw [permitted, ha]
  exact exactlyTrue_error.mpr (.inl hs)

theorem permitted_escapes (hr : predicate session = .error raised)
    (hl : raised.exc.isLibrary ≠ true) (h : Slips raised exc ∨ Passes raised exc) :
    permitted predicate session = .error exc := by
  rw [permitted, held_escapes hr hl h]
  rfl

theorem asked_ok {grant : Grant γ} :
    asked member resourceId session = .ok grant ↔
      LookupGrants member resourceId session grant := by
  simp only [asked, bind_eq_ok, LookupGrants]
  refine exists_congr fun reply => and_congr_right fun _ => ?_
  obtain raised | awaitable := reply.isawaitable
  · simp
  · cases awaitable <;> simp

theorem asked_error : asked member resourceId session = .error raised ↔
    LookupFails member resourceId session raised ∨
      (PlainLookup member resourceId session ∧ raised = plain (configurationError syncLookup)) := by
  rw [asked, LookupFails, PlainLookup]
  obtain raised | reply := member resourceId session
  · simp
  · simp only [ok_bind, Except.ok.injEq, exists_eq_left', reduceCtorEq, false_or]
    obtain raised | awaitable := reply.isawaitable
    · simp
    · cases awaitable with
      | true => simp
      | false =>
        simp only [Bool.not_false, if_true, throw_eq_error, ok_bind, error_bind, reduceCtorEq,
          Except.ok.injEq, Except.error.injEq, false_and, or_self, false_or, true_and,
          Bool.false_eq_true]
        exact eq_comm

theorem held_asked_sanctioned
    (hc : ∀ raised, LookupFails member resourceId session raised → Inspectable raised)
    (h : held lookupName (asked member resourceId session) = .error exc) :
    Sanctioned (LookupRaises member resourceId session) (PlainLookup member resourceId session)
      syncLookup exc := by
  cases ha : asked member resourceId session with
  | ok grant =>
    rw [ha] at h
    cases h
  | error raised =>
    obtain hf | ⟨hp, rfl⟩ := asked_error.mp ha
    · exact held_sanctioned ha (hc raised hf) (fun exc hg => ⟨raised, hf, hg⟩) h
    · have hl : (configurationError syncLookup).isLibrary = true := rfl
      rw [ha, held, plain_exc, if_pos hl] at h
      cases h
      exact .misdeclared hp

theorem exec_membership_unusable (h : usable resourceId = false) :
    exec (membershipDependency idOf name member text session resourceId) calls =
      (.error (notAuthorized (unusable idOf text session name resourceId)), calls) := by
  simp [membershipDependency, h]

def admitted (idOf : υ → Text) (name text : String) (session : Session υ) (resourceId : Str) :
    Except Exn (Grant γ) → Except Exn (Authz.Membership υ γ)
  | .error exc => .error exc
  | .ok .none | .ok .false =>
    .error (notAuthorized (noMembership idOf text session name resourceId))
  | .ok (.value grant) => .ok ⟨session, resourceId, grant⟩

theorem exec_membership_usable (h : usable resourceId = true) :
    exec (membershipDependency idOf name member text session resourceId) calls =
      (admitted idOf name text session resourceId
        (held lookupName (asked member resourceId session)), calls ++ [⟨resourceId, session⟩]) := by
  have hg : exec (granted member resourceId session) calls =
      (held lookupName (asked member resourceId session), calls ++ [⟨resourceId, session⟩]) := rfl
  rw [membershipDependency, h]
  simp only [Bool.not_true, Bool.false_eq_true, if_false, exec_bind, hg]
  obtain raised | grant := held lookupName (asked member resourceId session)
  · rfl
  · cases grant <;> rfl

/-- The gates let through what they may and nothing else, whatever they ask. -/
structure FailsClosed (idOf : υ → Text) (predicate : Predicate υ) (member : Member υ γ)
    (text name : String) (session : Session υ) (resourceId : Str) : Prop where
  permits : ∀ reached, requireDependency idOf predicate text session = .ok reached ↔
    reached = session ∧ ∃ answer, predicate session = .ok answer ∧ answer.isTrue = true
  refuses : ∀ exc, requireDependency idOf predicate text session = .error exc →
    Sanctioned (PredicateRaises predicate session) (AwaitablePredicate predicate session)
      asyncPredicate exc
  grants : ∀ calls reached,
    (exec (membershipDependency idOf name member text session resourceId) calls).1 = .ok reached ↔
      usable resourceId = true ∧ ∃ grant,
        LookupGrants member resourceId session (.value grant) ∧
        reached = ⟨session, resourceId, grant⟩
  asks : ∀ calls,
    (exec (membershipDependency idOf name member text session resourceId) calls).2 =
      if usable resourceId then calls ++ [⟨resourceId, session⟩] else calls
  denies : ∀ calls exc,
    (exec (membershipDependency idOf name member text session resourceId) calls).1 = .error exc →
      Sanctioned (LookupRaises member resourceId session) (PlainLookup member resourceId session)
        syncLookup exc

theorem membership_ok {reached : Authz.Membership υ γ} :
    (exec (membershipDependency idOf name member text session resourceId) calls).1 = .ok reached ↔
      usable resourceId = true ∧ ∃ grant,
        LookupGrants member resourceId session (.value grant) ∧
        reached = ⟨session, resourceId, grant⟩ := by
  cases hu : usable resourceId with
  | false => simp [exec_membership_unusable hu]
  | true =>
    have hheld : ∀ grant, asked member resourceId session = .ok grant ↔
        held lookupName (asked member resourceId session) = .ok grant := fun _ => held_ok.symm
    rw [exec_membership_usable hu]
    simp only [← asked_ok, hheld, true_and]
    obtain raised | grant := held lookupName (asked member resourceId session)
    · simp [admitted]
    · cases grant <;> simp [admitted, eq_comm]

theorem membership_calls :
    (exec (membershipDependency idOf name member text session resourceId) calls).2 =
      if usable resourceId then calls ++ [⟨resourceId, session⟩] else calls := by
  cases hu : usable resourceId with
  | false => rw [exec_membership_unusable hu]; rfl
  | true => rw [exec_membership_usable hu]; rfl

theorem membership_sanctioned
    (hc : usable resourceId = true →
      ∀ raised, LookupFails member resourceId session raised → Inspectable raised)
    (h : (exec (membershipDependency idOf name member text session resourceId) calls).1 =
      .error exc) :
    Sanctioned (LookupRaises member resourceId session) (PlainLookup member resourceId session)
      syncLookup exc := by
  cases hu : usable resourceId with
  | false =>
    rw [exec_membership_unusable hu] at h
    cases h
    exact .uniform _
  | true =>
    rw [exec_membership_usable hu] at h
    cases ha : held lookupName (asked member resourceId session) with
    | error raised =>
      rw [ha] at h
      cases h
      exact held_asked_sanctioned (hc hu) ha
    | ok grant =>
      rw [ha] at h
      cases grant with
      | value grant => cases h
      | none | false =>
        cases h
        exact .uniform _

theorem membership_escapes (hu : usable resourceId = true)
    (hf : LookupFails member resourceId session raised) (hl : raised.exc.isLibrary ≠ true)
    (h : Slips raised exc ∨ Passes raised exc) :
    (exec (membershipDependency idOf name member text session resourceId) calls).1 =
      .error exc := by
  rw [exec_membership_usable hu, held_escapes (asked_error.mpr (.inl hf)) hl h]
  rfl

/-- The gates fail closed exactly where nothing improper comes of what they ask is raised or
answered: what is looked at is what it passes for, and raises nothing else. -/
theorem failsClosed_iff (idOf : υ → Text) (predicate : Predicate υ) (member : Member υ γ)
    (text name : String) (session : Session υ) (resourceId : Str) :
    FailsClosed idOf predicate member text name session resourceId ↔
      Contained predicate session ∧ (usable resourceId = true →
        ∀ raised, LookupFails member resourceId session raised → Inspectable raised) := by
  constructor
  · intro h
    refine ⟨⟨fun raised hr => ?_, fun answer exc ha hs => ?_⟩, fun hu raised hf => ?_⟩
    · refine inspectable_of_presentable fun hl exc hs => ?_
      exact (h.refuses exc (require_raises (permitted_escapes hr hl hs))).presentable
    · exact (h.refuses exc (require_raises (permitted_stumbles ha hs))).presentable
    · refine inspectable_of_presentable fun hl exc hs => ?_
      exact (h.denies [] exc (membership_escapes hu hf hl hs)).presentable
  · rintro ⟨hc, hm⟩
    refine ⟨fun reached => require_ok, fun exc h => ?_, fun calls reached => membership_ok,
      fun calls => membership_calls, fun calls exc h => membership_sanctioned hm h⟩
    obtain hp | ⟨reason, rfl⟩ := require_error h
    · exact permitted_sanctioned hc hp
    · exact .uniform reason

section Sample

def sampleSession : Session Payload := ⟨[(ofString "id", .str (ofString "u1"))], none, none, none, []⟩

/-- A coroutine that was started, and raises when it is closed. -/
def startedCoroutine : Answer where
  isTrue := false
  isawaitable := .ok true
  iscoroutine := .ok true
  close := .error (.other "RuntimeError")
  plain := nofun

/-- A refusal whose `__init__` skips its base class's. -/
def uninitialized : Object where
  exc := .authorizationRefused ⟨"SeatLimitReached", .none, .none⟩ []
  honoured := .ok false
  refusal := .ok true
  statusCode := .error (.other "AttributeError")
  headers := .error (.other "AttributeError")
  setHeaders := .ok ()
  name := .ok "SeatLimitReached"
  ordinary := fun _ _ _ => ⟨nofun, nofun⟩

end Sample

/-- A predicate that answers with a started coroutine, and a lookup that raises a refusal without
attributes: each ends the request with an exception of its own. -/
theorem improper_exceptions_escape :
    ¬ FailsClosed (fun _ => "u1".toList) (fun _ => .ok startedCoroutine)
        (fun _ _ => .ok (⟨.ok true, .ok (.value ())⟩ : Reply Unit)) "members only" "org_id"
        sampleSession (ofString "org_a") ∧
      ¬ FailsClosed (fun _ => "u1".toList)
        (fun _ => .ok ⟨true, .ok false, .ok false, .ok (), fun _ => rfl⟩)
        (fun _ _ => .error (.object uninitialized (.ok [])) : Member Payload Unit) "members only"
        "org_id" sampleSession (ofString "org_a") := by
  have hraw : ∀ name, ¬ Presentable (.other name) := by
    rintro name (hl | ⟨refusal, exceptions, hr, -⟩)
    · cases hl
    · cases hr
  constructor
  · intro h
    exact hraw "RuntimeError" (h.refuses _ rfl).presentable
  · intro h
    exact hraw "AttributeError" (h.denies [] _ rfl).presentable

end BetterAuthBridge.FailClosed
