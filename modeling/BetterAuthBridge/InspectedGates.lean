import BetterAuthBridge.Authz

namespace BetterAuthBridge.InspectedGates

open Library.Procedure Values Errors Models Refusals
open Authz (Answer Grant Lookup Gate predicateName lookupName syncLookup usable unusable
  noMembership)

variable {υ γ α : Type}

/-- An exception as the gates look at it: what it is, what `isinstance` says of it, and what comes
of the attributes of a refusal and of the name of its class. A refusal whose `__init__` never ran
has no attributes. -/
structure Object where
  exc : Exn
  honoured : Except Exn Bool
  refusal : Except Exn Bool
  statusCode : Except Exn Value
  headers : Except Exn RefusalHeaders
  setHeaders : Except Exn Unit
  name : Except Exn String
  ordinary : ∀ r exceptions, exc = .authorizationRefused r exceptions →
    (∀ status, statusCode = .ok status → status = r.statusCode) ∧
      ∀ held, headers = .ok held → held = r.headers

/-- A raised exception, with the exceptions it holds where it passes for a group. -/
inductive Raised
  | object (self : Object) (exceptions : Except Exn (List Raised))

def Raised.exc : Raised → Exn
  | .object self _ => self.exc

/-- A group with one leaf is that leaf; the class check and the reading of `exceptions` may
raise. -/
def unwrapped : Raised → Except Exn Object
  | .object _ (.error exc) => .error exc
  | .object _ (.ok [leaf]) => unwrapped leaf
  | .object self (.ok _) => .ok self

def withHeaders (exc : Exn) (headers : RefusalHeaders) : Exn :=
  match exc with
  | .authorizationRefused refusal exceptions =>
    .authorizationRefused { refusal with headers := headers } exceptions
  | exc => exc

def answered (leaf : Object) (what : String) : Except Exn Exn := do
  let statusCode ← leaf.statusCode
  let headers ← leaf.headers
  let verdict := judgeRefusal statusCode headers
  match verdict.breach with
  | none =>
    leaf.setHeaders
    return withHeaders leaf.exc (plainHeaders verdict.headers)
  | some breach =>
    let name ← leaf.name
    return notAuthorized s!"{name} from the {what} was not honoured: {breach}"

def contained (leaf : Object) (what : String) : Except Exn Exn := do
  let name ← leaf.name
  return notAuthorized s!"{name} escaped the {what}"

def resolved (raised : Raised) (what : String) : Except Exn Exn := do
  let leaf ← unwrapped raised
  if ← leaf.honoured then return leaf.exc
  if ← leaf.refusal then answered leaf what
  else contained leaf what

def settled : Except Exn Exn → Exn
  | .ok failure => failure
  | .error exc => exc

/-- `except HONOURED` goes by what an exception is, and looks at nothing. -/
def held (what : String) : Except Raised α → Except Exn α
  | .ok a => .ok a
  | .error raised =>
    .error (if raised.exc.isLibrary then raised.exc else settled (resolved raised what))

def seen (exc : Exn) : Object where
  exc := exc
  honoured := .ok exc.isLibrary
  refusal := .ok (match exc with | .authorizationRefused .. => true | _ => false)
  statusCode := match exc with
    | .authorizationRefused refusal _ => .ok refusal.statusCode
    | _ => .error (.other "AttributeError")
  headers := match exc with
    | .authorizationRefused refusal _ => .ok refusal.headers
    | _ => .error (.other "AttributeError")
  setHeaders := .ok ()
  name := .ok exc.className
  ordinary := by
    rintro refusal exceptions rfl
    exact ⟨fun status h => (Except.ok.inj h).symm, fun held h => (Except.ok.inj h).symm⟩

theorem seen_statusCode (refusal : Refusal) (exceptions : List Exn) :
    (seen (.authorizationRefused refusal exceptions)).statusCode = .ok refusal.statusCode := rfl

theorem seen_headers (refusal : Refusal) (exceptions : List Exn) :
    (seen (.authorizationRefused refusal exceptions)).headers = .ok refusal.headers := rfl

theorem seen_name (exc : Exn) : (seen exc).name = .ok exc.className := rfl

mutual

def plain : Exn → Raised
  | .betterAuth kind name message exceptions =>
    .object (seen (.betterAuth kind name message exceptions)) (.ok (plains exceptions))
  | .session kind name reason exceptions =>
    .object (seen (.session kind name reason exceptions)) (.ok (plains exceptions))
  | .authorizationRefused refusal exceptions =>
    .object (seen (.authorizationRefused refusal exceptions)) (.ok (plains exceptions))
  | .group name exceptions => .object (seen (.group name exceptions)) (.ok (plains exceptions))
  | .timeout name => .object (seen (.timeout name)) (.ok [])
  | .responseTooLarge name => .object (seen (.responseTooLarge name)) (.ok [])
  | .contentEncodingRejected name => .object (seen (.contentEncodingRejected name)) (.ok [])
  | .other name => .object (seen (.other name)) (.ok [])

def plains : List Exn → List Raised
  | [] => []
  | exc :: exceptions => plain exc :: plains exceptions

end

abbrev Predicate (υ : Type) := Session υ → Except Raised Answer

structure Reply (γ : Type) where
  isawaitable : Except Raised Bool
  awaited : Except Raised (Grant γ)

abbrev Member (υ γ : Type) := Str → Session υ → Except Raised (Reply γ)

/-- What the answer raises when it is looked at is not looked at itself. -/
def permitted (predicate : Predicate υ) (session : Session υ) : Except Exn Bool := do
  let answer ← held predicateName (predicate session)
  answer.exactlyTrue

def asked (member : Member υ γ) (resourceId : Str) (session : Session υ) :
    Except Raised (Grant γ) := do
  let answer ← member resourceId session
  if !(← answer.isawaitable) then throw (plain (configurationError syncLookup))
  answer.awaited

def granted (member : Member υ γ) (resourceId : Str) (session : Session υ) : Gate υ (Grant γ) := do
  modify (· ++ [⟨resourceId, session⟩])
  check (held lookupName (asked member resourceId session))

section Dependencies

variable (idOf : υ → Text)

def requireDependency (predicate : Predicate υ) (text : String) (session : Session υ) :
    Except Exn (Session υ) := do
  if ← permitted predicate session then return session
  throw (notAuthorized s!"{text} refused for user {String.ofList (idOf session.user)}")

def membershipDependency (name : String) (member : Member υ γ) (text : String)
    (session : Session υ) (resourceId : Str) : Gate υ (Authz.Membership υ γ) := do
  if !usable resourceId then throw (notAuthorized (unusable idOf text session name resourceId))
  match ← granted member resourceId session with
  | .none | .false => throw (notAuthorized (noMembership idOf text session name resourceId))
  | .value grant => return ⟨session, resourceId, grant⟩

end Dependencies

def seeming : Except Exn α → Except Raised α
  | .ok a => .ok a
  | .error exc => .error (plain exc)

def seemingReply (reply : Authz.Reply γ) : Reply γ :=
  ⟨seeming reply.isawaitable, seeming reply.awaited⟩

def seemingPredicate (predicate : Authz.Predicate υ) : Predicate υ := fun session =>
  seeming (predicate session)

def seemingMember (member : Authz.Member υ γ) : Member υ γ := fun resourceId session =>
  seeming ((member resourceId session).map seemingReply)

theorem plain_exc (exc : Exn) : (plain exc).exc = exc := by
  cases exc <;> rfl

theorem unwrapped_several {self : Object} {held : List Exn} (h : ∀ leaf, held ≠ [leaf]) :
    unwrapped (.object self (.ok (plains held))) = .ok self := by
  cases held with
  | nil => rfl
  | cons exc held =>
    cases held with
    | nil => exact (h exc rfl).elim
    | cons => rfl

theorem unwrapped_plain (exc : Exn) : unwrapped (plain exc) = .ok (seen (Errors.unwrapped exc)) := by
  fun_induction Errors.unwrapped exc with
  | case1 name leaf ih => simpa only [plain, plains, unwrapped] using ih
  | case2 kind name message leaf ih => simpa only [plain, plains, unwrapped] using ih
  | case3 kind name reason leaf ih => simpa only [plain, plains, unwrapped] using ih
  | case4 refusal leaf ih => simpa only [plain, plains, unwrapped] using ih
  | case5 exc hg hb hs hr =>
    cases exc with
    | group name held => exact unwrapped_several fun leaf hl => hg name leaf (hl ▸ rfl)
    | betterAuth kind name message held =>
      exact unwrapped_several fun leaf hl => hb kind name message leaf (hl ▸ rfl)
    | session kind name reason held =>
      exact unwrapped_several fun leaf hl => hs kind name reason leaf (hl ▸ rfl)
    | authorizationRefused refusal held =>
      exact unwrapped_several fun leaf hl => hr refusal leaf (hl ▸ rfl)
    | _ => rfl

theorem answered_seen (refusal : Refusal) (exceptions : List Exn) (what : String) :
    answered (seen (.authorizationRefused refusal exceptions)) what =
      .ok (Authz.answered refusal exceptions what) := by
  rw [answered, Authz.answered, seen_statusCode, seen_headers, seen_name]
  dsimp only [ok_bind]
  cases (judgeRefusal refusal.statusCode refusal.headers).breach with
  | none => rfl
  | some breach => rfl

theorem contained_seen (exc : Exn) (what : String) :
    contained (seen exc) what = .ok (Authz.contained exc what) := by
  rw [contained, Authz.contained, seen_name, ok_bind, pure_eq_ok]

theorem resolved_plain (exc : Exn) (what : String) :
    resolved (plain exc) what = .ok (Authz.resolved exc what) := by
  rw [resolved, unwrapped_plain, Authz.resolved, ok_bind]
  cases Errors.unwrapped exc with
  | betterAuth | session => rfl
  | authorizationRefused refusal exceptions => exact answered_seen refusal exceptions what
  | _ => exact contained_seen _ what

/-- Where exceptions are what they seem, the gates are those that look at nothing. -/
theorem held_seeming (what : String) (x : Except Exn α) :
    held what (seeming x) = Authz.held what x := by
  cases x with
  | ok a => rfl
  | error exc => rw [seeming, held, plain_exc, resolved_plain, Authz.held, settled]

theorem permitted_seeming (predicate : Authz.Predicate υ) (session : Session υ) :
    permitted (seemingPredicate predicate) session = Authz.permitted predicate session := by
  rw [permitted, seemingPredicate, held_seeming, Authz.permitted]

theorem asked_seeming (member : Authz.Member υ γ) (resourceId : Str) (session : Session υ) :
    asked (seemingMember member) resourceId session =
      seeming (Authz.asked member resourceId session) := by
  rw [asked, Authz.asked, seemingMember]
  obtain exc | reply := member resourceId session
  · rfl
  · change (seeming reply.isawaitable >>= _) = seeming (reply.isawaitable >>= _)
    obtain exc | awaitable := reply.isawaitable
    · rfl
    · cases awaitable <;> rfl

theorem granted_seeming (member : Authz.Member υ γ) (resourceId : Str) (session : Session υ) :
    granted (seemingMember member) resourceId session = Authz.granted member resourceId session := by
  rw [granted, asked_seeming, held_seeming, Authz.granted]

theorem requireDependency_seeming (idOf : υ → Text) (predicate : Authz.Predicate υ) (text : String)
    (session : Session υ) : requireDependency idOf (seemingPredicate predicate) text session =
      Authz.requireDependency idOf predicate text session := by
  rw [requireDependency, permitted_seeming, Authz.requireDependency]

theorem membershipDependency_seeming (idOf : υ → Text) (name text : String)
    (member : Authz.Member υ γ) (session : Session υ) (resourceId : Str) :
    membershipDependency idOf name (seemingMember member) text session resourceId =
      Authz.membershipDependency idOf name member text session resourceId := by
  rw [membershipDependency, granted_seeming]
  rfl

end BetterAuthBridge.InspectedGates
