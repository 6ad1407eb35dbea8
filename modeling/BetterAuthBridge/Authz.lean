import BetterAuthBridge.Library.Procedure
import BetterAuthBridge.Models
import BetterAuthBridge.Refusals

namespace BetterAuthBridge.Authz

open Library.Procedure Values Errors Models Refusals

variable {υ γ : Type}

def predicateName : String := "authorization predicate"

def lookupName : String := "membership lookup"

def asyncPredicate : String :=
  "require(predicate, ...) was given an async predicate. A coroutine object is truthy but is"
    ++ " never True, so every request would be refused - permanently, and indistinguishably from a"
    ++ " policy that simply says no. Declare it with `def`; work that has to await belongs in"
    ++ " require_membership's lookup."

def syncLookup : String :=
  "require_membership(..., member, ...) was given a callable that did not return an awaitable."
    ++ " Declare it with `async def`. A value returned from a plain `def` would reach the route as"
    ++ " the grant, so a missing keyword would decide the authorization answer."

/-- The object a predicate returned, as far as the gate looks at it: whether it is `True`, and what
`inspect` and its own `close` do with it. -/
structure Answer where
  isTrue : Bool
  isawaitable : Except Exn Bool
  iscoroutine : Except Exn Bool
  close : Except Exn Unit
  plain : isTrue = true → isawaitable = .ok false

inductive Grant (γ : Type)
  | none
  | false
  | value (grant : γ)

structure Reply (γ : Type) where
  isawaitable : Except Exn Bool
  awaited : Except Exn (Grant γ)

abbrev Predicate (υ : Type) := Session υ → Except Exn Answer

abbrev Member (υ γ : Type) := Str → Session υ → Except Exn (Reply γ)

structure Membership (υ γ : Type) where
  session : Session υ
  resourceId : Str
  grant : γ

/-- The arguments of one call to the lookup. -/
structure Lookup (υ : Type) where
  resourceId : Str
  session : Session υ

/-- A part of the membership gate, with the calls made to the lookup written down. -/
abbrev Gate (υ α : Type) := Proc Exn (List (Lookup υ)) α

def answered (refusal : Refusal) (exceptions : List Exn) (what : String) : Exn :=
  let verdict := judgeRefusal refusal.statusCode refusal.headers
  match verdict.breach with
  | none =>
    .authorizationRefused { refusal with headers := plainHeaders verdict.headers } exceptions
  | some breach => notAuthorized s!"{refusal.name} from the {what} was not honoured: {breach}"

def contained (exc : Exn) (what : String) : Exn :=
  notAuthorized s!"{exc.className} escaped the {what}"

def resolved (exc : Exn) (what : String) : Exn :=
  let leaf := unwrapped exc
  if leaf.isLibrary then leaf
  else
    match leaf with
    | .authorizationRefused refusal exceptions => answered refusal exceptions what
    | leaf => contained leaf what

/-- `except HONOURED: raise`, and `_resolved` for every other `Exception`. -/
def held {α : Type} (what : String) : Except Exn α → Except Exn α
  | .ok a => .ok a
  | .error exc => .error (if exc.isLibrary then exc else resolved exc what)

namespace Answer

def closed (answer : Answer) : Except Exn Unit := do
  if ← answer.iscoroutine then answer.close

def exactlyTrue (answer : Answer) : Except Exn Bool := do
  if ← answer.isawaitable then
    answer.closed
    throw (configurationError asyncPredicate)
  return answer.isTrue

end Answer

/-- The answer is looked at in the `else` branch, where nothing it raises is held. -/
def permitted (predicate : Predicate υ) (session : Session υ) : Except Exn Bool := do
  let answer ← held predicateName (predicate session)
  answer.exactlyTrue

def asked (member : Member υ γ) (resourceId : Str) (session : Session υ) :
    Except Exn (Grant γ) := do
  let answer ← member resourceId session
  if !(← answer.isawaitable) then throw (configurationError syncLookup)
  answer.awaited

/-- The whole call is held, not just the `await`. -/
def granted (member : Member υ γ) (resourceId : Str) (session : Session υ) : Gate υ (Grant γ) := do
  modify (· ++ [⟨resourceId, session⟩])
  check (held lookupName (asked member resourceId session))

def usable (resourceId : Str) : Bool := (validateUserId (.str resourceId)).isSome

variable (idOf : υ → Text)

def requireDependency (predicate : Predicate υ) (text : String) (session : Session υ) :
    Except Exn (Session υ) := do
  if ← permitted predicate session then return session
  throw (notAuthorized s!"{text} refused for user {String.ofList (idOf session.user)}")

def noMembership (text : String) (session : Session υ) (name : String) (resourceId : Str) :
    String :=
  s!"{text}: no membership for user {String.ofList (idOf session.user)} in {name}="
    ++ safeLabel resourceId

def unusable (text : String) (session : Session υ) (name : String) (resourceId : Str) : String :=
  s!"{text}: unusable {name}={safeLabel resourceId} for user"
    ++ s!" {String.ofList (idOf session.user)}; nothing was looked up"

def membershipDependency (name : String) (member : Member υ γ) (text : String)
    (session : Session υ) (resourceId : Str) : Gate υ (Membership υ γ) := do
  if !usable resourceId then throw (notAuthorized (unusable idOf text session name resourceId))
  match ← granted member resourceId session with
  | .none | .false => throw (notAuthorized (noMembership idOf text session name resourceId))
  | .value grant => return ⟨session, resourceId, grant⟩

section Raised

variable {α : Type} {what : String} {exc : Exn} {member : Member υ γ} {resourceId : Str}
  {session : Session υ}

def LookupRaises (member : Member υ γ) (resourceId : Str) (session : Session υ) (exc : Exn) :
    Prop :=
  member resourceId session = .error exc ∨ ∃ reply, member resourceId session = .ok reply ∧
    (reply.isawaitable = .error exc ∨ (reply.isawaitable = .ok true ∧ reply.awaited = .error exc))

def escaped (exc : Exn) (what : String) : Exn :=
  if exc.isLibrary then exc else resolved exc what

theorem held_error {x : Except Exn α} :
    held what x = .error exc ↔ ∃ raised, x = .error raised ∧ exc = escaped raised what := by
  cases x with
  | ok a => simp [held]
  | error raised =>
    constructor
    · intro h
      cases h
      exact ⟨raised, rfl, rfl⟩
    · rintro ⟨raised, he, rfl⟩
      cases he
      rfl

theorem asked_raises (h : LookupRaises member resourceId session exc) :
    asked member resourceId session = .error exc := by
  obtain h | ⟨reply, h, hr | ⟨ha, hr⟩⟩ := h
  · rw [asked, h]
    rfl
  · rw [asked, h, ok_bind, hr]
    rfl
  · rw [asked, h, ok_bind, ha]
    exact hr

end Raised

end BetterAuthBridge.Authz
