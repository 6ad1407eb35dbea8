import BetterAuthBridge.Values

namespace BetterAuthBridge.Errors

open Values

inductive BetterAuthKind
  | base
  | configuration
  deriving DecidableEq

/-- The library class a `SessionError` is or descends from. -/
inductive SessionKind
  | base
  | invalidCredential
  | sessionExpired
  | sessionRevoked
  | authServiceUnavailable
  | missingCredential
  | csrfFailure
  | notAuthorized
  | ambiguousCredentials
  deriving DecidableEq

/-- What `headers` holds on a refusal: only a plain dict is ever read. -/
inductive RefusalHeaders
  | none
  | dict (items : List (Value × Value))
  | object (className : String)

def RefusalHeaders.isNone : RefusalHeaders → Bool
  | .none => true
  | _ => false

/-- An `AuthorizationRefused`: its class, and the attributes it holds at the moment. -/
structure Refusal where
  name : String
  statusCode : Value
  headers : RefusalHeaders

/-- A raised `Exception`: the class the handlers of this package tell it by, its own class name,
and the text it carries. A class that is honoured may be a group's as well. -/
inductive Exn
  | betterAuth (kind : BetterAuthKind) (name message : String) (exceptions : List Exn)
  | session (kind : SessionKind) (name reason : String) (exceptions : List Exn)
  | authorizationRefused (refusal : Refusal) (exceptions : List Exn)
  | timeout (name : String)
  | responseTooLarge (name : String)
  | contentEncodingRejected (name : String)
  | group (name : String) (exceptions : List Exn)
  | other (name : String)

namespace Exn

def className : Exn → String
  | betterAuth _ n _ _ => n
  | session _ n _ _ => n
  | authorizationRefused refusal _ => refusal.name
  | timeout n => n
  | responseTooLarge n => n
  | contentEncodingRejected n => n
  | group n _ => n
  | other n => n

def isBetterAuth : Exn → Bool
  | betterAuth .. => true
  | _ => false

def isSession : Exn → Bool
  | session .. => true
  | _ => false

/-- `except (BetterAuthError, SessionError)`. -/
def isLibrary (e : Exn) : Bool := e.isBetterAuth || e.isSession

def isConfiguration : Exn → Bool
  | betterAuth .configuration .. => true
  | _ => false

def isUnavailable : Exn → Bool
  | session .authServiceUnavailable .. => true
  | _ => false

def isMissing : Exn → Bool
  | session .missingCredential .. => true
  | _ => false

theorem isLibrary_of_isMissing {e : Exn} (h : e.isMissing = true) : e.isLibrary = true := by
  cases e with
  | session kind name reason => rfl
  | _ => cases h

end Exn

open Exn

def maxStrDigits : Nat := 4300

def configurationError (message : String) : Exn :=
  .betterAuth .configuration "ConfigurationError" message []

def invalidCredential (reason : String) : Exn :=
  .session .invalidCredential "InvalidCredential" reason []

def sessionExpired (reason : String) : Exn := .session .sessionExpired "SessionExpired" reason []

def sessionRevoked (reason : String) : Exn := .session .sessionRevoked "SessionRevoked" reason []

def authServiceUnavailable (reason : String) : Exn :=
  .session .authServiceUnavailable "AuthServiceUnavailable" reason []

def missingCredential (reason : String) : Exn :=
  .session .missingCredential "MissingCredential" reason []

def notAuthorized (reason : String) : Exn := .session .notAuthorized "NotAuthorized" reason []

def ambiguousCredentials (reason : String) : Exn :=
  .session .ambiguousCredentials "AmbiguousCredentials" reason []

section

variable {ε α β : Type}

@[simp] theorem throw_eq_error (e : ε) : (throw e : Except ε α) = .error e := rfl

@[simp] theorem pure_eq_ok (a : α) : (pure a : Except ε α) = .ok a := rfl

@[simp] theorem ok_bind (a : α) (f : α → Except ε β) : (Except.ok a >>= f) = f a := rfl

@[simp] theorem error_bind (e : ε) (f : α → Except ε β) : (Except.error e >>= f) = .error e := rfl

theorem bind_eq_ok {x : Except ε α} {f : α → Except ε β} {b : β} :
    (x >>= f) = .ok b ↔ ∃ a, x = .ok a ∧ f a = .ok b := by
  cases x <;> simp

theorem bind_eq_error {x : Except ε α} {f : α → Except ε β} {e : ε} :
    (x >>= f) = .error e ↔ x = .error e ∨ ∃ a, x = .ok a ∧ f a = .error e := by
  cases x <;> simp

end

/-- A task group with one failing child delivers a group whose single leaf is the answer. -/
def unwrapped : Exn → Exn
  | .group _ [e] | .betterAuth _ _ _ [e] | .session _ _ _ [e] | .authorizationRefused _ [e] =>
    unwrapped e
  | e => e

/-- What a handler goes by that lets some classes pass as they were raised. -/
def delivered (honoured : Exn → Bool) (e : Exn) : Exn := if honoured e then e else unwrapped e

end BetterAuthBridge.Errors
