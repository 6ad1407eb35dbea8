import BetterAuthBridge.Errors

namespace BetterAuthBridge.Csrf

open Values Errors

structure Connection where
  method : Option String
  websocket : Bool
  headers : List (Text × Text)

def Connection.getlist (connection : Connection) (name : String) : List Text :=
  (connection.headers.filter fun h => h.1 = name.toList).map Prod.snd

def Connection.getHeader (connection : Connection) (name : String) : Option Text :=
  (connection.getlist name).head?

structure CsrfFacts where
  method : Option String
  origin : Option Text
  originCount : Nat
  secFetchSite : Option Text
  headerName : Option String
  headerValue : Option Text
  websocket : Bool
  deriving DecidableEq

/-- What a policy's `check` does: return something of a named type, return `None`, or raise. -/
inductive PolicyAnswer
  | none
  | returned (typeName : String)
  | raised (exc : Exn)

structure CsrfPolicy where
  name : String
  requiredHeader : Option String
  check : CsrfFacts → Text → PolicyAnswer

def wantedHeader (policy : CsrfPolicy) : Option String :=
  policy.requiredHeader.bind fun wanted =>
    if blank wanted.toList then none else some (String.ofList (lower (strip wanted.toList)))

def CsrfFacts.fromConnection (connection : Connection) (policy : CsrfPolicy) : CsrfFacts where
  method := connection.method
  origin := connection.getHeader "origin"
  originCount := (connection.getlist "origin").length
  secFetchSite := connection.getHeader "sec-fetch-site"
  headerName := wantedHeader policy
  headerValue := (wantedHeader policy).bind connection.getHeader
  websocket := connection.websocket

/-- A policy that answers anything but `None` is refused as misconfigured. -/
def enforcePolicy (policy : CsrfPolicy) (facts : CsrfFacts) (sessionToken : Text) :
    Except Exn Unit :=
  match policy.check facts sessionToken with
  | .none => pure ()
  | .returned typeName => throw (configurationError
      (s!"{policy.name}.check() returned {typeName}; a CsrfPolicy allows a request by returning"
        ++ " None and refuses one by raising CsrfFailure. A returned answer is ignored by every"
        ++ " caller, so it would allow the request."))
  | .raised exc => throw exc

theorem enforcePolicy_ok {policy : CsrfPolicy} {facts : CsrfFacts} {sessionToken : Text}
    {u : Unit} : enforcePolicy policy facts sessionToken = .ok u ↔
      policy.check facts sessionToken = .none := by
  cases h : policy.check facts sessionToken <;>
    simp [enforcePolicy, h]

end BetterAuthBridge.Csrf
