import BetterAuthBridge.RemoteResponse

namespace BetterAuthBridge.RemoteProbe

open Values Errors SessionDocument Models RemoteResponse

variable (R : Runtime)

def probeFetched (uri : String) (maxBytes : Nat) : Answer → Except Exn TransportResponse :=
  fetched s!"get-session readiness probe timed out [{uri}]"
    s!"get-session readiness probe answered a body over the {maxBytes}-byte cap"
    "get-session readiness probe answered a content encoding after identity"
    fun name => s!"get-session readiness probe could not reach [{name}] {uri}"

def statusMessage (status : Int) (uri : String) : String :=
  if routingStatus status then s!"get-session answered {status} at {uri}; check that base_path="
    ++ " names where Better Auth is mounted."
  else s!"get-session answered {status} at {uri}; an anonymous request must answer 200 with a"
    ++ " null body for Mode C to read it."

def notHonoured : String := " the 200-null contract Mode C rests on is not being honoured."

/-- An anonymous request has to be answered `200` with a JSON `null`. -/
def assertNullContract (response : TransportResponse) (uri transportName : String) :
    Except Exn Unit :=
  if response.statusCode ≠ 200 then
    throw (configurationError (statusMessage response.statusCode uri))
  else if mediaType response ≠ jsonMediaType then throw (configurationError
    (s!"get-session at {uri} answered an anonymous request as"
      ++ s!" {safeLabel (ofText (mediaType response))}, not JSON;" ++ notHonoured))
  else
    match R.loads (.bytes response.content) with
    | none => throw (configurationError (s!"get-session at {uri} answered an anonymous request with"
        ++ " a body that is not JSON;" ++ notHonoured))
    | some .none => pure ()
    | some (.dict document) =>
      if (parseSessionDocument R document).isSome then throw (configurationError
        (s!"get-session at {uri} answered a bare request (no cookie) with a live session document,"
          ++ s!" which means {transportName} is replaying a retained upstream cookie. The"
          ++ " transport's jar must be shut; build one this library owns, or pass a dedicated"
          ++ " client."))
      else throw (configurationError
        (s!"get-session at {uri} answered an anonymous request with a non-null body;"
          ++ notHonoured))
    | some _ => throw (configurationError
        (s!"get-session at {uri} answered an anonymous request with a non-null body;"
          ++ notHonoured))

def unsignedBearerMessage (uri : String) : String :=
  s!"get-session at {uri} accepted a manufactured bearer token and set a session cookie, so the"
    ++ " bearer plugin upstream is at its default requireSignature: false. A raw session token is"
    ++ " then a bearer credential, so a token in a log, dump or backup is a credential leak."
    ++ " RemoteVerifier(refuse_unsigned_bearer=True) makes that a refusal rather than a warning:"
    ++ " fix it upstream with bearer(\x7b requireSignature: true \x7d), or drop the flag to go back"
    ++ " to the advisory warning."

/-- The bearer posture rung, from the answer to its request on. -/
def advise (uri : String) (maxBytes : Nat) (refuse : Bool) (answer : Answer) : Except Exn Unit :=
  match probeFetched uri maxBytes answer with
  | .error exc => if refuse then throw exc else pure ()
  | .ok response =>
    if (response.header "set-cookie").isSome && refuse then
      throw (configurationError (unsignedBearerMessage uri))
    else pure ()

def probed (uri transportName : String) (maxBytes : Nat) (answer : Answer) : Except Exn Unit := do
  let response ← probeFetched uri maxBytes answer
  assertNullContract R response uri transportName

variable {R} {uri transportName : String} {maxBytes : Nat} {refuse : Bool} {raised exc : Exn}

/-- An answer meets the contract exactly when it is a `200` with a JSON `null`. -/
theorem assertNullContract_ok {response : TransportResponse} :
    assertNullContract R response uri transportName = .ok () ↔ response.statusCode = 200 ∧
      mediaType response = jsonMediaType ∧ R.loads (.bytes response.content) = some .none := by
  unfold assertNullContract
  by_cases hs : response.statusCode = 200
  · by_cases hm : mediaType response = jsonMediaType
    · simp only [hs, hm, ne_eq, not_true, if_false, true_and]
      cases R.loads (.bytes response.content) with
      | none => exact iff_of_false nofun nofun
      | some value =>
        cases value with
        | none => exact iff_of_true rfl rfl
        | dict document =>
          refine iff_of_false ?_ nofun
          dsimp only
          split <;> exact nofun
        | _ => exact iff_of_false nofun nofun
    · rw [if_neg (not_not.mpr hs), if_pos hm]
      exact iff_of_false nofun fun h => hm h.2.1
  · rw [if_pos hs]
    exact iff_of_false nofun fun h => hs h.1

theorem probed_ok {answer : Answer} : probed R uri transportName maxBytes answer = .ok () ↔
    ∃ response, answer = .response response ∧ response.statusCode = 200 ∧
      mediaType response = jsonMediaType ∧ R.loads (.bytes response.content) = some .none := by
  rw [probed, bind_eq_ok]
  refine exists_congr fun response => and_congr ?_ assertNullContract_ok
  cases answer with
  | response r => simp [probeFetched, fetched]
  | raised exc => by_cases hl : exc.isLibrary <;> simp [probeFetched, fetched, hl]

/-- A transport exception fails the contract only if it is a `ConfigurationError` itself. -/
theorem probed_raised (h : probed R uri transportName maxBytes (.raised raised) = .error exc)
    (hc : exc.isConfiguration = true) : raised = exc := by
  cases hf : probeFetched uri maxBytes (.raised raised) with
  | error e =>
    rw [probed, hf] at h
    cases h
    exact fetched_raised hf hc
  | ok response =>
    by_cases hl : raised.isLibrary <;> simp [probeFetched, fetched, hl] at hf

theorem advise_raised (h : advise uri maxBytes refuse (.raised raised) = .error exc)
    (hc : exc.isConfiguration = true) : raised = exc := by
  cases hf : probeFetched uri maxBytes (.raised raised) with
  | error e =>
    by_cases hr : refuse
    · simp only [advise, hf, hr, if_true, throw_eq_error, Except.error.injEq] at h
      exact fetched_raised (h ▸ hf) hc
    · simp [advise, hf, hr] at h
  | ok response =>
    by_cases hl : raised.isLibrary <;> simp [probeFetched, fetched, hl] at hf

end BetterAuthBridge.RemoteProbe
