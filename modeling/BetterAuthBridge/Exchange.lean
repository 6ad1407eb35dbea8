import BetterAuthBridge.CappedRead
import BetterAuthBridge.Library.Ordered
import BetterAuthBridge.RemoteConfig

namespace BetterAuthBridge.Exchange

open Library Library.Runs Values Errors RemoteResponse CappedRead
open RemoteConfig (CountSetting)

abbrev Headers := List (Text × Text)

structure Request where
  method : String
  url : String
  headers : Headers
  content : Bytes
  followRedirects : Bool

/-- An exception of the client; the request it was for hangs off it. -/
structure ClientError where
  typeName : String
  isTimeout : Bool
  request : Request

structure Call where
  method : String
  url : String
  headers : Option Headers
  content : Bytes
  maxBytes : CountSetting

/-- How the exchange is left: with a response, a refusal of it or an exception, by the deadline, or
by the cancellation of the caller. -/
inductive Result
  | response (response : TransportResponse)
  | tooLarge (maxBytes : Int)
  | encoded (encoding : Text)
  | error (exc : ClientError)
  | deadline
  | cancelled

inductive Outcome
  | response (response : TransportResponse)
  | responseTooLarge (maxBytes : Int)
  | contentEncodingRejected (encoding : Text)
  | timeoutError (message : String)
  | transportFailure (reason : String)
  | valueError (message : String)
  | cancelled

inductive Phase
  | idle
  | opening (maxBytes : Int)
  | reading (maxBytes : Int) (response : StreamedResponse) (read : Reading)
  | closing (result : Result)
  | ended (outcome : Outcome)

inductive Event
  | begun
  | opened (response : StreamedResponse)
  | chunk
  | aborted
  | closed
  | raised (exc : ClientError)
  | deadline
  | cancelled

def lowered (headers : Headers) : Headers :=
  Ordered.update [] (headers.map fun h => (lower h.1, h.2))

def identityHeaders : Headers := [("accept-encoding".toList, "identity".toList)]

def requestHeaders : Option Headers → Headers
  | none => identityHeaders
  | some headers => Ordered.update identityHeaders (lowered headers)

def validateCap (maxBytes : CountSetting) : Except String Int :=
  let refusal := s!"max_bytes must be a positive integer number of bytes; got {maxBytes.rendered}."
    ++ " A cap below one refuses every response, silently and forever."
  match maxBytes with
  | .other _ => throw refusal
  | .int n => if n < 1 then throw refusal else pure n

namespace Call

variable (timeout : String) (c : Call)

def request : Request := ⟨c.method, c.url, requestHeaders c.headers, c.content, false⟩

def timedOut : Outcome := .timeoutError s!"{c.method} {c.url} timed out after {timeout}s"

def settled : Result → Outcome
  | .response response => .response response
  | .tooLarge maxBytes => .responseTooLarge maxBytes
  | .encoded encoding => .contentEncodingRejected encoding
  | .error exc =>
    if exc.isTimeout then c.timedOut timeout
    else .transportFailure s!"[{exc.typeName}] {c.url}"
  | .deadline => c.timedOut timeout
  | .cancelled => .cancelled

def read (maxBytes : Int) (response : StreamedResponse) (s : Reading) : Phase :=
  match s.outcome with
  | none => .reading maxBytes response s
  | some (.ok body) => .closing (.response ⟨response.statusCode, lowered response.headers, body⟩)
  | some (.error _) => .closing (.tooLarge maxBytes)

def step : Machine Phase Event Request
  | .idle, .begun =>
    match validateCap c.maxBytes with
    | .ok maxBytes => some (.opening maxBytes, [c.request])
    | .error message => some (.ended (.valueError message), [])
  | .opening maxBytes, .opened response =>
    match response.headers.lookup "content-encoding".toList with
    | some encoding => some (.closing (.encoded encoding), [])
    | none => some (.reading maxBytes response ⟨response.aiterRaw, [], false, none⟩, [])
  | .opening _, .raised exc => some (.ended (c.settled timeout (.error exc)), [])
  | .opening _, .deadline => some (.ended (c.settled timeout .deadline), [])
  | .opening _, .cancelled => some (.ended (c.settled timeout .cancelled), [])
  | .reading maxBytes response s, .chunk =>
    (s.step maxBytes .resumed).map fun r => (read maxBytes response r.1, [])
  | .reading maxBytes response s, .aborted =>
    (s.step maxBytes .cancelled).map fun r => (read maxBytes response r.1, [])
  | .reading .., .raised exc => some (.closing (.error exc), [])
  | .reading .., .deadline => some (.closing .deadline, [])
  | .reading .., .cancelled => some (.closing .cancelled, [])
  | .closing result, .closed => some (.ended (c.settled timeout result), [])
  | .closing _, .raised exc => some (.ended (c.settled timeout (.error exc)), [])
  | .closing .cancelled, .deadline => some (.closing .cancelled, [])
  | .closing _, .deadline => some (.closing .deadline, [])
  | .closing _, .cancelled => some (.closing .cancelled, [])
  | _, _ => none

end Call

variable {timeout : String} {c c' : Call} {p q : Phase} {e : Event} {fs : List Request}
  {tr : List (Transition Phase Event Request)} {maxBytes : Int} {response : StreamedResponse}
  {s : Reading} {outcome : Outcome} {message : String} {headers : Headers} {k : Text}

theorem validateCap_ok {n : Int} : validateCap c.maxBytes = .ok n ↔ c.maxBytes = .int n ∧ 1 ≤ n := by
  unfold validateCap
  cases c.maxBytes with
  | other rendered => exact iff_of_false nofun nofun
  | int m =>
    dsimp only
    by_cases hm : m < 1
    · rw [if_pos hm]
      refine iff_of_false nofun ?_
      rintro ⟨h, hn⟩
      cases h
      omega
    · rw [if_neg hm]
      constructor
      · intro h
        cases h
        exact ⟨rfl, by omega⟩
      · rintro ⟨h, -⟩
        cases h
        rfl

/-- The header a request carries under a name: the caller's last for it in any case, or the identity
encoding that stands beneath. -/
def carried (headers : Headers) (k : Text) : Option Text :=
  (Ordered.get (headers.map fun h => (lower h.1, h.2)).reverse k).or (Ordered.get identityHeaders k)

theorem requestHeaders_nodup (headers : Option Headers) :
    ((requestHeaders headers).map Prod.fst).Nodup := by
  have hone : (identityHeaders.map Prod.fst).Nodup := List.nodup_singleton _
  cases headers with
  | none => exact hone
  | some headers => exact Ordered.nodup_update hone _

theorem get_requestHeaders (headers : Headers) (k : Text) :
    Ordered.get (requestHeaders (some headers)) k = carried headers k := by
  have hnodup : ((lowered headers).map Prod.fst).Nodup := Ordered.nodup_update (t := []) List.nodup_nil _
  have hget : Ordered.get (lowered headers) k =
      Ordered.get (headers.map fun h => (lower h.1, h.2)).reverse k := by
    rw [lowered, Ordered.get_update]
    exact Option.or_none
  rw [requestHeaders, Ordered.get_update, Ordered.get_reverse hnodup, hget]
  rfl

section Secrecy

def ClientError.bare (exc : ClientError) : ClientError :=
  { exc with request := ⟨"", "", [], [], false⟩ }

def Result.bare : Result → Result
  | .error exc => .error exc.bare
  | result => result

def Phase.bare : Phase → Phase
  | .closing result => .closing result.bare
  | phase => phase

def Event.bare : Event → Event
  | .raised exc => .raised exc.bare
  | event => event

structure Alike (c c' : Call) : Prop where
  method : c'.method = c.method
  url : c'.url = c.url
  maxBytes : c'.maxBytes = c.maxBytes

theorem settled_bare (h : Alike c c') (result : Result) :
    c'.settled timeout result.bare = c.settled timeout result := by
  cases result with
  | error exc =>
    simp only [Result.bare, Call.settled, ClientError.bare, Call.timedOut, h.method, h.url]
  | deadline => simp only [Result.bare, Call.settled, Call.timedOut, h.method, h.url]
  | _ => rfl

theorem step_bare (h : Alike c c') (p : Phase) (e : Event) :
    (c'.step timeout p.bare e.bare).map (fun r => r.1.bare) =
      (c.step timeout p e).map fun r => r.1.bare := by
  have hended : ∀ result : Result, some (Phase.ended (c'.settled timeout result.bare)) =
      some (Phase.ended (c.settled timeout result)) := fun result => by rw [settled_bare h]
  cases p with
  | idle =>
    cases e with
    | begun =>
      simp only [Phase.bare, Event.bare, Call.step, h.maxBytes]
      cases validateCap c.maxBytes <;> rfl
    | _ => rfl
  | opening n =>
    cases e with
    | opened response =>
      simp only [Phase.bare, Event.bare, Call.step]
    | raised exc => exact hended (.error exc)
    | deadline => exact hended .deadline
    | cancelled => exact hended .cancelled
    | _ => rfl
  | reading n response s => cases e <;> rfl
  | closing result =>
    cases e with
    | closed => exact hended result
    | raised exc =>
      have hraised := hended (.error exc)
      cases result <;> exact hraised
    | _ => cases result <;> rfl
  | ended => cases e <;> rfl

/-- Two calls that differ in what they send, with exceptions that differ in what hangs off them, come
to one outcome. -/
theorem same_outcome (h : Alike c c') (hr : Run (c.step timeout) .idle tr (.ended outcome))
    {tr' : List (Transition Phase Event Request)} {p' : Phase}
    (hr' : Run (c'.step timeout) .idle tr' p')
    (he : tr.map (fun x => x.event.bare) = tr'.map fun x => x.event.bare) :
    p' = .ended outcome := by
  have hbare : (Phase.ended outcome).bare = p'.bare := by
    refine Run.agree Phase.bare Phase.bare Event.bare Event.bare ?_ hr hr' rfl he
    intro p p' e e' q q' fs fs' hp he hq hq'
    have hs : (c'.step timeout p.bare e.bare).map (fun r => r.1.bare) =
        (c.step timeout p e).map fun r => r.1.bare := step_bare h p e
    have hs' : (c'.step timeout p'.bare e'.bare).map (fun r => r.1.bare) =
        (c'.step timeout p' e').map fun r => r.1.bare := step_bare ⟨rfl, rfl, rfl⟩ p' e'
    rw [hp, he, hs', hq, hq'] at hs
    exact (Option.some.inj hs).symm
  cases p' with
  | ended => exact hbare.symm
  | closing => cases hbare
  | _ => cases hbare

end Secrecy

section Runs

def requests (tr : List (Transition Phase Event Request)) : List Request := tr.flatMap (·.effects)

def Seen (tr : List (Transition Phase Event Request)) (e : Event) : Prop := ∃ x ∈ tr, x.event = e

theorem requests_snoc : requests (tr ++ [⟨p, e, fs, q⟩]) = requests tr ++ fs := by
  simp [requests]

theorem Seen.snoc {e' : Event} (h : Seen tr e) : Seen (tr ++ [⟨p, e', fs, q⟩]) e := by
  obtain ⟨x, hx, he⟩ := h
  exact ⟨x, List.mem_append_left _ hx, he⟩

theorem seen_last : Seen (tr ++ [⟨p, e, fs, q⟩]) e :=
  ⟨_, List.mem_append_right _ List.mem_cons_self, rfl⟩

inductive Came (maxBytes : Int) (tr : List (Transition Phase Event Request)) : Result → Prop
  | response {response : StreamedResponse} : Seen tr (.opened response) →
    response.headers.lookup "content-encoding".toList = none →
    (response.aiterRaw.flatten.length : Int) ≤ maxBytes →
    Came maxBytes tr
      (.response ⟨response.statusCode, lowered response.headers, response.aiterRaw.flatten⟩)
  | tooLarge {response : StreamedResponse} : Seen tr (.opened response) →
    response.headers.lookup "content-encoding".toList = none →
    maxBytes < response.aiterRaw.flatten.length → Came maxBytes tr (.tooLarge maxBytes)
  | encoded {response : StreamedResponse} {encoding : Text} : Seen tr (.opened response) →
    response.headers.lookup "content-encoding".toList = some encoding →
    Came maxBytes tr (.encoded encoding)
  | error {exc : ClientError} : Seen tr (.raised exc) → Came maxBytes tr (.error exc)
  | deadline : Seen tr .deadline → Came maxBytes tr .deadline
  | cancelled : Seen tr .cancelled → Came maxBytes tr .cancelled

theorem Came.snoc {result : Result} (h : Came maxBytes tr result) :
    Came maxBytes (tr ++ [⟨p, e, fs, q⟩]) result := by
  cases h with
  | response hs hn hl => exact .response hs.snoc hn hl
  | tooLarge hs hn hl => exact .tooLarge hs.snoc hn hl
  | encoded hs he => exact .encoded hs.snoc he
  | error hs => exact .error hs.snoc
  | deadline hs => exact .deadline hs.snoc
  | cancelled hs => exact .cancelled hs.snoc

/-- The cap is one, and the request has been made, once. -/
structure Started (c : Call) (maxBytes : Int) (tr : List (Transition Phase Event Request)) : Prop where
  cap : c.maxBytes = .int maxBytes ∧ 1 ≤ maxBytes
  once : requests tr = [c.request]

theorem Started.snoc (h : Started c maxBytes tr) : Started c maxBytes (tr ++ [⟨p, e, [], q⟩]) := by
  constructor
  · exact h.cap
  · rw [requests_snoc, h.once, List.append_nil]

/-- The read of a response as far as the call has come with it; no exception reached it. -/
structure Read (maxBytes : Int) (response : StreamedResponse) (s : Reading) : Prop where
  plain : response.headers.lookup "content-encoding".toList = none
  run : ∃ tr, Run (Reading.step maxBytes) ⟨response.aiterRaw, [], false, none⟩ tr s ∧
    ∀ x ∈ tr, ∀ exc, x.event ≠ .raised exc

theorem Read.next (h : Read maxBytes response s) {e : CappedRead.Event} {u : Reading}
    {bounds : List Int} (hs : s.step maxBytes e = some (u, bounds)) (he : ∀ exc, e ≠ .raised exc) :
    Read maxBytes response u := by
  obtain ⟨hplain, tr, hr, hquiet⟩ := h
  refine ⟨hplain, _, hr.snoc hs, fun x hx => ?_⟩
  obtain hx | hx := List.mem_append.mp hx
  · exact hquiet x hx
  · obtain rfl := List.mem_singleton.mp hx
    exact he

theorem Read.ended (h : Read maxBytes response s) (hcap : 1 ≤ maxBytes) {r : Except Exn Bytes}
    (ho : s.outcome = some r) :
    (r = .ok response.aiterRaw.flatten ∧ (response.aiterRaw.flatten.length : Int) ≤ maxBytes) ∨
      ((∃ exc, r = .error exc) ∧ maxBytes < response.aiterRaw.flatten.length) := by
  obtain ⟨hplain, tr, hr, hquiet⟩ := h
  have ha := along_run (begun_ok.mpr ⟨hplain, rfl⟩) (by omega) hr
  obtain ⟨taken, ht, -⟩ := ha.took
  cases ha.ended r ho with
  | whole hw hc =>
    obtain ⟨hbody, hle⟩ := took_all ht hw hc
    exact .inl ⟨by rw [hbody], hle⟩
  | tooLarge hc => exact .inr ⟨⟨_, rfl⟩, too_large ht hc⟩
  | raised hx he => exact absurd he (hquiet _ hx _)

inductive Placed (timeout : String) (c : Call) (tr : List (Transition Phase Event Request)) :
    Phase → Prop
  | idle : requests tr = [] → Placed timeout c tr .idle
  | opening {n : Int} : Started c n tr → Placed timeout c tr (.opening n)
  | reading {n : Int} {response : StreamedResponse} {s : Reading} : Started c n tr →
    Seen tr (.opened response) → Read n response s → Placed timeout c tr (.reading n response s)
  | closing {n : Int} {result : Result} : Started c n tr → Came n tr result →
    Placed timeout c tr (.closing result)
  | refused {message : String} : validateCap c.maxBytes = .error message → requests tr = [] →
    Placed timeout c tr (.ended (.valueError message))
  | ended {n : Int} {result : Result} : Started c n tr → Came n tr result →
    Placed timeout c tr (.ended (c.settled timeout result))

theorem placed_read (hstart : Started c maxBytes tr) (hseen : Seen tr (.opened response))
    (hread : Read maxBytes response s) : Placed timeout c tr (Call.read maxBytes response s) := by
  unfold Call.read
  split
  · exact .reading hstart hseen hread
  · rename_i body ho
    obtain ⟨hbody, hle⟩ | ⟨⟨exc, he⟩, -⟩ := hread.ended hstart.cap.2 ho
    · cases hbody
      exact .closing hstart (.response hseen hread.plain hle)
    · cases he
  · rename_i exc ho
    obtain ⟨hbody, -⟩ | ⟨-, hlt⟩ := hread.ended hstart.cap.2 ho
    · cases hbody
    · exact .closing hstart (.tooLarge hseen hread.plain hlt)

theorem placed_step (h : Placed timeout c tr p) (hs : c.step timeout p e = some (q, fs)) :
    Placed timeout c (tr ++ [⟨p, e, fs, q⟩]) q := by
  cases h with
  | idle hnone =>
    cases e with
    | begun =>
      simp only [Call.step] at hs
      cases hv : validateCap c.maxBytes with
      | ok n =>
        rw [hv] at hs
        cases hs
        refine .opening ⟨validateCap_ok.mp hv, ?_⟩
        rw [requests_snoc, hnone]
        rfl
      | error message =>
        rw [hv] at hs
        cases hs
        refine .refused hv ?_
        rw [requests_snoc, hnone]
        rfl
    | _ => cases hs
  | opening hstart =>
    cases e with
    | opened response =>
      simp only [Call.step] at hs
      cases hl : response.headers.lookup "content-encoding".toList with
      | some encoding =>
        rw [hl] at hs
        cases hs
        exact .closing hstart.snoc (.encoded seen_last hl)
      | none =>
        rw [hl] at hs
        cases hs
        exact .reading hstart.snoc seen_last ⟨hl, [], Run.nil, by simp⟩
    | raised exc =>
      cases hs
      exact .ended hstart.snoc (.error seen_last)
    | deadline =>
      cases hs
      exact .ended hstart.snoc (.deadline seen_last)
    | cancelled =>
      cases hs
      exact .ended hstart.snoc (.cancelled seen_last)
    | _ => cases hs
  | reading hstart hseen hread =>
    cases e with
    | chunk =>
      obtain ⟨⟨u, bounds⟩, hu, he⟩ := Option.map_eq_some_iff.mp hs
      cases he
      exact placed_read hstart.snoc hseen.snoc (hread.next hu (by simp))
    | aborted =>
      obtain ⟨⟨u, bounds⟩, hu, he⟩ := Option.map_eq_some_iff.mp hs
      cases he
      exact placed_read hstart.snoc hseen.snoc (hread.next hu (by simp))
    | raised exc =>
      cases hs
      exact .closing hstart.snoc (.error seen_last)
    | deadline =>
      cases hs
      exact .closing hstart.snoc (.deadline seen_last)
    | cancelled =>
      cases hs
      exact .closing hstart.snoc (.cancelled seen_last)
    | _ => cases hs
  | @closing n result hstart hcame =>
    cases e with
    | closed =>
      cases hs
      exact .ended hstart.snoc hcame.snoc
    | raised exc =>
      have hq : q = .ended (c.settled timeout (.error exc)) ∧ fs = [] := by
        cases result <;> cases hs <;> exact ⟨rfl, rfl⟩
      obtain ⟨rfl, rfl⟩ := hq
      exact .ended hstart.snoc (.error seen_last)
    | deadline =>
      by_cases hc : result = .cancelled
      · subst hc
        cases hs
        exact .closing hstart.snoc hcame.snoc
      · have hq : q = .closing .deadline ∧ fs = [] := by
          cases result <;> first | exact absurd rfl hc | cases hs; exact ⟨rfl, rfl⟩
        obtain ⟨rfl, rfl⟩ := hq
        exact .closing hstart.snoc (.deadline seen_last)
    | cancelled =>
      have hq : q = .closing .cancelled ∧ fs = [] := by
        cases result <;> cases hs <;> exact ⟨rfl, rfl⟩
      obtain ⟨rfl, rfl⟩ := hq
      exact .closing hstart.snoc (.cancelled seen_last)
    | _ => cases result <;> cases hs
  | refused => cases e <;> cases hs
  | ended => cases e <;> cases hs

theorem placed_run (h : Run (c.step timeout) .idle tr p) : Placed timeout c tr p := by
  apply h.invariant (I := fun tr p => Placed timeout c tr p)
  · exact .idle rfl
  · intro tr t e u fs _ hp he
    exact placed_step hp he

/-- Chunk after chunk, a read comes to its end. -/
theorem drains (c : Call) (timeout : String) (maxBytes : Int) (response : StreamedResponse)
    (waiting : List Bytes) (s : Reading) (hw : s.waiting = waiting) (ho : s.outcome = none) :
    ∃ tr result, Run (c.step timeout) (.reading maxBytes response s) tr (.closing result) ∧
      ∀ x ∈ tr, x.event = .chunk := by
  induction waiting generalizing s with
  | nil =>
    have hstep : s.step maxBytes .resumed = some (s.left, []) := by
      simp only [Reading.step, ho, hw]
      rfl
    have hread : ∃ result, Call.read maxBytes response s.left = .closing result := by
      unfold Call.read Reading.left
      cases s.cancelCalled <;> exact ⟨_, rfl⟩
    obtain ⟨result, hread⟩ := hread
    have hlast : c.step timeout (.reading maxBytes response s) .chunk =
        some (.closing result, []) := by
      rw [Call.step, hstep, Option.map_some, hread]
    refine ⟨_, result, Run.single hlast, fun x hx => ?_⟩
    obtain rfl := List.mem_singleton.mp hx
    rfl
  | cons chunk rest ih =>
    obtain ⟨⟨u, bounds⟩, hstep, hrest, hnone⟩ : ∃ r : Reading × List Int,
        s.step maxBytes .resumed = some r ∧ r.1.waiting = rest ∧ r.1.outcome = none := by
      simp only [Reading.step, ho, hw]
      exact ⟨_, rfl, rfl, rfl⟩
    obtain ⟨tr, result, hr, hchunk⟩ := ih u hrest hnone
    have hnext : c.step timeout (.reading maxBytes response s) .chunk =
        some (.reading maxBytes response u, []) := by
      rw [Call.step, hstep, Option.map_some, Call.read, hnone]
    refine ⟨_, result, (Run.single hnext).append hr, fun x hx => ?_⟩
    obtain hx | hx := List.mem_append.mp hx
    · obtain rfl := List.mem_singleton.mp hx
      rfl
    · exact hchunk x hx

def delivered (maxBytes : Int) (response : StreamedResponse) : Outcome :=
  if (response.aiterRaw.flatten.length : Int) ≤ maxBytes then
    .response ⟨response.statusCode, lowered response.headers, response.aiterRaw.flatten⟩
  else .responseTooLarge maxBytes

theorem settled_delivered {result : Result} (timeout : String) (c : Call)
    (hcame : Came maxBytes tr result)
    (hplain : response.headers.lookup "content-encoding".toList = none)
    (hmet : ∀ e, Seen tr e → e = .begun ∨ e = .opened response ∨ e = .chunk) :
    c.settled timeout result = delivered maxBytes response := by
  have hopened : ∀ other, Seen tr (.opened other) → other = response := by
    intro other hs
    simpa using hmet _ hs
  cases hcame with
  | response hs _ hle =>
    obtain rfl := hopened _ hs
    exact (if_pos hle).symm
  | tooLarge hs _ hlt =>
    obtain rfl := hopened _ hs
    exact (if_neg (by omega)).symm
  | encoded hs he =>
    obtain rfl := hopened _ hs
    rw [hplain] at he
    cases he
  | error hs => simpa using hmet _ hs
  | deadline hs => simpa using hmet _ hs
  | cancelled hs => simpa using hmet _ hs

theorem delivers (timeout : String) (hcap : validateCap c.maxBytes = .ok maxBytes)
    (hplain : response.headers.lookup "content-encoding".toList = none) :
    ∃ tr, Run (c.step timeout) .idle tr (.ended (delivered maxBytes response)) := by
  have hbegun : c.step timeout .idle .begun = some (.opening maxBytes, [c.request]) := by
    rw [Call.step, hcap]
  have hopened : c.step timeout (.opening maxBytes) (.opened response) =
      some (.reading maxBytes response ⟨response.aiterRaw, [], false, none⟩, []) := by
    rw [Call.step, hplain]
  obtain ⟨tr, result, hr, hchunk⟩ := drains c timeout maxBytes response _
    ⟨response.aiterRaw, [], false, none⟩ rfl rfl
  obtain ⟨tr', hrun, hmet⟩ : ∃ tr', Run (c.step timeout) .idle tr' (.closing result) ∧
      ∀ e, Seen tr' e → e = .begun ∨ e = .opened response ∨ e = .chunk := by
    refine ⟨_, ((Run.single hbegun).append (Run.single hopened)).append hr, ?_⟩
    rintro e ⟨x, hx, rfl⟩
    simp only [List.mem_append, List.mem_singleton] at hx
    obtain (rfl | rfl) | hx := hx
    · exact .inl rfl
    · exact .inr (.inl rfl)
    · exact .inr (.inr (hchunk x hx))
  have hplaced := placed_run hrun
  cases hplaced with
  | closing hstart hcame =>
    have hsame := validateCap_ok.mpr hstart.cap
    rw [hcap] at hsame
    cases hsame
    have hclosed : c.step timeout (.closing result) .closed =
        some (.ended (c.settled timeout result), []) := by
      cases result <;> rfl
    rw [← settled_delivered timeout c hcame hplain hmet]
    exact ⟨_, hrun.snoc hclosed⟩

/-- At most one request is made, none under a cap that is not one; what the caller is given came of
what the call met, and tells nothing of what it sent. -/
structure Contained (timeout : String) (c : Call) : Prop where
  sent : ∀ tr p, Run (c.step timeout) .idle tr p → requests tr = [] ∨
    requests tr = [c.request] ∧ ∃ n, validateCap c.maxBytes = .ok n
  headed : (c.request.headers.map Prod.fst).Nodup ∧
    ∀ k, Ordered.get c.request.headers k = carried (c.headers.getD []) k
  refused : ∀ message, validateCap c.maxBytes = .error message → ∀ tr outcome,
    Run (c.step timeout) .idle tr (.ended outcome) → outcome = .valueError message
  came : ∀ n, validateCap c.maxBytes = .ok n → ∀ tr outcome,
    Run (c.step timeout) .idle tr (.ended outcome) →
    ∃ result, Came n tr result ∧ outcome = c.settled timeout result
  delivers : ∀ n response, validateCap c.maxBytes = .ok n →
    response.headers.lookup "content-encoding".toList = none →
    ∃ tr, Run (c.step timeout) .idle tr (.ended (delivered n response))
  silent : ∀ c', Alike c c' → ∀ tr tr' outcome p', Run (c.step timeout) .idle tr (.ended outcome) →
    Run (c'.step timeout) .idle tr' p' →
    (tr.map fun x => x.event.bare) = (tr'.map fun x => x.event.bare) → p' = .ended outcome

theorem contained (timeout : String) (c : Call) : Contained timeout c := by
  constructor
  · intro tr p h
    have hplaced := placed_run h
    cases hplaced with
    | idle hnone => exact .inl hnone
    | refused _ hnone => exact .inl hnone
    | opening hstart => exact .inr ⟨hstart.once, _, validateCap_ok.mpr hstart.cap⟩
    | reading hstart => exact .inr ⟨hstart.once, _, validateCap_ok.mpr hstart.cap⟩
    | closing hstart => exact .inr ⟨hstart.once, _, validateCap_ok.mpr hstart.cap⟩
    | ended hstart => exact .inr ⟨hstart.once, _, validateCap_ok.mpr hstart.cap⟩
  · refine ⟨requestHeaders_nodup c.headers, fun k => ?_⟩
    unfold Call.request
    cases c.headers with
    | none => rfl
    | some headers => exact get_requestHeaders headers k
  · intro message hm tr outcome h
    have hplaced := placed_run h
    generalize hp : Phase.ended outcome = p at hplaced
    cases hplaced with
    | refused hm' =>
      cases hp
      rw [hm] at hm'
      cases hm'
      rfl
    | ended hstart =>
      rw [validateCap_ok.mpr hstart.cap] at hm
      cases hm
    | _ => cases hp
  · intro n hn tr outcome h
    have hplaced := placed_run h
    generalize hp : Phase.ended outcome = p at hplaced
    cases hplaced with
    | refused hm =>
      rw [hn] at hm
      cases hm
    | @ended m result hstart hcame =>
      cases hp
      rw [validateCap_ok.mpr hstart.cap] at hn
      cases hn
      exact ⟨result, hcame, rfl⟩
    | _ => cases hp
  · intro n response hn hplain
    exact Exchange.delivers timeout hn hplain
  · intro c' halike tr tr' outcome p' h h' he
    exact same_outcome halike h h' he

end Runs

end BetterAuthBridge.Exchange
