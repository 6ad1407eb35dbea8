import BetterAuthBridge.Library.Runs
import BetterAuthBridge.RemoteResponse

namespace BetterAuthBridge.CappedRead

open Library.Runs Library.Text Values Errors RemoteResponse

/-- A response whose body is still on the wire; its headers are read by their lowercased names. -/
structure StreamedResponse where
  statusCode : Int
  headers : List (Text × Text)
  aiterRaw : List Bytes

def contentEncodingRejected : Exn := .contentEncodingRejected "ContentEncodingRejected"

def responseTooLarge : Exn := .responseTooLarge "ResponseTooLarge"

/-- One `_capped` read: the chunks the stream has not handed over, the buffer, whether the abort
was requested, and how the read ended. -/
structure Reading where
  waiting : List Bytes
  body : Bytes
  cancelCalled : Bool
  outcome : Option (Except Exn Bytes)

/-- What an `await` of the stream comes to: the next chunk or the end of it, the cancellation
that was requested, or an exception. -/
inductive Event
  | resumed
  | cancelled
  | raised (exc : Exn)

def rejectContentEncoding (response : StreamedResponse) : Except Exn Unit :=
  match response.headers.lookup "content-encoding".toList with
  | some _ => throw contentEncodingRejected
  | none => pure ()

def begun (response : StreamedResponse) : Except Exn Reading := do
  rejectContentEncoding response
  return ⟨response.aiterRaw, [], false, none⟩

namespace Reading

def left (s : Reading) : Reading :=
  { s with outcome := some (if s.cancelCalled then throw responseTooLarge else pure s.body) }

/-- The read takes its next step; the effects are the slice bounds it computes. -/
def step (maxBytes : Int) : Machine Reading Event Int
  | s, .resumed =>
    if s.outcome.isSome then none
    else match s.waiting with
      | [] => some (s.left, [])
      | chunk :: rest =>
        let bound := maxBytes - s.body.length + 1
        let body := s.body ++ slice chunk bound
        some (⟨rest, body, s.cancelCalled || maxBytes < body.length, none⟩, [bound])
  | s, .cancelled =>
    if s.outcome.isNone && s.cancelCalled then some (s.left, []) else none
  | s, .raised exc =>
    if s.outcome.isSome then none else some ({ s with outcome := some (throw exc) }, [])

end Reading

variable {maxBytes : Int} {chunks : List Bytes} {s t u : Reading} {e : Event} {bounds : List Int}
  {response : StreamedResponse} {tr : List (Transition Reading Event Int)}

theorem begun_ok : begun response = .ok s ↔
    response.headers.lookup "content-encoding".toList = none ∧
      s = ⟨response.aiterRaw, [], false, none⟩ := by
  rw [begun, rejectContentEncoding]
  cases response.headers.lookup "content-encoding".toList with
  | some encoding => exact iff_of_false nofun nofun
  | none =>
    constructor
    · intro h
      exact ⟨rfl, (Except.ok.inj h).symm⟩
    · rintro ⟨-, rfl⟩
      rfl

/-- A read that has taken the given chunks holds the first `cap + 1` bytes of them, and has
requested the abort exactly if they are more than the cap. -/
structure Took (maxBytes : Int) (chunks taken : List Bytes) (s : Reading) : Prop where
  rest : chunks = taken ++ s.waiting
  body : s.body = taken.flatten.take (maxBytes + 1).toNat
  abort : s.cancelCalled = true ↔ maxBytes < taken.flatten.length

theorem Took.length_le (h : 0 ≤ maxBytes) {taken : List Bytes} (ht : Took maxBytes chunks taken s) :
    (s.body.length : Int) ≤ maxBytes + 1 := by
  rw [ht.body, List.length_take]
  omega

/-- Taking what is left of the cap plus one keeps the buffer the first `cap + 1` bytes. -/
theorem appended_eq {taken body : Bytes} {n : Nat} (chunk : Bytes) (h : body = taken.take n) :
    body ++ chunk.take (n - body.length) = (taken ++ chunk).take n := by
  subst h
  rw [List.take_append, List.length_take]
  congr 2
  omega

theorem Took.next (h : 0 ≤ maxBytes) {taken rest : List Bytes} {chunk : Bytes}
    (ht : Took maxBytes chunks taken s) (hw : s.waiting = chunk :: rest) :
    0 ≤ maxBytes - s.body.length + 1 ∧
      Took maxBytes chunks (taken ++ [chunk]) ⟨rest, s.body ++ slice chunk (maxBytes - s.body.length + 1),
        s.cancelCalled || maxBytes < (s.body ++ slice chunk (maxBytes - s.body.length + 1)).length,
        none⟩ := by
  have hle := ht.length_le h
  have hbound : 0 ≤ maxBytes - s.body.length + 1 := by omega
  have hbody : s.body ++ slice chunk (maxBytes - s.body.length + 1) =
      (taken ++ [chunk]).flatten.take (maxBytes + 1).toNat := by
    rw [slice_of_nonneg hbound, List.flatten_append, List.flatten_singleton,
      ← appended_eq chunk ht.body]
    congr 2
    omega
  refine ⟨hbound, ?_, hbody, ?_⟩
  · rw [ht.rest, hw, List.append_assoc, List.singleton_append]
  · dsimp only
    rw [Bool.or_eq_true, ht.abort, decide_eq_true_eq, hbody, List.length_take, List.flatten_append,
      List.length_append]
    omega

theorem step_cases (h : s.step maxBytes e = some (u, bounds)) : s.outcome = none ∧
    ((u = s.left ∧ bounds = [] ∧ (s.waiting = [] ∨ s.cancelCalled = true)) ∨
      (∃ exc, e = .raised exc ∧ u = { s with outcome := some (.error exc) } ∧ bounds = []) ∨
      ∃ chunk rest, s.waiting = chunk :: rest ∧ bounds = [maxBytes - s.body.length + 1] ∧
        u = ⟨rest, s.body ++ slice chunk (maxBytes - s.body.length + 1), s.cancelCalled ||
          maxBytes < (s.body ++ slice chunk (maxBytes - s.body.length + 1)).length, none⟩) := by
  cases e with
  | resumed =>
    simp only [Reading.step] at h
    split at h
    · cases h
    · rename_i ho
      refine ⟨by simpa using ho, ?_⟩
      split at h
      · rename_i hw
        cases h
        exact .inl ⟨rfl, rfl, .inl hw⟩
      · rename_i chunk rest hw
        cases h
        exact .inr (.inr ⟨chunk, rest, hw, rfl, rfl⟩)
  | cancelled =>
    simp only [Reading.step] at h
    split at h
    · rename_i hc
      rw [Bool.and_eq_true, Option.isNone_iff_eq_none] at hc
      cases h
      exact ⟨hc.1, .inl ⟨rfl, rfl, .inr hc.2⟩⟩
    · cases h
  | raised exc =>
    simp only [Reading.step] at h
    split at h
    · cases h
    · rename_i ho
      cases h
      exact ⟨by simpa using ho, .inr (.inl ⟨exc, rfl, rfl, rfl⟩)⟩

inductive Ended (tr : List (Transition Reading Event Int)) (s : Reading) :
    Except Exn Bytes → Prop
  | whole : s.waiting = [] → s.cancelCalled = false → Ended tr s (.ok s.body)
  | tooLarge : s.cancelCalled = true → Ended tr s (.error responseTooLarge)
  | raised {x exc} : x ∈ tr → x.event = .raised exc → Ended tr s (.error exc)

structure Along (maxBytes : Int) (chunks : List Bytes) (tr : List (Transition Reading Event Int))
    (s : Reading) : Prop where
  took : ∃ taken, Took maxBytes chunks taken s ∧ tr.length ≤ taken.length + 1 ∧
    (s.outcome = none → tr.length = taken.length)
  sliced : ∀ x ∈ tr, ∀ bound ∈ x.effects, 0 ≤ bound
  ended : ∀ r, s.outcome = some r → Ended tr s r

theorem left_ended (hw : s.waiting = [] ∨ s.cancelCalled = true) {r : Except Exn Bytes}
    (h : s.left.outcome = some r) : Ended tr s.left r := by
  rw [Reading.left] at h
  cases hc : s.cancelCalled with
  | true =>
    rw [hc] at h
    cases h
    exact .tooLarge hc
  | false =>
    rw [hc] at h
    cases h
    exact .whole (hw.resolve_right (by rw [hc]; decide)) hc

theorem sliced_snoc (h : ∀ x ∈ tr, ∀ bound ∈ x.effects, 0 ≤ bound)
    (hb : ∀ bound ∈ bounds, 0 ≤ bound) :
    ∀ x ∈ tr ++ [⟨s, e, bounds, u⟩], ∀ bound ∈ x.effects, 0 ≤ bound := by
  intro x hx
  obtain hx | hx := List.mem_append.mp hx
  · exact h x hx
  · obtain rfl := List.mem_singleton.mp hx
    exact hb

theorem Along.ends (h : Along maxBytes chunks tr s) (ho : s.outcome = none) {r : Except Exn Bytes}
    (hr : Ended (tr ++ [⟨s, e, [], { s with outcome := some r }⟩]) { s with outcome := some r } r) :
    Along maxBytes chunks (tr ++ [⟨s, e, [], { s with outcome := some r }⟩])
      { s with outcome := some r } := by
  obtain ⟨taken, ht, -, hlen⟩ := h.took
  constructor
  · refine ⟨taken, ⟨ht.rest, ht.body, ht.abort⟩, ?_, nofun⟩
    rw [List.length_append, hlen ho, List.length_singleton]
  · exact sliced_snoc h.sliced nofun
  · rintro _ ⟨⟩
    exact hr

theorem along_step (hcap : 0 ≤ maxBytes) (h : Along maxBytes chunks tr s)
    (he : s.step maxBytes e = some (u, bounds)) :
    Along maxBytes chunks (tr ++ [⟨s, e, bounds, u⟩]) u := by
  obtain ⟨taken, ht, -, hlen⟩ := h.took
  obtain ⟨ho, ⟨rfl, rfl, hw⟩ | ⟨exc, rfl, rfl, rfl⟩ | ⟨chunk, rest, hw, rfl, rfl⟩⟩ := step_cases he
  · exact h.ends ho (left_ended hw rfl)
  · exact h.ends ho (.raised (List.mem_append_right _ List.mem_cons_self) rfl)
  · obtain ⟨hbound, hnext⟩ := ht.next hcap hw
    constructor
    · have hsnoc : tr.length + 1 = (taken ++ [chunk]).length := by
        rw [List.length_append, hlen ho, List.length_singleton]
      refine ⟨taken ++ [chunk], hnext, ?_, fun _ => ?_⟩
      · rw [List.length_append, List.length_singleton, hsnoc]
        exact Nat.le_succ _
      · rw [List.length_append, List.length_singleton, hsnoc]
    · apply sliced_snoc h.sliced
      intro bound hb
      obtain rfl := List.mem_singleton.mp hb
      exact hbound
    · nofun

theorem along_begun (hb : begun response = .ok s) (hcap : 0 ≤ maxBytes) :
    Along maxBytes response.aiterRaw [] s := by
  obtain ⟨-, rfl⟩ := begun_ok.mp hb
  constructor
  · refine ⟨[], ⟨rfl, List.take_nil.symm, ?_⟩, Nat.zero_le _, fun _ => rfl⟩
    exact iff_of_false nofun (by simpa using hcap)
  · nofun
  · nofun

theorem along_run (hb : begun response = .ok s) (hcap : 0 ≤ maxBytes)
    (h : Run (Reading.step maxBytes) s tr t) : Along maxBytes response.aiterRaw tr t := by
  apply h.invariant (I := fun tr t => Along maxBytes response.aiterRaw tr t)
  · exact along_begun hb hcap
  · intro tr t e u fs _ ha he
    exact along_step hcap ha he

theorem took_all {taken : List Bytes} (ht : Took maxBytes chunks taken s) (hw : s.waiting = [])
    (hc : s.cancelCalled = false) :
    s.body = chunks.flatten ∧ (chunks.flatten.length : Int) ≤ maxBytes := by
  have hr := ht.rest
  rw [hw, List.append_nil] at hr
  subst hr
  have hle : ¬ maxBytes < (chunks.flatten.length : Int) := by
    rw [← ht.abort, hc]
    decide
  refine ⟨?_, by omega⟩
  rw [ht.body]
  apply List.take_of_length_le
  omega

theorem too_large {taken : List Bytes} (ht : Took maxBytes chunks taken s)
    (hc : s.cancelCalled = true) : maxBytes < (chunks.flatten.length : Int) := by
  have h := ht.abort.mp hc
  rw [ht.rest, List.flatten_append, List.length_append]
  omega

/-- A body is returned whole or not at all, whenever the cancellation takes effect. -/
structure ReadsCapped (maxBytes : Int) (chunks : List Bytes) (s : Reading) : Prop where
  bounded : ∀ tr t, Run (Reading.step maxBytes) s tr t → (t.body.length : Int) ≤ maxBytes + 1
  sliced : ∀ tr t, Run (Reading.step maxBytes) s tr t → ∀ x ∈ tr, ∀ bound ∈ x.effects, 0 ≤ bound
  returned : ∀ tr t r, Run (Reading.step maxBytes) s tr t → t.outcome = some r →
    (∀ x ∈ tr, ∀ exc, x.event ≠ .raised exc) →
    r = if (chunks.flatten.length : Int) ≤ maxBytes then .ok chunks.flatten
      else .error responseTooLarge
  whole : ∀ tr t body, Run (Reading.step maxBytes) s tr t → t.outcome = some (.ok body) →
    body = chunks.flatten ∧ (chunks.flatten.length : Int) ≤ maxBytes
  ends : ∀ tr t, Run (Reading.step maxBytes) s tr t → tr.length ≤ chunks.length + 1 ∧
    (t.outcome = none → ∃ u bounds, t.step maxBytes .resumed = some (u, bounds))

theorem body_capped (maxBytes : Int) (hcap : 1 ≤ maxBytes) (response : StreamedResponse)
    (s : Reading) (hb : begun response = .ok s) : ReadsCapped maxBytes response.aiterRaw s := by
  have hzero : 0 ≤ maxBytes := by omega
  constructor
  · intro tr t h
    obtain ⟨taken, ht, -⟩ := (along_run hb hzero h).took
    exact ht.length_le hzero
  · intro tr t h
    exact (along_run hb hzero h).sliced
  · intro tr t r h ho hquiet
    have ha := along_run hb hzero h
    obtain ⟨taken, ht, -⟩ := ha.took
    cases ha.ended r ho with
    | whole hw hc =>
      obtain ⟨hbody, hle⟩ := took_all ht hw hc
      rw [if_pos hle, hbody]
    | tooLarge hc =>
      have hlt := too_large ht hc
      rw [if_neg (by omega)]
    | raised hx he => exact absurd he (hquiet _ hx _)
  · intro tr t body h ho
    have ha := along_run hb hzero h
    obtain ⟨taken, ht, -⟩ := ha.took
    generalize hr : Except.ok body = r at ho
    cases ha.ended r ho with
    | whole hw hc =>
      cases hr
      exact took_all ht hw hc
    | tooLarge | raised => cases hr
  · intro tr t h
    obtain ⟨taken, ht, hle, -⟩ := (along_run hb hzero h).took
    refine ⟨?_, fun ho => ?_⟩
    · rw [ht.rest, List.length_append]
      omega
    · cases hw : t.waiting with
      | nil => exact ⟨_, _, by simp only [Reading.step, ho, hw]; rfl⟩
      | cons chunk rest => exact ⟨_, _, by simp only [Reading.step, ho, hw]; rfl⟩

/-- Eight bytes under a cap of four: the abort is requested at the third chunk and takes effect
after one more. -/
theorem body_capped_sample :
    ReadsCapped 4 [[1, 2, 3], [], [4, 5, 6], [7], [8]] ⟨[[1, 2, 3], [], [4, 5, 6], [7], [8]], [],
      false, none⟩ ∧
    ((replay (Reading.step 4) ⟨[[1, 2, 3], [], [4, 5, 6], [7], [8]], [], false, none⟩
      [.resumed, .resumed, .resumed, .resumed, .cancelled]).map fun r =>
        (r.1.flatMap (·.effects), r.2.body, r.2.waiting)) =
      some ([5, 2, 2, 0], [1, 2, 3, 4, 5], [[8]]) :=
  ⟨body_capped 4 (by decide) ⟨200, [], [[1, 2, 3], [], [4, 5, 6], [7], [8]]⟩ _ rfl, by decide⟩

end BetterAuthBridge.CappedRead
