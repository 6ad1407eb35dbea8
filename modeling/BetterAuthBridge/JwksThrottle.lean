import BetterAuthBridge.JwksSteps
import BetterAuthBridge.Library.Throttle

namespace BetterAuthBridge.JwksThrottle

open Library Library.Runs Library.Tasks Library.SingleFlight Library.Throttle Values Models
open RemoteResponse JwksDocument JwksClient JwksSteps

variable {ι κ : Type} {c : Client κ} {R : Runtime} {i j : ι} {kid : Str}
  {s t : Shared ι κ} {e : Event} {p q : Phase} {fs : List (Effect κ)} {clock : Seconds}

variable {tr : History ι κ} {w : World ι (Shared ι κ) Phase}

def holdsLock : Phase → Bool
  | .granted _ | .fetching .. => true
  | _ => false

def fetches : Phase → Bool
  | .fetching .. => true
  | _ => false

def kidOf : Phase → Option Str
  | .waiting kid | .granted kid | .fetching kid _ => some kid
  | .idle | .finished => none

def fetchingSince : Phase → Option (Option Seconds)
  | .fetching _ previous => some previous
  | _ => none

def fetchKind : Effect κ → Option Kind
  | .fetchSent _ => some .start
  | .fetchSettled _ => some .settle
  | .fetchCancelled => some .cancel
  | .ended .. => none

def fetchAttempts : Reading (Shared ι κ) Phase (Effect κ) Seconds where
  clock := Shared.clock
  last := Shared.attemptedAt
  since := fetchingSince
  kind := fetchKind

/-- One fetch at a time, fetches spaced, and none for a kid that is at hand. -/
structure Throttled (c : Client κ) (tr : History ι κ) (w : World ι (Shared ι κ) Phase) : Prop where
  single : ∀ i j, fetches (w.phase i) = true → fetches (w.phase j) = true → i = j
  spaced : tr.Pairwise fun x y => ∀ i j uri uri', Did i (.fetchSent uri) x →
    Did j (.fetchSent uri') y → (∀ z ∈ tr, ¬ Did i .fetchCancelled z) →
    (∀ z ∈ tr, ¬ Did j .fetchCancelled z) →
    x.before.shared.clock + c.refetchInterval ≤ y.before.shared.clock
  needed : ∀ a x b i uri, tr = a ++ x :: b → Did i (.fetchSent uri) x →
    ∃ kid, (∃ y ∈ a, y.event = .act i (.start kid)) ∧ c.freshHit kid x.before.shared = none
  atHand : ∀ a x b i kid jwk, tr = a ++ x :: b → x.event = .act i (.start kid) →
    c.freshHit kid x.before.shared = some jwk → x.effects = [.ended kid (.key jwk)] ∧
      ∀ y ∈ b, ∀ uri, ¬ Did i (.fetchSent uri) y

theorem turned_of_moves (h : Moves c R i s e p t q fs) :
    Turned c.refetchInterval s.clock s.attemptedAt (fetchingSince p) (fs.filterMap fetchKind)
      t.attemptedAt (fetchingSince q) := by
  cases h with
  | fetchStarted _ hm =>
    refine .start ?_
    unfold Client.mayFetch at hm
    cases hl : s.attemptedAt with
    | none => trivial
    | some l =>
      rw [hl] at hm
      exact of_decide_eq_true hm
  | replied hf hr => rw [hr.frame.2.2.2.1, hf.frame.2.2.2]; exact .quiet
  | refreshed _ hr => rw [hr.frame.2.2.2.1]; exact .settle
  | refreshFailed _ hr => rw [hr.frame.2.2.2.1]; exact .settle
  | failed => exact .settle
  | fetchAbandoned => exact .cancel
  | _ => exact .quiet

theorem locking_of_moves (h : Moves c R i s e p t q fs) :
    Locked i s.lock (holdsLock p) t.lock (holdsLock q) := by
  cases h with
  | lockAcquired h =>
    rw [h]
    exact .taken
  | replied _ hr | refreshed _ hr | refreshFailed _ hr =>
    rw [hr.frame.2.2.2.2]
    exact .given
  | hitUnderLock | remembered | failed | lockAbandoned | fetchAbandoned => exact .given
  | _ => exact .kept

variable [DecidableEq ι]

theorem single_fetch (h : Run (c.machine R) (Client.start clock) tr w)
    (hi : fetches (w.phase i) = true) (hj : fetches (w.phase j) = true) : i = j := by
  have holds : ∀ {p}, fetches p = true → holdsLock p = true := by
    intro p hp
    cases p <;> first | rfl | cases hp
  apply lock_exclusive Shared.lock holdsLock h rfl (fun _ => rfl) _ _ (holds hi) (holds hj)
  · exact fun i e s q s' q' fs he => locking_of_moves (act_moves he)
  · intro d s s' hd
    obtain ⟨-, rfl⟩ := drift_some hd
    rfl

theorem fetches_spaced (h : Run (c.machine R) (Client.start clock) tr w) :
    tr.Pairwise fun x y => ∀ i j, fetchAttempts.Marks i .start x → fetchAttempts.Marks j .start y →
      (∀ z ∈ tr, ¬ fetchAttempts.Marks i .cancel z) →
      (∀ z ∈ tr, ¬ fetchAttempts.Marks j .cancel z) →
      x.before.shared.clock + c.refetchInterval ≤ y.before.shared.clock := by
  have fetches_of_since : ∀ {p}, (fetchingSince p).isSome = true → fetches p = true := by
    intro p hp
    cases p <;> first | rfl | cases hp
  apply Reading.spaced (r := fetchAttempts) h rfl fun _ => rfl
  · intro tr w i e s' q fs _ he
    have hm := act_moves he
    exact ⟨clock_of_moves hm, turned_of_moves hm⟩
  · intro d s s' hd
    obtain ⟨hle, rfl⟩ := drift_some hd
    exact ⟨hle, rfl⟩
  · exact fun tr w i j hr hi hj => single_fetch hr (fetches_of_since hi) (fetches_of_since hj)

omit [DecidableEq ι] in
theorem kidOf_of_moves (h : Moves c R i s e p t q fs) (hq : kidOf q = some kid) :
    kidOf p = some kid ∨ p = .idle ∧ e = .start kid := by
  cases h with
  | missed =>
    cases hq
    exact .inr ⟨rfl, rfl⟩
  | lockAcquired | fetchStarted => exact .inl hq
  | _ => cases hq

theorem started (h : Run (c.machine R) (Client.start clock) tr w) :
    ∀ i kid, kidOf (w.phase i) = some kid → ∃ y ∈ tr, y.event = .act i (.start kid) := by
  refine h.invariant (I := fun tr w => ∀ i kid, kidOf (w.phase i) = some kid →
    ∃ y ∈ tr, y.event = .act i (.start kid)) nofun ?_
  intro tr w ev u fs _ ih hu j kid hj
  have weaken : (∃ y ∈ tr, y.event = .act j (.start kid)) →
      ∃ y ∈ tr ++ [⟨w, ev, fs, u⟩], y.event = .act j (.start kid) :=
    fun ⟨y, hy, he⟩ => ⟨y, List.mem_append_left _ hy, he⟩
  obtain ⟨i, e, rfl, hm, hother⟩ | ⟨now, rfl, -, -, rfl⟩ := machine_moves hu
  · by_cases hji : j = i
    · subst hji
      obtain hp | ⟨-, rfl⟩ := kidOf_of_moves hm hj
      · exact weaken (ih j kid hp)
      · exact ⟨_, List.mem_append_right _ (List.mem_singleton_self _), rfl⟩
    · rw [hother j hji] at hj
      exact weaken (ih j kid hj)
  · exact weaken (ih j kid hj)

omit [DecidableEq ι] in
theorem fetchSent_of_moves {uri : String} (h : Moves c R i s e p t q fs)
    (hf : .fetchSent uri ∈ fs) : ∃ kid, p = .granted kid ∧ c.freshHit kid s = none := by
  cases h with
  | fetchStarted hn => exact ⟨_, rfl, hn⟩
  | _ => simp at hf

theorem finished_stays {u : World ι (Shared ι κ) Phase} (h : Run (c.machine R) w tr u)
    (hp : w.phase i = .finished) : u.phase i = .finished := by
  refine (halted (P := fun p => p = .finished) h ?_ hp).1
  rintro j e s _ s' q' fs ha rfl
  cases act_moves ha

/-- One fetch at a time, in intervals, and none for a kid at hand, in every run. -/
theorem throttled (c : Client κ) (R : Runtime) (clock : Seconds)
    (h : Run (c.machine R) (Client.start clock) tr w) : Throttled c tr w := by
  constructor
  · exact fun i j => single_fetch h
  · refine (fetches_spaced h).imp ?_
    intro x y hxy i j uri uri' hx hy hi hj
    have hcancel : ∀ {k}, (∀ z ∈ tr, ¬ Did k .fetchCancelled z) →
        ∀ z ∈ tr, ¬ fetchAttempts.Marks k .cancel z := by
      rintro k hk z hz ⟨f, hf, hkind⟩
      cases f <;> cases hkind
      exact hk z hz hf
    exact hxy i j ⟨_, hx, rfl⟩ ⟨_, hy, rfl⟩ (hcancel hi) (hcancel hj)
  · rintro a x b i uri rfl ⟨⟨e, he⟩, hf⟩
    obtain ⟨hr, hx, -⟩ := h.at
    have hm := moves_of_event hx he
    obtain ⟨kid, hp, hn⟩ := fetchSent_of_moves hm hf
    exact ⟨kid, started hr i kid (by rw [hp]; rfl), hn⟩
  · rintro a x b i kid jwk rfl hev hh
    obtain ⟨-, hx, hb⟩ := h.at
    have hm := moves_of_event hx hev
    have hend : x.after.phase i = .finished ∧ x.effects = [.ended kid (.key jwk)] := by
      generalize x.before.phase i = p at hm
      generalize x.after.phase i = q at hm
      generalize x.effects = fs at hm
      generalize x.after.shared = t at hm
      cases hm with
      | hit hh' =>
        cases hh.symm.trans hh'
        exact ⟨rfl, rfl⟩
      | missed hn => cases hh.symm.trans hn
    refine ⟨hend.2, fun y hy uri hd => ?_⟩
    obtain ⟨c', d, rfl, hr, hu, -⟩ := hb.of_mem hy
    obtain ⟨⟨e, he⟩, hf⟩ := id hd
    have hm' := moves_of_event hu he
    obtain ⟨kid', hp, -⟩ := fetchSent_of_moves hm' hf
    cases hp.symm.trans (finished_stays hr hend.1)

section Sample

def jwksText : Text :=
  "\x7b\"keys\": [\x7b\"kid\": \"k1\", \"alg\": \"EdDSA\"\x7d]\x7d".toList

def jwksDocument : Payload :=
  [(ofString "keys", .list [.dict [(ofString "kid", .str (ofString "k1")),
    (ofString "alg", .str (ofString "EdDSA"))]])]

def jwksRuntime : Runtime where
  hmacSha256 _ _ := default
  sha256 _ := default
  loads
    | .bytes b => if b = encodeUtf8 jwksText then some (.dict jwksDocument) else none
    | .str _ => none
  fromisoformat _ := none
  repr t := "'" ++ String.ofList t ++ "'"

def sampleClient : Client Unit where
  uri := "https://auth.example/api/auth/jwks"
  algorithms := [ofString "EdDSA"]
  maxKeys := 16
  library := ⟨fun _ _ => some (), fun _ => 0⟩
  cacheTtl := 300
  negativeTtl := 60
  refetchInterval := 30

def jwksAnswer : Answer :=
  .response ⟨200, [("content-type".toList, jsonMediaType)], encodeUtf8 jwksText⟩

def fetchingCall (i : Nat) (kid : String) (answer : Answer) : List (Happening Nat Event Seconds) :=
  [.start (ofString kid), .lockAcquired, .lockResumed, .answered answer].map (.act i)

end Sample

def fetchStarts (tr : History Nat Unit) : Nat :=
  (tr.filter fun x => x.effects.any fun | .fetchSent _ => true | _ => false).length

theorem throttled_sample : ∃ (tr : History Nat Unit) (w : World Nat (Shared Nat Unit) Phase),
    Run (sampleClient.machine jwksRuntime) (Client.start 0) tr w ∧ (fetchStarts tr == 2) = true ∧
      Throttled sampleClient tr w := by
  have h : ((replay (sampleClient.machine jwksRuntime) (Client.start 0)
      (fetchingCall 0 "k1" jwksAnswer ++ .drift 30 :: fetchingCall 1 "k2" jwksAnswer)).any
        fun r => fetchStarts r.1 == 2) = true := by decide +kernel
  obtain ⟨tr, w, hr, hp⟩ := Run.of_replay_any (P := fun tr => fetchStarts tr == 2) h
  exact ⟨tr, w, hr, hp, throttled _ _ _ hr⟩

end BetterAuthBridge.JwksThrottle
