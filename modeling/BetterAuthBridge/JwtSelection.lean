import BetterAuthBridge.JwksAnswers
import BetterAuthBridge.JwksKeyMap
import BetterAuthBridge.JwtVerifier

namespace BetterAuthBridge.JwtSelection

open Library Library.Runs Library.Tasks Values Errors Models JwksDocument JwksKeyMap JwtVerifier
open JwksClient (Shared)
open Urls (Setting)
open JwksSteps (Moves)
open JwksThrottle (kidOf)

variable {ι κ υ : Type}

abbrev History (ι κ υ : Type) := Trace ι (Shared ι κ) (Phase υ) (Event υ) Seconds (Effect κ υ)

abbrev Step (ι κ υ : Type) :=
  Transition (World ι (Shared ι κ) (Phase υ)) (Happening ι (Event υ) Seconds) (Effect κ υ)

/-- A token that a key is looked up for: its shape, and what its header says. -/
structure Admits (v : Verifier κ) (token : Str) (header : Payload) (kid algorithm : Str) :
    Prop where
  short : token.length ≤ maxTokenBytes
  segments : ∃ a b c, token = a ++ .char '.' :: (b ++ .char '.' :: c) ∧
    .char '.' ∉ a ∧ .char '.' ∉ b ∧ .char '.' ∉ c
  read : v.jwt.getUnverifiedHeader token = .ok header
  noCrit : header.lookup (ofString "crit") = none
  kidMember : header.get "kid" = .str kid
  named : kid.blank = false
  algMember : header.get "alg" = .str algorithm
  allowed : algorithm ∈ v.algorithms.1
  supported : algorithm ∈ supportedAlgorithms

/-- A key set that was fetched in these steps has this key under the kid, and no other. -/
structure PublishedAs (v : Verifier κ) (R : Runtime) (tr : History ι κ υ) (keys : KeySet κ)
    (kid : Str) (jwk : Jwk κ) : Prop where
  listed : Ordered.get keys kid = some jwk
  same : jwk.kid = kid
  fetched : ∃ y ∈ tr, ∃ j response now fields entries,
    y.event = .act j (.lookup (.answered (.response response)) now) ∧
    R.loads (.bytes response.content) = some (.dict fields) ∧
    Payload.get fields "keys" = .list entries ∧ FirstUsable v.keys.toReader entries kid jwk

/-- The token a call was started with, and the key that was chosen for it in this step. -/
structure Chosen (v : Verifier κ) (R : Runtime) (a : History ι κ υ) (x : Step ι κ υ) (i : ι)
    (token : Str) (header : Payload) (kid algorithm : Str) (jwk : Jwk κ) : Prop where
  started : ∃ y ∈ a ++ [x], ∃ userModel now, y.event = .act i (.start (.token token) userModel now)
  admits : Admits v token header kid algorithm
  published : ∃ keys, x.after.shared.keys = some keys ∧ PublishedAs v R (a ++ [x]) keys kid jwk
  agrees : jwk.algorithm = algorithm

/-- What a verifier keeps to, whatever tokens it is handed: a session is made of a decode with the
key that was chosen for its token, no decode is with another key, and what is refused for its shape
or its header is refused at once. -/
structure Selective (v : Verifier κ) (R : Runtime) (tr : History ι κ υ) : Prop where
  sessions : ∀ a x b i found, tr = a ++ x :: b → Did i (.ended (.session found)) x →
    ∃ token header kid algorithm jwk, Chosen v R a x i token header kid algorithm jwk ∧
      ∃ now claims userModel marker, v.jwt.decode (v.decoding token jwk) now = .ok claims ∧
        checkedClaims claims v.maxTokenLifetime.1 userModel marker = .ok found ∧
        Did i (.decodeCalled (v.decoding token jwk)) x
  decodes : ∀ a x b i d, tr = a ++ x :: b → Did i (.decodeCalled d) x →
    ∃ token header kid algorithm jwk, Chosen v R a x i token header kid algorithm jwk ∧
      d = v.decoding token jwk
  refusals : ∀ a x b i token userModel now, tr = a ++ x :: b →
    x.event = .act i (.start (.token token) userModel now) →
    (¬ ∃ header kid algorithm, Admits v token header kid algorithm) →
    x.after.shared = x.before.shared ∧ ∀ y ∈ tr, ∀ f, Did i f y → ∃ exc, f = .ended (.raised exc)

/-- A section's part of a lookup: for which verification and at what time, from where, and what
comes before it. -/
inductive Enters (v : Verifier κ) (R : Runtime) : Event υ → Phase υ → Pending υ → ℚ →
    JwksClient.Event → JwksClient.Phase → List (Effect κ υ) → Prop
  | start {credential userModel now pending} : admitted R v credential userModel = .ok pending →
      Enters v R (.start credential userModel now) .idle pending now (.start pending.kid) .idle
        [.keyAsked pending.kid]
  | lookup {event now pending q} :
      Enters v R (.lookup event now) (.looking pending q) pending now event q []

/-- Everything one section of a `verify` can do. -/
inductive Acts (v : Verifier κ) (R : Runtime) (i : ι) (s : Shared ι κ) :
    Event υ → Phase υ → Shared ι κ → Phase υ → List (Effect κ υ) → Prop
  | refused {credential userModel now exc} : admitted R v credential userModel = .error exc →
      Acts v R i s (.start credential userModel now) .idle s .finished [.ended (.raised exc)]
  | waits {e p pending now event q before t q' gs} : Enters v R e p pending now event q before →
      v.keys.act R i event s q = some (t, q', gs) → lookupEnding gs = none →
      Acts v R i s e p t (.looking pending q') (before ++ gs.map .keys)
  | ends {e p pending now event q before t q' gs ending} :
      Enters v R e p pending now event q before →
      v.keys.act R i event s q = some (t, q', gs) → lookupEnding gs = some ending →
      Acts v R i s e p t .finished (before ++ (gs.map .keys ++ v.concluded pending now ending))

variable {v : Verifier κ} {R : Runtime} {i : ι} {s t : Shared ι κ} {e : Event υ} {p q : Phase υ}
  {fs : List (Effect κ υ)} {pending : Pending υ} {now : ℚ} {token : Str} {header : Payload}
  {kid algorithm : Str} {marker : String} {credential : Credential} {userModel : UserModel υ}
  {clock : Seconds} {tr : History ι κ υ} {w : World ι (Shared ι κ) (Phase υ)}

section Admission

theorem checkedShape_ok {shape : Str × String} : checkedShape R credential = .ok shape ↔
    credential = .token shape.1 ∧ shape.1.length ≤ maxTokenBytes ∧
      shape.1.count (.char '.') = dotSeparators ∧ shape.2 = fingerprint R (replaced shape.1) := by
  obtain ⟨token', marker⟩ := shape
  cases credential with
  | token token =>
    rw [checkedShape]
    by_cases hnil : token = []
    · simp only [hnil, if_true, throw_eq_error, Credential.token.injEq]
      refine iff_of_false (by simp) ?_
      rintro ⟨rfl, -, hcount, -⟩
      cases hcount
    · by_cases hlen : maxTokenBytes < token.length
      · simp only [hnil, hlen, if_true, if_false, throw_eq_error, Credential.token.injEq]
        refine iff_of_false (by simp) ?_
        rintro ⟨rfl, hle, -⟩
        exact not_lt.mpr hle hlen
      · by_cases hcount : token.count (.char '.') = dotSeparators
        · simp only [hnil, hlen, hcount, if_false, not_true, pure_eq_ok, ne_eq, Except.ok.injEq,
            Prod.mk.injEq, Credential.token.injEq]
          constructor
          · rintro ⟨rfl, rfl⟩
            exact ⟨rfl, not_lt.mp hlen, hcount, rfl⟩
          · rintro ⟨rfl, -, -, rfl⟩
            exact ⟨rfl, rfl⟩
        · simp only [hnil, hlen, hcount, if_false, if_true, not_false_iff, throw_eq_error, ne_eq,
            Credential.token.injEq]
          refine iff_of_false (by simp) ?_
          rintro ⟨rfl, -, hc, -⟩
          exact hcount hc
  | ambiguousBearer => simp [checkedShape]
  | other typeName => simp [checkedShape]

theorem unverifiedHeader_ok {jwt : JwtLibrary κ} :
    unverifiedHeader jwt token marker = .ok header ↔
      jwt.getUnverifiedHeader token = .ok header := by
  rw [unverifiedHeader]
  cases jwt.getUnverifiedHeader token with
  | ok found => simp
  | error failure => cases failure <;> simp

theorem noCriticalExtensions_ok {u : Unit} :
    noCriticalExtensions header marker = .ok u ↔ header.lookup (ofString "crit") = none := by
  rw [noCriticalExtensions]
  cases header.lookup (ofString "crit") <;> simp

theorem usableKid_ok :
    usableKid header marker = .ok kid ↔ header.get "kid" = .str kid ∧ kid.blank = false := by
  rw [usableKid]
  cases header.get "kid" with
  | str found =>
    by_cases hb : found.blank = true
    · simp only [hb, if_true, throw_eq_error, Value.str.injEq]
      refine iff_of_false (by simp) ?_
      rintro ⟨rfl, hn⟩
      cases hb.symm.trans hn
    · simp only [hb, if_false, pure_eq_ok, Except.ok.injEq, Value.str.injEq, Bool.false_eq_true,
        iff_self_and]
      rintro rfl
      exact eq_false_of_ne_true hb
  | _ => simp

theorem allowedAlgorithm_ok {allowed : List Str} :
    allowedAlgorithm header allowed marker = .ok algorithm ↔
      header.get "alg" = .str algorithm ∧ algorithm ∈ allowed := by
  rw [allowedAlgorithm]
  cases header.get "alg" with
  | str found =>
    by_cases ha : found ∈ allowed
    · simp only [ha, if_true, pure_eq_ok, Except.ok.injEq, Value.str.injEq, iff_self_and]
      rintro rfl
      exact ha
    · simp only [ha, if_false, throw_eq_error, Value.str.injEq]
      refine iff_of_false (by simp) ?_
      rintro ⟨rfl, hm⟩
      exact ha hm
  | _ => simp

theorem segments_iff : token.count (.char '.') = dotSeparators ↔
    ∃ a b c, token = a ++ .char '.' :: (b ++ .char '.' :: c) ∧
      .char '.' ∉ a ∧ .char '.' ∉ b ∧ .char '.' ∉ c := by
  rw [dotSeparators, Text.count_eq_succ]
  constructor
  · rintro ⟨a, rest, rfl, ha, hrest⟩
    obtain ⟨b, c, rfl, hb, hc⟩ := Text.count_eq_succ.mp hrest
    exact ⟨a, b, c, rfl, ha, hb, List.count_eq_zero.mp hc⟩
  · rintro ⟨a, b, c, rfl, ha, hb, hc⟩
    exact ⟨a, _, rfl, ha, Text.count_eq_succ.mpr ⟨b, c, rfl, hb, List.count_eq_zero.mpr hc⟩⟩

theorem admitted_ok : admitted R v credential userModel = .ok pending ↔
    ∃ header, credential = .token pending.token ∧
      Admits v pending.token header pending.kid pending.algorithm ∧
      pending.marker = fingerprint R (replaced pending.token) ∧ pending.userModel = userModel := by
  obtain ⟨token, marker, kid, algorithm, model⟩ := pending
  have hmarker : credential ≠ .ambiguousBearer →
      admitted R v credential userModel = checkedShape R credential >>= fun shape => do
        let header ← unverifiedHeader v.jwt shape.1 shape.2
        noCriticalExtensions header shape.2
        let kid ← usableKid header shape.2
        let algorithm ← allowedAlgorithm header v.algorithms.1 shape.2
        return ⟨shape.1, shape.2, kid, algorithm, userModel⟩ := by
    intro hne
    rw [admitted, if_neg hne]
  by_cases hc : credential = .ambiguousBearer
  · subst hc
    rw [admitted, if_pos rfl]
    refine iff_of_false (by simp) ?_
    rintro ⟨-, hn, -⟩
    cases hn
  · rw [hmarker hc]
    simp only [bind_eq_ok, checkedShape_ok, unverifiedHeader_ok, noCriticalExtensions_ok,
      usableKid_ok, allowedAlgorithm_ok, segments_iff, pure_eq_ok, Except.ok.injEq,
      Pending.mk.injEq]
    constructor
    · rintro ⟨shape, ⟨hcred, hlen, hseg, hmark⟩, header, hread, -, hcrit, _, ⟨hk, hn⟩, _, ⟨ha, hm⟩,
        rfl, rfl, rfl, rfl, rfl⟩
      exact ⟨header, hcred, ⟨hlen, hseg, hread, hcrit, hk, hn, ha, hm, v.algorithms.2 _ hm⟩, hmark,
        rfl⟩
    · rintro ⟨header, hcred, h, rfl, rfl⟩
      exact ⟨(token, _), ⟨hcred, h.short, h.segments, rfl⟩, header, h.read, (), h.noCrit, kid,
        ⟨h.kidMember, h.named⟩, algorithm, ⟨h.algMember, h.allowed⟩, rfl, rfl, rfl, rfl, rfl⟩

end Admission

section Sections

theorem resumed_acts {event : JwksClient.Event} {q' r : JwksClient.Phase}
    {gs : List (JwksClient.Effect κ)} {before : List (Effect κ υ)}
    (he : Enters v R e p pending now event q' before)
    (hk : v.keys.act R i event s q' = some (t, r, gs)) :
    Acts v R i s e p t (v.resumed pending now (t, r, gs)).2.1
      (before ++ (v.resumed pending now (t, r, gs)).2.2) := by
  cases hl : lookupEnding gs with
  | none =>
    have hr : v.resumed pending now (t, r, gs) = (t, .looking pending r, gs.map .keys) := by
      rw [Verifier.resumed, hl]
    rw [hr]
    exact .waits he hk hl
  | some ending =>
    have hr : v.resumed pending now (t, r, gs) =
        (t, .finished, gs.map .keys ++ v.concluded pending now ending) := by
      rw [Verifier.resumed, hl]
    rw [hr]
    exact .ends he hk hl

theorem resumed_shared (v : Verifier κ) (pending : Pending υ) (now : ℚ)
    (turn : JwksClient.Turn ι κ) : (v.resumed pending now turn).1 = turn.1 := by
  rw [Verifier.resumed]
  cases lookupEnding turn.2.2 <;> rfl

theorem act_acts (h : v.act R i e s p = some (t, q, fs)) : Acts v R i s e p t q fs := by
  unfold Verifier.act at h
  split at h
  · rename_i credential userModel now
    cases ha : admitted R v credential userModel with
    | error exc =>
      rw [ha] at h
      cases h
      exact .refused ha
    | ok pending =>
      rw [ha] at h
      obtain ⟨⟨u, r, gs⟩, hk, ht⟩ := Option.map_eq_some_iff.mp h
      simp only [Prod.mk.injEq, resumed_shared] at ht
      obtain ⟨rfl, rfl, rfl⟩ := ht
      exact resumed_acts (.start ha) hk
  · rename_i event now pending lookup
    obtain ⟨⟨u, r, gs⟩, hk, ht⟩ := Option.map_eq_some_iff.mp h
    have hs := resumed_shared v pending now (u, r, gs)
    rw [ht] at hs
    obtain rfl : t = u := hs
    have he : Enters v R (.lookup event now) (.looking pending lookup) pending now event lookup
        [] := .lookup
    have hacts := resumed_acts he hk
    rwa [ht] at hacts
  · cases h

theorem ended_of_lookupEnding {gs : List (JwksClient.Effect κ)} {ending : JwksClient.Ending κ}
    (h : lookupEnding gs = some ending) : ∃ kid, .ended kid ending ∈ gs := by
  obtain ⟨f, hf, he⟩ := List.exists_of_findSome?_eq_some h
  cases f with
  | ended kid found =>
    cases he
    exact ⟨kid, hf⟩
  | _ => cases he

theorem kid_of_moves {c : JwksClient.Client κ} {event : JwksClient.Event} {q r : JwksClient.Phase}
    {gs : List (JwksClient.Effect κ)} (h : Moves c R i s event q t r gs)
    (hn : lookupEnding gs = none) (hk : kidOf q = some kid ∨ event = .start kid) :
    kidOf r = some kid := by
  cases h with
  | missed =>
    obtain hk | hk := hk
    · cases hk
    · cases hk
      rfl
  | lockAcquired | fetchStarted =>
    obtain hk | hk := hk
    · exact hk
    · cases hk
  | _ => cases hn

theorem kid_unique {c : JwksClient.Client κ} {event : JwksClient.Event} {q r : JwksClient.Phase}
    {gs : List (JwksClient.Effect κ)} {kid' : Str} (h : Moves c R i s event q t r gs)
    (hk : kidOf q = some kid ∨ event = .start kid)
    (hk' : kidOf q = some kid' ∨ event = .start kid') : kid' = kid := by
  cases h with
  | hit | missed =>
    obtain hk | hk := hk
    · cases hk
    · obtain hk' | hk' := hk'
      · cases hk'
      · cases hk
        cases hk'
        rfl
  | _ =>
    obtain hk | hk := hk
    · obtain hk' | hk' := hk'
      · exact Option.some.inj (hk'.symm.trans hk)
      · cases hk'
    · cases hk

theorem key_of_act {c : JwksClient.Client κ} {event : JwksClient.Event} {q r : JwksClient.Phase}
    {gs : List (JwksClient.Effect κ)} {jwk : Jwk κ} (h : c.act R i event s q = some (t, r, gs))
    (he : lookupEnding gs = some (.key jwk)) (hk : kidOf q = some kid ∨ event = .start kid) :
    ∃ keys, t.keys = some keys ∧ Ordered.get keys kid = some jwk := by
  have hm := JwksSteps.act_moves h
  obtain ⟨kid', hf⟩ := ended_of_lookupEnding he
  obtain ⟨hends, hk'⟩ := JwksAnswers.ends_of_moves hm hf
  obtain rfl := kid_unique hm hk hk'
  exact hends.key

theorem decode_of_concluded {d : Decoding κ} {ending : JwksClient.Ending κ}
    (h : .decodeCalled d ∈ v.concluded pending now ending) :
    ∃ jwk, ending = .key jwk ∧ jwk.algorithm = pending.algorithm ∧
      d = v.decoding pending.token jwk := by
  cases ending with
  | key jwk =>
    by_cases ha : jwk.algorithm = pending.algorithm
    · refine ⟨jwk, rfl, ha, ?_⟩
      simpa [Verifier.concluded, Verifier.closed, keyFound, ha] using h
    · simp [Verifier.concluded, Verifier.closed, keyFound, ha] at h
  | absent => simp [Verifier.concluded, Verifier.closed, keyFound] at h
  | raised exc => simp [Verifier.concluded] at h
  | cancelled => simp [Verifier.concluded] at h

theorem decoded_ok {jwk : Jwk κ} {claims : Payload} : decoded v token jwk marker now = .ok claims ↔
    v.jwt.decode (v.decoding token jwk) now = .ok claims := by
  rw [decoded]
  cases v.jwt.decode (v.decoding token jwk) now with
  | ok found => simp
  | error failure => cases failure <;> simp

theorem session_of_concluded {found : Session υ} {ending : JwksClient.Ending κ}
    (h : .ended (.session found) ∈ v.concluded pending now ending) :
    ∃ jwk claims, .decodeCalled (v.decoding pending.token jwk) ∈ v.concluded pending now ending ∧
      v.jwt.decode (v.decoding pending.token jwk) now = .ok claims ∧
      checkedClaims claims v.maxTokenLifetime.1 pending.userModel pending.marker = .ok found := by
  cases ending with
  | key jwk =>
    by_cases ha : jwk.algorithm = pending.algorithm
    · have hall : v.concluded pending now (.key jwk) =
          [.decodeCalled (v.decoding pending.token jwk),
            .ended (.of (v.proved pending jwk now))] := by
        simp [Verifier.concluded, Verifier.closed, keyFound, ha]
      rw [hall] at h ⊢
      have hproved : v.proved pending jwk now = .ok found := by
        cases hp : v.proved pending jwk now with
        | ok other =>
          rw [hp] at h
          simpa [Ending.of, eq_comm] using h
        | error exc =>
          rw [hp] at h
          simp [Ending.of] at h
      obtain ⟨claims, hd, hc⟩ := bind_eq_ok.mp hproved
      exact ⟨jwk, claims, List.mem_cons_self, decoded_ok.mp hd, hc⟩
    · simp [Verifier.concluded, Verifier.closed, keyFound, ha] at h
  | absent => simp [Verifier.concluded, Verifier.closed, keyFound] at h
  | raised exc => simp [Verifier.concluded] at h
  | cancelled => simp [Verifier.concluded] at h

theorem act_idle (h : Acts v R i s e p t q fs) : q ≠ .idle := by
  cases h <;> nofun

theorem act_finished (h : Acts v R i s e p t q fs) : p ≠ .finished := by
  cases h with
  | refused => nofun
  | waits he | ends he => cases he <;> nofun

/-- Where an effect of a section comes from: a refusal, its lookup, or what follows the lookup. -/
theorem effect_of_acts {f : Effect κ υ} (h : Acts v R i s e p t q fs) (hf : f ∈ fs) :
    (∃ exc, f = .ended (.raised exc)) ∨ (∃ kid, f = .keyAsked kid) ∨ (∃ g, f = .keys g) ∨
    ∃ pending now event r before r' gs ending, Enters v R e p pending now event r before ∧
      v.keys.act R i event s r = some (t, r', gs) ∧ lookupEnding gs = some ending ∧
      f ∈ v.concluded pending now ending ∧ v.concluded pending now ending ⊆ fs := by
  have asked : ∀ {pending : Pending υ} {now event r before},
      Enters v R e p pending now event r before → f ∈ before → ∃ kid, f = .keyAsked kid := by
    intro _ _ _ _ _ he hf
    cases he with
    | start => exact ⟨_, List.mem_singleton.mp hf⟩
    | lookup => cases hf
  have looked : ∀ {gs : List (JwksClient.Effect κ)}, f ∈ gs.map Effect.keys → ∃ g, f = .keys g := by
    intro gs hf
    obtain ⟨g, -, rfl⟩ := List.mem_map.mp hf
    exact ⟨g, rfl⟩
  cases h with
  | refused => exact .inl ⟨_, List.mem_singleton.mp hf⟩
  | waits he =>
    obtain hf | hf := List.mem_append.mp hf
    · exact .inr (.inl (asked he hf))
    · exact .inr (.inr (.inl (looked hf)))
  | ends he hk hl =>
    obtain hf | hf := List.mem_append.mp hf
    · exact .inr (.inl (asked he hf))
    · obtain hf | hf := List.mem_append.mp hf
      · exact .inr (.inr (.inl (looked hf)))
      · refine .inr (.inr (.inr ⟨_, _, _, _, _, _, _, _, he, hk, hl, hf, fun g hg => ?_⟩))
        exact List.mem_append_right _ (List.mem_append_right _ hg)

theorem decode_of_acts {d : Decoding κ} (h : Acts v R i s e p t q fs) (hd : .decodeCalled d ∈ fs) :
    ∃ pending now event r before r' gs jwk, Enters v R e p pending now event r before ∧
      v.keys.act R i event s r = some (t, r', gs) ∧ lookupEnding gs = some (.key jwk) ∧
      jwk.algorithm = pending.algorithm ∧ d = v.decoding pending.token jwk := by
  obtain ⟨_, hf⟩ | ⟨_, hf⟩ | ⟨_, hf⟩ | ⟨_, _, _, _, _, _, _, _, he, hk, hl, hf, -⟩ :=
    effect_of_acts h hd
  · cases hf
  · cases hf
  · cases hf
  · obtain ⟨jwk, rfl, ha, rfl⟩ := decode_of_concluded hf
    exact ⟨_, _, _, _, _, _, _, jwk, he, hk, hl, ha, rfl⟩

/-- A session comes with its decode. -/
theorem session_of_acts {found : Session υ} (h : Acts v R i s e p t q fs)
    (hf : .ended (.session found) ∈ fs) : ∃ d now claims userModel marker,
      .decodeCalled d ∈ fs ∧ v.jwt.decode d now = .ok claims ∧
      checkedClaims claims v.maxTokenLifetime.1 userModel marker = .ok found := by
  obtain ⟨_, hf⟩ | ⟨_, hf⟩ | ⟨_, hf⟩ | ⟨_, _, _, _, _, _, _, _, -, -, -, hf, hsub⟩ :=
    effect_of_acts h hf
  · cases hf
  · cases hf
  · cases hf
  · obtain ⟨jwk, claims, hd, hclaims, hchecked⟩ := session_of_concluded hf
    exact ⟨_, _, claims, _, _, hsub hd, hclaims, hchecked⟩

end Sections

section Runs

variable [DecidableEq ι]

theorem machine_acts {u : World ι (Shared ι κ) (Phase υ)} {h : Happening ι (Event υ) Seconds}
    (hu : v.machine R w h = some (u, fs)) :
    (∃ i e, h = .act i e ∧ Acts v R i w.shared e (w.phase i) u.shared (u.phase i) fs ∧
      ∀ j, j ≠ i → u.phase j = w.phase j) ∨
    ∃ now, h = .drift now ∧ w.shared.clock ≤ now ∧ fs = [] ∧
      u = ⟨{ w.shared with clock := now }, w.phase⟩ := by
  obtain ⟨i, e, rfl, ha, hother⟩ | ⟨now, t, rfl, hd, rfl, rfl⟩ := Program.machine_steps hu
  · exact .inl ⟨i, e, rfl, act_acts ha, hother⟩
  · have hd' : (v.keys.program R).drift now w.shared = some t := hd
    obtain ⟨hle, rfl⟩ := JwksSteps.drift_some hd'
    exact .inr ⟨now, rfl, hle, rfl, rfl⟩

theorem acts_of_event {x : Step ι κ υ}
    (hx : v.machine R x.before x.event = some (x.after, x.effects)) (he : x.event = .act i e) :
    Acts v R i x.before.shared e (x.before.phase i) x.after.shared (x.after.phase i) x.effects :=
  act_acts (Program.act_of_event hx he)

structure Waiting (v : Verifier κ) (tr : History ι κ υ) (i : ι) (pending : Pending υ) : Prop where
  started : ∃ y ∈ tr, ∃ userModel now,
    y.event = .act i (.start (.token pending.token) userModel now)
  admits : ∃ header, Admits v pending.token header pending.kid pending.algorithm

omit [DecidableEq ι] in
theorem Waiting.later {x : Step ι κ υ} (h : Waiting v tr i pending) :
    Waiting v (tr ++ [x]) i pending :=
  ⟨h.started.imp fun _ hy => ⟨List.mem_append_left _ hy.1, hy.2⟩, h.admits⟩

omit [DecidableEq ι] in
theorem Enters.waiting (x : Step ι κ υ) {event : JwksClient.Event} {r : JwksClient.Phase}
    {before : List (Effect κ υ)} (h : Enters v R e p pending now event r before)
    (hx : x.event = .act i e) (hp : ∀ pending' lookup, p = .looking pending' lookup →
      Waiting v tr i pending' ∧ kidOf lookup = some pending'.kid) :
    Waiting v (tr ++ [x]) i pending ∧
      (kidOf r = some pending.kid ∨ event = .start pending.kid) := by
  cases h with
  | start ha =>
    obtain ⟨header, rfl, hadmits, -⟩ := admitted_ok.mp ha
    exact ⟨⟨⟨x, List.mem_append_right _ (List.mem_singleton_self _), _, _, hx⟩, header, hadmits⟩,
      .inr rfl⟩
  | lookup =>
    obtain ⟨hw, hk⟩ := hp _ _ rfl
    exact ⟨hw.later, .inl hk⟩

theorem waiting (h : Run (v.machine R) (Verifier.start clock) tr w) :
    ∀ i pending lookup, w.phase i = .looking pending lookup →
      Waiting v tr i pending ∧ kidOf lookup = some pending.kid := by
  refine h.invariant (I := fun tr w => ∀ i pending lookup, w.phase i = .looking pending lookup →
    Waiting v tr i pending ∧ kidOf lookup = some pending.kid) nofun ?_
  intro tr w ev u fs _ ih hu j pending lookup hj
  obtain ⟨i, e, rfl, hm, hother⟩ | ⟨now, rfl, -, -, rfl⟩ := machine_acts hu
  · by_cases hji : j = i
    · subst hji
      have hprev := ih j
      generalize hp : w.phase j = p at hm hprev
      rw [hj] at hm
      generalize ht : u.shared = t at hm
      cases hm with
      | waits he hk hn =>
        obtain ⟨hw, hkid⟩ := he.waiting ⟨w, .act j e, _, u⟩ rfl hprev
        exact ⟨hw, kid_of_moves (JwksSteps.act_moves hk) hn hkid⟩
    · rw [hother j hji] at hj
      obtain ⟨hw, hk⟩ := ih j pending lookup hj
      exact ⟨hw.later, hk⟩
  · obtain ⟨hw, hk⟩ := ih j pending lookup hj
    exact ⟨hw.later, hk⟩

def lookedUp (v : Verifier κ) (R : Runtime) (x : Step ι κ υ) :
    List (Happening ι JwksClient.Event Seconds) :=
  match x.event with
  | .drift now => [.drift now]
  | .act i (.lookup event _) => [.act i event]
  | .act i (.start credential userModel _) =>
    match admitted R v credential userModel with
    | .ok pending => [.act i (.start pending.kid)]
    | .error _ => []

structure Mirrors (w : World ι (Shared ι κ) (Phase υ)) (g : World ι (Shared ι κ) JwksClient.Phase) :
    Prop where
  shared : g.shared = w.shared
  idle : ∀ i, w.phase i = .idle → g.phase i = .idle
  looking : ∀ i pending lookup, w.phase i = .looking pending lookup → g.phase i = lookup

omit [DecidableEq ι] in
theorem Enters.mirrored {g : World ι (Shared ι κ) JwksClient.Phase} {event : JwksClient.Event}
    {r : JwksClient.Phase} {before : List (Effect κ υ)}
    (h : Enters v R e p pending now event r before) (hp : w.phase i = p) (hg : Mirrors w g)
    (fs : List (Effect κ υ)) (u : World ι (Shared ι κ) (Phase υ)) :
    g.phase i = r ∧ lookedUp v R ⟨w, .act i e, fs, u⟩ = [.act i event] := by
  cases h with
  | start ha => exact ⟨hg.idle i hp, by simp only [lookedUp, ha]⟩
  | lookup => exact ⟨hg.looking i _ _ hp, rfl⟩

theorem Mirrors.act {g : World ι (Shared ι κ) JwksClient.Phase} {event : JwksClient.Event}
    {r r' : JwksClient.Phase} {gs : List (JwksClient.Effect κ)} (hg : Mirrors w g)
    (hr : g.phase i = r) (hk : v.keys.act R i event w.shared r = some (t, r', gs))
    (hidle : q ≠ .idle) (hnext : ∀ pending lookup, q = .looking pending lookup → r' = lookup) :
    ∃ tr' g', Run (v.keys.machine R) g tr' g' ∧ Mirrors ⟨t, Function.update w.phase i q⟩ g' ∧
      tr'.map (·.event) = [.act i event] := by
  have hstep : v.keys.machine R g (.act i event) =
      some (⟨t, Function.update g.phase i r'⟩, gs) := by
    rw [Program.machine_act]
    exact ⟨t, r', by rw [hg.shared, hr]; exact hk, rfl⟩
  refine ⟨_, _, Run.single hstep, ⟨rfl, fun j hj => ?_, fun j pending lookup hj => ?_⟩, rfl⟩
  · by_cases hji : j = i
    · subst hji
      exact (hidle (by simpa using hj)).elim
    · simp only [Function.update_of_ne hji] at hj ⊢
      exact hg.idle j hj
  · by_cases hji : j = i
    · subst hji
      simpa using hnext pending lookup (by simpa using hj)
    · simp only [Function.update_of_ne hji] at hj ⊢
      exact hg.looking j pending lookup hj

theorem Mirrors.refused {g : World ι (Shared ι κ) JwksClient.Phase} (hg : Mirrors w g)
    (hp : w.phase i = .idle) : Mirrors ⟨w.shared, Function.update w.phase i .finished⟩ g where
  shared := hg.shared
  idle j hj := by
    by_cases hji : j = i
    · subst hji
      exact hg.idle j hp
    · exact hg.idle j (by simpa [hji] using hj)
  looking j pending lookup hj := by
    by_cases hji : j = i
    · subst hji
      simp at hj
    · exact hg.looking j pending lookup (by simpa [hji] using hj)

/-- Every run of a verifier is a run of the client of its key set. -/
theorem lookups_run (h : Run (v.machine R) (Verifier.start clock) tr w) :
    ∃ tr' g, Run (v.keys.machine R) (JwksClient.Client.start clock) tr' g ∧ Mirrors w g ∧
      tr'.map (·.event) = tr.flatMap (lookedUp v R) := by
  refine h.simulate Mirrors (lookedUp v R) ⟨rfl, fun _ _ => rfl, nofun⟩ ?_
  rintro tr w (⟨i, e⟩ | now) u fs g - hg hu
  · obtain ⟨t, q, ha, rfl⟩ := Program.machine_act.mp hu
    have hacts := act_acts ha
    generalize hp : w.phase i = p at hacts
    cases hacts with
    | refused hn => exact ⟨[], g, Run.nil, hg.refused hp, by simp only [lookedUp, hn]; rfl⟩
    | waits he hk hn =>
      obtain ⟨hr, hlook⟩ := he.mirrored hp hg _ _
      rw [hlook]
      refine hg.act hr hk nofun ?_
      intro _ _ h
      cases h
      rfl
    | ends he hk hn =>
      obtain ⟨hr, hlook⟩ := he.mirrored hp hg _ _
      rw [hlook]
      exact hg.act hr hk nofun nofun
  · obtain ⟨t, hd, rfl, rfl⟩ := Program.machine_drift.mp hu
    have hstep : v.keys.machine R g (.drift now) = some (⟨t, g.phase⟩, []) := by
      rw [Program.machine_drift]
      exact ⟨t, by rw [hg.shared]; exact hd, rfl, rfl⟩
    exact ⟨_, _, Run.single hstep, ⟨rfl, hg.idle, hg.looking⟩, rfl⟩

omit [DecidableEq ι] in
theorem answered_of_lookedUp {x : Step ι κ υ} {j : ι} {answer : RemoteResponse.Answer}
    (h : .act j (.answered answer) ∈ lookedUp v R x) :
    ∃ now, x.event = .act j (.lookup (.answered answer) now) := by
  unfold lookedUp at h
  split at h
  · simp at h
  · rename_i event now he
    obtain ⟨rfl, rfl⟩ : j = _ ∧ _ = event := by simpa using h
    exact ⟨now, he⟩
  · split at h <;> simp at h

/-- The key set on hand was read from an answer in this run. -/
theorem keys_fetched (h : Run (v.machine R) (Verifier.start clock) tr w) {keys : KeySet κ}
    (hk : w.shared.keys = some keys) : ∃ y ∈ tr, ∃ j response now,
      y.event = .act j (.lookup (.answered (.response response)) now) ∧
        v.keys.parsed R response = .ok keys := by
  obtain ⟨tr', g, hr, hg, hevents⟩ := lookups_run h
  have hlisted : JwksAnswers.listed tr' = some keys := by
    rw [← JwksAnswers.keys_onHand hr, hg.shared, hk]
  obtain ⟨y', hy', f, hf, hs⟩ := mem_of_latest hlisted
  obtain rfl : f = .fetchSettled (some keys) := by
    cases f with
    | fetchSettled found =>
      rw [JwksAnswers.settledKeys] at hs
      rw [hs]
    | _ => cases hs
  obtain ⟨-, -, -, -, hstep, -⟩ := hr.of_mem hy'
  obtain ⟨j, e, he, hm⟩ := JwksSteps.moves_of_effect hstep hf
  obtain ⟨answer, rfl, hfetched⟩ := JwksAnswers.fetchSettled_of_moves hm hf
  obtain ⟨response, rfl, hparsed⟩ := fetched_ok hfetched
  have hmem : .act j (.answered (.response response)) ∈ tr.flatMap (lookedUp v R) := by
    rw [← hevents, ← he]
    exact List.mem_map_of_mem hy'
  obtain ⟨y, hy, hy''⟩ := List.mem_flatMap.mp hmem
  obtain ⟨now, hev⟩ := answered_of_lookedUp hy''
  exact ⟨y, hy, j, response, now, hev, hparsed⟩

/-- A key of the key set on hand is one that was published under its kid. -/
theorem published (h : Run (v.machine R) (Verifier.start clock) tr w) {keys : KeySet κ}
    {jwk : Jwk κ} (hk : w.shared.keys = some keys) (hg : Ordered.get keys kid = some jwk) :
    PublishedAs v R tr keys kid jwk := by
  obtain ⟨y, hy, j, response, now, hev, hparsed⟩ := keys_fetched h hk
  obtain ⟨-, value, hv, hmap⟩ := parsed_keyMap hparsed
  obtain ⟨fields, entries, rfl, he, hfirst⟩ := hmap.first
  have hf := (hfirst kid jwk).mp hg
  obtain ⟨-, -, -, -, -, hsame, -⟩ := id hf
  exact ⟨hg, hsame, y, hy, j, response, now, fields, entries, hev, hv, he, hf⟩

/-- The key of a decode was chosen for the token of its call. -/
theorem decode_chosen {a b : History ι κ υ} {x : Step ι κ υ} {d : Decoding κ}
    (h : Run (v.machine R) (Verifier.start clock) (a ++ x :: b) w)
    (hd : Did i (.decodeCalled d) x) :
    ∃ token header kid algorithm jwk, Chosen v R a x i token header kid algorithm jwk ∧
      d = v.decoding token jwk := by
  obtain ⟨⟨e, he⟩, hf⟩ := hd
  obtain ⟨hr, hx, -⟩ := h.at
  have hacts := acts_of_event hx he
  obtain ⟨pending, now, event, r, before, r', gs, jwk, hent, hk, hl, halg, rfl⟩ :=
    decode_of_acts hacts hf
  obtain ⟨⟨hstart, header, hadmits⟩, hkid⟩ := hent.waiting x he (waiting hr i)
  obtain ⟨keys, hkeys, hg⟩ := key_of_act hk hl hkid
  have hpublished := published (hr.snoc hx) hkeys hg
  exact ⟨_, header, _, _, jwk, ⟨hstart, hadmits, ⟨keys, hkeys, hpublished⟩, halg⟩, rfl⟩

theorem refused_at_once {a b : History ι κ υ} {x : Step ι κ υ}
    (h : Run (v.machine R) (Verifier.start clock) (a ++ x :: b) w)
    (he : x.event = .act i (.start (.token token) userModel now))
    (hn : ¬ ∃ header kid algorithm, Admits v token header kid algorithm) :
    x.after.shared = x.before.shared ∧
      ∀ y ∈ a ++ x :: b, ∀ f, Did i f y → ∃ exc, f = .ended (.raised exc) := by
  obtain ⟨hr, hx, hb⟩ := h.at
  have hacts := acts_of_event hx he
  have hrefused : x.before.phase i = .idle ∧ x.after.phase i = .finished ∧
      x.after.shared = x.before.shared ∧ ∃ exc, x.effects = [.ended (.raised exc)] := by
    have notAdmitted : ∀ pending, admitted R v (.token token) userModel ≠ .ok pending := by
      intro pending hok
      obtain ⟨header, hcred, hadmits, -⟩ := admitted_ok.mp hok
      cases hcred
      exact hn ⟨header, _, _, hadmits⟩
    generalize x.before.phase i = p at hacts
    generalize x.after.phase i = q at hacts
    generalize x.after.shared = t at hacts
    generalize x.effects = fs at hacts
    cases hacts with
    | refused => exact ⟨rfl, rfl, rfl, _, rfl⟩
    | waits hent | ends hent =>
      cases hent with
      | start hok => exact (notAdmitted _ hok).elim
  obtain ⟨hidle, hfinished, hshared, exc, heffects⟩ := hrefused
  have hbefore := unmoved (P := fun p => p = .idle) hr
    (fun i e s q s' q' fs ha => act_idle (act_acts (i := i) ha)) hidle
  have hafter : ∀ y ∈ b, ∀ e, y.event ≠ .act i e := by
    refine (halted (P := fun p => p = .finished) hb ?_ hfinished).2
    rintro j e s _ s' q' fs ha rfl
    exact act_finished (act_acts ha) rfl
  refine ⟨hshared, fun y hy f hd => ?_⟩
  obtain ⟨⟨e', he'⟩, hf⟩ := hd
  obtain hy | hy := List.mem_append.mp hy
  · exact (hbefore y hy e' he').elim
  · obtain rfl | hy := List.mem_cons.mp hy
    · rw [heffects] at hf
      exact ⟨exc, List.mem_singleton.mp hf⟩
    · exact (hafter y hy e' he').elim

/-- In every run of a verifier, keys are chosen as they have to be. -/
theorem selective (v : Verifier κ) (R : Runtime) (clock : Seconds) (tr : History ι κ υ)
    (w : World ι (Shared ι κ) (Phase υ))
    (h : Run (v.machine R) (Verifier.start clock) tr w) : Selective v R tr := by
  constructor
  · rintro a x b i found rfl ⟨⟨e, he⟩, hf⟩
    obtain ⟨d, now, claims, userModel, marker, hd, hclaims, hchecked⟩ :=
      session_of_acts (acts_of_event h.at.2.1 he) hf
    obtain ⟨token, header, kid, algorithm, jwk, hchosen, rfl⟩ := decode_chosen h ⟨⟨e, he⟩, hd⟩
    exact ⟨token, header, kid, algorithm, jwk, hchosen, now, claims, userModel, marker, hclaims,
      hchecked, ⟨e, he⟩, hd⟩
  · rintro a x b i d rfl hd
    exact decode_chosen h hd
  · rintro a x b i token userModel now rfl he hn
    exact refused_at_once h he hn

end Runs

section Sample

def sampleToken : Str := ofString "head.claims.signature"

def sampleOrigin : Text := "https://auth.example".toList

def sampleClaims (issued expires : Int) : Payload :=
  [(ofString "sub", .str (ofString "u1")), (ofString "iss", .str (ofText sampleOrigin)),
    (ofString "aud", .str (ofText sampleOrigin)), (ofString "iat", .int issued),
    (ofString "exp", .int expires)]

def sampleLibrary (issued expires : Int) : JwtLibrary Unit where
  getUnverifiedHeader token :=
    if token = sampleToken then
      .ok [(ofString "kid", .str (ofString "k1")), (ofString "alg", .str (ofString "EdDSA"))]
    else .error (.rejected "DecodeError")
  decode decoding now :=
    if decoding.token ≠ sampleToken then .error (.rejected "InvalidSignatureError")
    else if now + decoding.leeway < issued then .error (.rejected "ImmatureSignatureError")
    else if expires ≤ now - decoding.leeway then .error .expired
    else .ok (sampleClaims issued expires)

def sampleVerifier (issued expires : Int) : Verifier Unit where
  origin := sampleOrigin
  algorithms := ⟨[ofString "EdDSA"], by decide⟩
  leeway := ⟨0, by decide⟩
  maxTokenLifetime := ⟨900, by decide +kernel⟩
  cacheTtl := 300
  keyLibrary := ⟨fun _ _ => some (), fun _ => 0⟩
  jwt := sampleLibrary issued expires

def sampleModel : UserModel Unit := ⟨"User", fun _ => .valid ()⟩

def sampleCalls : List (Happening Nat (Event Unit) Seconds) :=
  [.act 0 (.start (.token sampleToken) sampleModel 1700000100), .act 0 (.lookup .lockAcquired 0),
    .act 1 (.start (.token (ofString "head.claims")) sampleModel 1700000100),
    .act 0 (.lookup .lockResumed 0),
    .act 0 (.lookup (.answered JwksThrottle.jwksAnswer) 1700000100)]

def sessionGiven (tr : History Nat Unit Unit) : Bool :=
  tr.any fun x => x.effects.any fun | .ended (.session _) => true | _ => false

end Sample

theorem selective_sample : ∃ (tr : History Nat Unit Unit)
    (w : World Nat (Shared Nat Unit) (Phase Unit)),
    Run ((sampleVerifier 1700000000 1700000900).machine JwksThrottle.jwksRuntime)
      (Verifier.start 0) tr w ∧ sessionGiven tr = true ∧
    Selective (sampleVerifier 1700000000 1700000900) JwksThrottle.jwksRuntime tr := by
  have h : ((replay ((sampleVerifier 1700000000 1700000900).machine
      JwksThrottle.jwksRuntime) (Verifier.start 0) sampleCalls).any
        fun r => sessionGiven r.1) = true := by decide +kernel
  obtain ⟨tr, w, hr, hp⟩ := Run.of_replay_any (P := sessionGiven) h
  exact ⟨tr, w, hr, hp, selective _ _ _ _ _ hr⟩

end BetterAuthBridge.JwtSelection
