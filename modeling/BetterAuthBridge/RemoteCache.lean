import BetterAuthBridge.CookieResolution
import BetterAuthBridge.RemoteSoundness
import Mathlib.Data.Set.Function

namespace BetterAuthBridge.RemoteCache

open Library Library.Runs Library.Tasks Values Models CookieParsing RemoteResponse RemoteGates
open RemoteVerifier RemoteSections RemoteSteps RemoteInvariants RemoteSoundness

variable {ι υ : Type} [DecidableEq ι] {R : Runtime} {v : Verifier} {i j : ι} {s t : Shared ι}
  {e : Event υ} {p q : Phase υ} {fs : List (Effect υ)} {tr : History ι υ}
  {w : World ι (Shared ι) (Phase υ)} {clock : Seconds} {material : Text}

def RefusedFromCache (R : Runtime) (v : Verifier) (i : ι) (material : Text)
    (x : Transition (World ι (Shared ι) (Phase υ)) (Happening ι (Event υ) Seconds) (Effect υ)) :
    Prop :=
  ∃ credential userModel pending, x.event = .act i (.start (.verify credential userModel)) ∧
    Admitted R v credential userModel pending ∧ pending.material = material ∧
    (holds R v.negativeTtl x.before.shared.clock material x.before.shared.entries).1 = true

/-- The step `x`, after the steps `a`: call `j` receives the well-formed `200 null` in answer to
the request it sent with this value. -/
structure NullReceived (R : Runtime) (v : Verifier) (j : ι) (material : Text) (a : History ι υ)
    (x : Transition (World ι (Shared ι) (Phase υ)) (Happening ι (Event υ) Seconds) (Effect υ)) :
    Prop where
  fetching : ∃ pending, x.before.phase j = .fetching pending ∧ pending.material = material
  sent : ∃ y ∈ a, Did j (.getSessionSent v.uri (Verifier.outbound v.names.base material)) y
  answered : ∃ response now, x.event = .act j (.answered (.response response) now) ∧
    response.statusCode = 200 ∧ mediaType response = jsonMediaType ∧
    R.loads (.bytes response.content) = some .none

def presentedValues (R : Runtime) (v : Verifier) (tr : History ι υ) : Set Text :=
  { material | ∃ i pending, Began R v i pending tr ∧ pending.material = material }

/-- Every refusal from the cache goes back to a recent verdict on the very value refused, and
nothing but such a verdict enters the cache. -/
structure CacheSound (R : Runtime) (v : Verifier) (tr : History ι υ) : Prop where
  refused : ∀ a x b i material, tr = a ++ x :: b → RefusedFromCache R v i material x →
    ∃ c y d j, a = c ++ y :: d ∧ NullReceived R v j material c y ∧
      x.before.shared.clock - y.before.shared.clock < v.negativeTtl
  inserted : ∀ a x b, tr = a ++ x :: b → ∀ entry ∈ x.after.shared.entries,
    entry ∈ x.before.shared.entries ∨ ∃ j material, NullReceived R v j material a x ∧
      entry = (key R material, x.before.shared.clock)
  unsent : ∀ a x b i material, tr = a ++ x :: b →
    (∀ y ∈ a, ∀ j, ¬ Did j (.getSessionSent v.uri (Verifier.outbound v.names.base material)) y) →
    ¬ RefusedFromCache R v i material x

theorem isCacheableNull_iff {response : TransportResponse} :
    isCacheableNull R response = true ↔ response.statusCode = 200 ∧
      mediaType response = jsonMediaType ∧ R.loads (.bytes response.content) = some .none := by
  simp only [isCacheableNull, Bool.and_eq_true, beq_iff_eq, and_assoc]
  cases R.loads (.bytes response.content) with
  | none => simp
  | some value => cases value <;> simp

theorem holds_fst {ttl now : Seconds} {entries : Entries}
    (h : (holds R ttl now material entries).1 = true) :
    ∃ rememberedAt, (key R material, rememberedAt) ∈ entries ∧ now - rememberedAt < ttl := by
  rw [holds] at h
  split at h
  · cases h
  · split at h
    · cases h
    · rename_i rememberedAt hg
      split at h
      · cases h
      · rename_i hlt
        exact ⟨rememberedAt, Ordered.mem_of_get hg, not_le.mp hlt⟩

theorem holds_snd {ttl now : Seconds} {entries : Entries} {entry : Digest × Seconds}
    (h : entry ∈ (holds R ttl now material entries).2) : entry ∈ entries := by
  rw [holds] at h
  split at h
  · exact h
  · split at h
    · exact h
    · split at h
      · exact Ordered.mem_of_mem_erase h
      · exact h

theorem mem_of_mem_remember {ttl now : Seconds} {maxRemembered : Nat} {entries : Entries}
    {entry : Digest × Seconds} (h : entry ∈ remember R ttl maxRemembered now material entries) :
    entry ∈ entries ∨ entry = (key R material, now) := by
  rw [remember] at h
  split at h
  · exact .inl h
  · obtain rfl | h := Ordered.mem_of_mem_set h
    · exact .inr rfl
    · split at h
      · exact .inl h
      · exact .inl ((Ordered.evicted_suffix _ _).subset h)

/-- A section leaves the cache as it is, drops entries, or adds what the answer to its request
says. -/
theorem entries_of_moves (h : Moves R v i s e p t q fs) {entry : Digest × Seconds}
    (hentry : entry ∈ t.entries) : entry ∈ s.entries ∨
      ∃ pending response now, p = .fetching pending ∧ e = .answered (.response response) now ∧
        isCacheableNull R response = true ∧ entry = (key R pending.material, s.clock) := by
  have reached : ∀ {call caller u}, Reaches R v s (υ := υ) call caller u → entry ∈ u.entries →
      entry ∈ s.entries := by
    intro call caller u hr hu
    cases hr with
    | prepare => exact hu
    | verify => exact holds_snd hu
  have closed : ∀ {pending : Pending υ} {answer now result u},
      Procedure.exec (v.closing R pending answer now) (Verifier.released i s) = (result, u) →
      entry ∈ u.entries → entry ∈ s.entries ∨ ∃ response, answer = .response response ∧
        isCacheableNull R response = true ∧ entry = (key R pending.material, s.clock) := by
    intro pending answer now result u hc hu
    rw [exec_closing] at hc
    cases hf : v.fetchTranslated answer with
    | error exc =>
      rw [hf] at hc
      cases hc
      exact .inl hu
    | ok response =>
      rw [hf] at hc
      cases hc
      by_cases hn : isCacheableNull R response = true
      · simp only [noticed, hn, if_true] at hu
        exact (mem_of_mem_remember hu).imp_right fun he =>
          ⟨response, fetchTranslated_ok.mp hf, hn, he⟩
      · simp only [noticed, hn] at hu
        exact .inl hu
  cases h with
  | turnedAway ht =>
    cases ht with
    | credential => exact .inl hentry
    | remembered | rateLimited => exact .inl (holds_snd hentry)
  | readyAtOnce hr | refusedAtOnce hr | queued hr => exact .inl (reached hr hentry)
  | rungFailed | probeFailed =>
    refine .inl ?_
    simp only [Verifier.unlocked, Verifier.noted] at hentry
    split at hentry <;> exact hentry
  | answered hc | failed hc =>
    refine (closed hc hentry).imp_right ?_
    rintro ⟨response, rfl, hn, he⟩
    exact ⟨_, response, _, rfl, rfl, hn, he⟩
  | _ => exact .inl hentry

def Backed (R : Runtime) (v : Verifier) (tr : History ι υ) (entry : Digest × Seconds) : Prop :=
  ∃ c y d j pending, tr = c ++ y :: d ∧ NullReceived R v j pending.material c y ∧
    Began R v j pending tr ∧ entry = (key R pending.material, y.before.shared.clock)

omit [DecidableEq ι] in
theorem Backed.append {entry : Digest × Seconds} (h : Backed R v tr entry) (tr' : History ι υ) :
    Backed R v (tr ++ tr') entry := by
  obtain ⟨c, y, d, j, pending, rfl, hn, hb, he⟩ := h
  exact ⟨c, y, d ++ tr', j, pending, by simp, hn, hb.append tr', he⟩

theorem received (h : Run (v.machine R) (Verifier.start clock) tr w) {pending : Pending υ}
    {response : TransportResponse} {now : Readings} (hp : w.phase j = .fetching pending)
    (hn : isCacheableNull R response = true) (fs : List (Effect υ))
    (u : World ι (Shared ι) (Phase υ)) :
    NullReceived R v j pending.material tr ⟨w, .act j (.answered (.response response) now), fs, u⟩ ∧
      Began R v j pending tr := by
  have hj := (stands h).2 j
  rw [hp] at hj
  have hb := hj.began pending rfl
  obtain ⟨x, -, c, m, -, ha⟩ := id hb
  obtain ⟨a, y, b, rfl, -, hd⟩ := hj.asked pending rfl
  rw [ha.name] at hd
  exact ⟨⟨⟨pending, hp, rfl⟩, ⟨y, by simp, hd⟩, response, now, rfl, isCacheableNull_iff.mp hn⟩, hb⟩

/-- In every run, every entry is backed by an answer. -/
theorem backed (h : Run (v.machine R) (Verifier.start clock) tr w) :
    ∀ entry ∈ w.shared.entries, Backed R v tr entry := by
  refine h.invariant (I := fun tr w => ∀ entry ∈ w.shared.entries, Backed R v tr entry) nofun ?_
  intro tr w ev u fs hr ih hu entry hentry
  obtain ⟨i, e, rfl, hm, -⟩ | ⟨now, rfl, -, rfl, rfl⟩ := machine_moves hu
  · obtain hold | ⟨pending, response, now, hp, rfl, hn, rfl⟩ := entries_of_moves hm hentry
    · exact (ih entry hold).append _
    · obtain ⟨hrec, hb⟩ := received hr hp hn fs u
      exact ⟨tr, _, [], i, pending, rfl, hrec, hb.append _, rfl⟩
  · exact (ih entry hentry).append _

theorem cache_sound (R : Runtime) (v : Verifier) (clock : Seconds)
    (h : Run (v.machine R) (Verifier.start clock) tr w)
    (hinj : Set.InjOn (key R) (presentedValues R v tr)) : CacheSound R v tr := by
  have refused : ∀ a x b i material, tr = a ++ x :: b → RefusedFromCache R v i material x →
      ∃ c y d j, a = c ++ y :: d ∧ NullReceived R v j material c y ∧
        x.before.shared.clock - y.before.shared.clock < v.negativeTtl := by
    rintro a x b i material rfl ⟨credential, userModel, pending, hev, hadm, rfl, hholds⟩
    obtain ⟨hr, -, -⟩ := h.at
    obtain ⟨rememberedAt, hmem, hlt⟩ := holds_fst hholds
    obtain ⟨c, y, d, j, pending', rfl, hrec, hb, he⟩ := backed hr _ hmem
    obtain ⟨hkey, rfl⟩ := Prod.mk.inj he
    have hm : pending.material = pending'.material := by
      apply hinj _ _ hkey
      · exact ⟨i, pending, ⟨x, by simp, credential, userModel, hev, hadm⟩, rfl⟩
      · exact ⟨j, pending', hb.append _, rfl⟩
    exact ⟨c, y, d, j, rfl, hm ▸ hrec, hlt⟩
  refine ⟨refused, ?_, ?_⟩
  · rintro a ⟨w', ev, fs, u⟩ b rfl entry hentry
    obtain ⟨hr, hx, -⟩ := h.at
    have hx : v.machine R w' ev = some (u, fs) := hx
    obtain ⟨i, e, rfl, hm, -⟩ | ⟨now, rfl, -, rfl, rfl⟩ := machine_moves hx
    · obtain hold | ⟨pending, response, now, hp, rfl, hn, rfl⟩ := entries_of_moves hm hentry
      · exact .inl hold
      · exact .inr ⟨i, pending.material, (received hr hp hn fs u).1, rfl⟩
    · exact .inl hentry
  · intro a x b i material htr hnone hrefused
    obtain ⟨c, y, d, j, rfl, hrec, -⟩ := refused a x b i material htr hrefused
    obtain ⟨z, hz, hd⟩ := hrec.sent
    exact hnone z (List.mem_append_left _ hz) j hd

section Sample

/-- Call 0 is answered `200 null`; ten seconds later call 1 presents the same cookie. -/
def repeatedEvents : List (Happening Nat (Event Payload) Seconds) :=
  [.start (.verify (.remote sampleSnapshot) sampleUser), .lockAcquired, .lockResumed,
    .probeAnswered (jsonAnswer "null"), .advised (jsonAnswer "null"), .slotAcquired, .slotResumed,
    .answered (jsonAnswer "null") ⟨0, 0⟩].map (.act 0) ++
  [.drift 10, .act 1 (.start (.verify (.remote sampleSnapshot) sampleUser))]

def startsWith (pairs : List Pair)
    (x : Transition (World Nat (Shared Nat) (Phase Payload))
      (Happening Nat (Event Payload) Seconds) (Effect Payload)) : Bool :=
  match x.event with
  | .act _ (.start (.verify (.remote snapshot) _)) => snapshot.pairs == pairs
  | .act _ (.start (.verify _ _)) => false
  | _ => true

def secondRefused
    (x : Transition (World Nat (Shared Nat) (Phase Payload))
      (Happening Nat (Event Payload) Seconds) (Effect Payload)) : Bool :=
  (match x.event with | .act 1 (.start _) => true | _ => false) &&
    (holds sampleRuntime sampleVerifier.negativeTtl x.before.shared.clock sampleMaterial
      x.before.shared.entries).1 &&
    x.effects.any fun | .ended (.raised _) => true | _ => false

theorem presented_sample {tr : History Nat Payload}
    (h : tr.all (startsWith sampleSnapshot.pairs) = true) :
    ∀ m ∈ presentedValues sampleRuntime sampleVerifier tr, m = sampleMaterial := by
  rintro m ⟨i, pending, ⟨x, hx, credential, userModel, hev, hadm⟩, rfl⟩
  obtain ⟨snapshot, rfl, hm, -⟩ := hadm.snapshot
  have hs := List.all_eq_true.mp h x hx
  simp only [startsWith, hev, beq_iff_eq] at hs
  have hres : resolveCookieValue sampleRuntime sampleSnapshot.pairs sampleVerifier.names.base =
      .ok sampleMaterial :=
    (CookieResolution.resolveCookieValue_ok (by decide)).mpr (.whole _ rfl)
  rw [hs, hres] at hm
  exact (Except.ok.inj hm).symm

end Sample

theorem cache_sound_repeated :
    ∃ (tr : History Nat Payload) (w : World Nat (Shared Nat) (Phase Payload)),
      Run (sampleVerifier.machine sampleRuntime) (Verifier.start 0) tr w ∧
        tr.any secondRefused = true ∧ CacheSound sampleRuntime sampleVerifier tr := by
  have h : ((replay (sampleVerifier.machine sampleRuntime) (Verifier.start 0) repeatedEvents).any
      fun r => r.1.any secondRefused && r.1.all (startsWith sampleSnapshot.pairs)) = true := by
    decide +kernel
  obtain ⟨tr, w, hr, hs⟩ := Run.of_replay_any
    (P := fun tr => tr.any secondRefused && tr.all (startsWith sampleSnapshot.pairs)) h
  obtain ⟨hany, hall⟩ := Bool.and_eq_true_iff.mp hs
  refine ⟨tr, w, hr, hany, cache_sound _ _ _ hr ?_⟩
  intro m hm m' hm' _
  rw [presented_sample hall m hm, presented_sample hall m' hm']

end BetterAuthBridge.RemoteCache
