import BetterAuthBridge.JwksThrottle

namespace BetterAuthBridge.JwksAnswers

open Library Library.Runs Library.Tasks Values Errors RemoteResponse JwksDocument JwksClient
open JwksSteps JwksThrottle

variable {ι κ : Type}

abbrev Step (ι κ : Type) :=
  Transition (World ι (Shared ι κ) Phase) (Happening ι Event Seconds) (Effect κ)

def settledKeys : Effect κ → Option (KeySet κ)
  | .fetchSettled keys => keys
  | _ => none

def listed (tr : History ι κ) : Option (KeySet κ) := latest settledKeys tr

def Unrefreshed (x : Step ι κ) : Prop := ∀ keys, .fetchSettled (some keys) ∉ x.effects

/-- A kid is absent from a fresh key set, and is remembered as absent from this moment on. -/
structure LookedUp (c : Client κ) (kid : Str) (s t : Shared ι κ) : Prop where
  fresh : c.isFresh t = true
  unlisted : ∃ keys, t.keys = some keys ∧ Ordered.get keys kid = none
  stamped : Ordered.get t.missing kid = some s.clock

structure FoundAbsent (c : Client κ) (kid : Str) (y : Step ι κ) : Prop where
  answered : ∃ i, Did i (.ended kid .absent) y
  looked : LookedUp c kid y.before.shared y.after.shared

/-- The kid was found absent at that time, and no key set was fetched since. -/
def AbsentSince (c : Client κ) (tr : History ι κ) (kid : Str) (stamp : Seconds) : Prop :=
  ∃ a y b, tr = a ++ y :: b ∧ FoundAbsent c kid y ∧ y.before.shared.clock = stamp ∧
    ∀ z ∈ b, Unrefreshed z

def Outcome (e : Event) : Ending κ → Prop
  | .key _ | .absent => True
  | .raised exc => exc.isUnavailable = true
  | .cancelled => e = .cancelled

def ForeignFailures (tr : History ι κ) : Prop :=
  ∀ x ∈ tr, ∀ i exc, x.event = .act i (.answered (.raised exc)) → exc.isLibrary = false

/-- The ways a call for a kid can end: with which effects, in which state and how. -/
inductive Ends (c : Client κ) (R : Runtime) (s : Shared ι κ) (kid : Str) :
    Event → List (Effect κ) → Shared ι κ → Ending κ → Prop
  | hit {e fs t jwk} : c.freshHit kid s = some jwk → t.keys = s.keys →
      Ends c R s kid e fs t (.key jwk)
  | remembered {e fs t stamp} : Ordered.get s.missing kid = some stamp →
      s.clock - stamp < c.negativeTtl → fs.filterMap settledKeys = [] →
      Ends c R s kid e fs t .absent
  | replied {e fs u t ending} : u.clock = s.clock → u.keys = s.keys →
      Replies c kid u t ending → Ends c R s kid e fs t ending
  | refreshed {answer keys fs t ending} : c.fetched R answer = .ok keys →
      .fetchSettled (some keys) ∈ fs → Replies c kid (refilled keys s) t ending →
      Ends c R s kid (.answered answer) fs t ending
  | failed {answer exc fs t} : c.fetched R answer = .error exc →
      exc.isUnavailable = false ∨ s.keys = none →
      Ends c R s kid (.answered answer) fs t (.raised exc)
  | cancelled {fs t} : Ends c R s kid .cancelled fs t .cancelled

variable {c : Client κ} {R : Runtime} {i j : ι} {kid : Str}
  {s t : Shared ι κ} {e : Event} {p q : Phase} {fs : List (Effect κ)} {clock : Seconds}
  {tr : History ι κ} {w : World ι (Shared ι κ) Phase}

theorem unrefreshed_iff {x : Step ι κ} : Unrefreshed x ↔ x.effects.filterMap settledKeys = [] := by
  rw [List.filterMap_eq_nil_iff]
  constructor
  · intro h f hf
    cases f with
    | fetchSettled keys =>
      cases keys with
      | none => rfl
      | some keys => exact absurd hf (h keys)
    | _ => rfl
  · intro h keys hf
    cases h _ hf

theorem keys_of_moves (h : Moves c R i s e p t q fs) :
    t.keys = ((fs.filterMap settledKeys).getLast?).or s.keys := by
  cases h with
  | replied hf hr => exact hr.frame.2.1.trans hf.frame.2.1
  | refreshed _ hr | refreshFailed _ hr => exact hr.frame.2.1
  | _ => rfl

theorem freshHit_listed {jwk : Jwk κ} (h : c.freshHit kid s = some jwk) :
    ∃ keys, s.keys = some keys ∧ Ordered.get keys kid = some jwk := by
  unfold Client.freshHit at h
  cases hk : s.keys with
  | none =>
    rw [hk] at h
    cases h
  | some keys =>
    rw [hk] at h
    by_cases hf : c.isFresh s = true
    · exact ⟨keys, rfl, by simpa [hf] using h⟩
    · simp [hf] at h

theorem Replies.listing {jwk : Jwk κ} (h : Replies c kid s t (.key jwk)) :
    ∃ keys, t.keys = some keys ∧ Ordered.get keys kid = some jwk := by
  cases h with
  | found hk hg => exact ⟨_, hk, hg⟩

theorem Ends.key {jwk : Jwk κ} (h : Ends c R s kid e fs t (.key jwk)) :
    ∃ keys, t.keys = some keys ∧ Ordered.get keys kid = some jwk := by
  cases h with
  | hit hh hk =>
    rw [hk]
    exact freshHit_listed hh
  | replied _ _ hr | refreshed _ _ hr => exact Replies.listing hr

theorem Replies.looked (h : Replies c kid s t .absent) : LookedUp c kid s t := by
  cases h with
  | absent hk hg hf => exact ⟨hf, ⟨_, hk, hg⟩, Ordered.get_set_self ..⟩

theorem Replies.missing {ending : Ending κ} (h : Replies c kid s t ending) {d : Str × Seconds}
    (hd : d ∈ t.missing) : d ∈ s.missing ∨ ending = .absent ∧ d = (kid, s.clock) := by
  cases h with
  | absent =>
    obtain rfl | hd := Ordered.mem_of_mem_set hd
    · exact .inr ⟨rfl, rfl⟩
    · exact .inl ((Ordered.evicted_suffix ..).mem hd)
  | _ => exact .inl hd

theorem LookedUp.of_clock {u : Shared ι κ} (h : LookedUp c kid u t) (hu : u.clock = s.clock) :
    LookedUp c kid s t :=
  ⟨h.fresh, h.unlisted, hu ▸ h.stamped⟩

theorem Ends.absent (h : Ends c R s kid e fs t .absent) :
    LookedUp c kid s t ∨ ∃ stamp, Ordered.get s.missing kid = some stamp ∧
      s.clock - stamp < c.negativeTtl ∧ fs.filterMap settledKeys = [] := by
  cases h with
  | remembered hg hl hq => exact .inr ⟨_, hg, hl, hq⟩
  | replied hc _ hr => exact .inl ((Replies.looked hr).of_clock hc)
  | refreshed _ _ hr => exact .inl ((Replies.looked hr).of_clock rfl)

/-- What is remembered was remembered before, or the kid was looked up in this very step. -/
theorem missing_of_moves (h : Moves c R i s e p t q fs) {d : Str × Seconds}
    (hd : d ∈ t.missing) : d ∈ s.missing ∧ fs.filterMap settledKeys = [] ∨
      d.2 = s.clock ∧ .ended d.1 .absent ∈ fs ∧ LookedUp c d.1 s t := by
  cases h with
  | replied hu hr =>
    obtain hd | ⟨rfl, rfl⟩ := Replies.missing hr hd
    · refine .inl ⟨?_, rfl⟩
      cases hu with
      | nothing => exact hd
      | lapsed => exact Ordered.mem_of_mem_erase hd
    · exact .inr ⟨hu.frame.1, List.mem_singleton_self _, (Replies.looked hr).of_clock hu.frame.1⟩
  | refreshed _ hr =>
    obtain hd | ⟨rfl, rfl⟩ := Replies.missing hr hd
    · cases hd
    · exact .inr ⟨rfl, by simp, (Replies.looked hr).of_clock rfl⟩
  | refreshFailed _ hr =>
    obtain hd | ⟨rfl, rfl⟩ := Replies.missing hr hd
    · exact .inl ⟨hd, rfl⟩
    · exact .inr ⟨rfl, by simp, Replies.looked hr⟩
  | _ => exact .inl ⟨hd, rfl⟩

/-- A call ends in one of these ways, for the kid it was started with. -/
theorem ends_of_moves {ending : Ending κ} (h : Moves c R i s e p t q fs)
    (hf : .ended kid ending ∈ fs) :
    Ends c R s kid e fs t ending ∧ (kidOf p = some kid ∨ e = .start kid) := by
  cases h with
  | hit hh =>
    obtain ⟨rfl, rfl⟩ : kid = _ ∧ ending = _ := by simpa using hf
    exact ⟨.hit hh rfl, .inr rfl⟩
  | hitUnderLock hh =>
    obtain ⟨rfl, rfl⟩ : kid = _ ∧ ending = _ := by simpa using hf
    exact ⟨.hit hh rfl, .inl rfl⟩
  | remembered hg hl =>
    obtain ⟨rfl, rfl⟩ : kid = _ ∧ ending = _ := by simpa using hf
    exact ⟨.remembered hg hl rfl, .inl rfl⟩
  | replied hu hr =>
    obtain ⟨rfl, rfl⟩ : kid = _ ∧ ending = _ := by simpa using hf
    exact ⟨.replied hu.frame.1 hu.frame.2.1 hr, .inl rfl⟩
  | refreshed hc hr =>
    obtain ⟨rfl, rfl⟩ : kid = _ ∧ ending = _ := by simpa using hf
    exact ⟨.refreshed hc List.mem_cons_self hr, .inl rfl⟩
  | refreshFailed _ hr =>
    obtain ⟨rfl, rfl⟩ : kid = _ ∧ ending = _ := by simpa using hf
    exact ⟨.replied rfl rfl hr, .inl rfl⟩
  | failed hc hn =>
    obtain ⟨rfl, rfl⟩ : kid = _ ∧ ending = _ := by simpa using hf
    exact ⟨.failed hc hn, .inl rfl⟩
  | waitAbandoned | lockAbandoned | fetchAbandoned =>
    obtain ⟨rfl, rfl⟩ : kid = _ ∧ ending = _ := by simpa using hf
    exact ⟨.cancelled, .inl rfl⟩
  | _ => simp at hf

theorem finished_of_moves (h : Moves c R i s e p t .finished fs) :
    ∃ kid ending, .ended kid ending ∈ fs := by
  generalize hq : Phase.finished = q at h
  cases h with
  | missed | lockAcquired | fetchStarted => cases hq
  | refreshed | refreshFailed | failed | fetchAbandoned =>
    exact ⟨_, _, List.mem_cons_of_mem _ List.mem_cons_self⟩
  | _ => exact ⟨_, _, List.mem_cons_self⟩

theorem Ends.outcome {ending : Ending κ} (h : Ends c R s kid e fs t ending)
    (hans : ∀ exc, e = .answered (.raised exc) → exc.isLibrary = false) : Outcome e ending := by
  have replied : ∀ {s t : Shared ι κ}, Replies c kid s t ending → Outcome e ending := by
    intro s t hr
    cases hr with
    | unconfirmed => rfl
    | _ => trivial
  cases h with
  | hit | remembered => trivial
  | replied _ _ hr | refreshed _ _ hr => exact replied hr
  | failed hc => exact fetched_fails (fun exc he => hans exc (by rw [he])) _ hc
  | cancelled => rfl

theorem Replies.listed {keys : KeySet κ} {jwk : Jwk κ} {ending : Ending κ}
    (h : Replies c kid s t ending) (hk : s.keys = some keys)
    (hg : Ordered.get keys kid = some jwk) : ending = .key jwk := by
  cases h with
  | found hk' hg' =>
    cases hk.symm.trans hk'
    cases hg.symm.trans hg'
    rfl
  | absent hk' hg' =>
    cases hk.symm.trans hk'
    cases hg.symm.trans hg'
  | unconfirmed hn => cases hg.symm.trans (hn keys hk)

/-- While the key set on hand lists a kid and is not replaced, a call for it gets that key. -/
theorem Ends.listed {keys : KeySet κ} {jwk : Jwk κ} {ending : Ending κ}
    (h : Ends c R s kid e fs t ending) (hk : s.keys = some keys)
    (hg : Ordered.get keys kid = some jwk) (hm : Ordered.get s.missing kid = none)
    (hans : ∀ exc, e = .answered (.raised exc) → exc.isLibrary = false)
    (hu : ∀ keys, .fetchSettled (some keys) ∉ fs) : ending = .key jwk ∨ ending = .cancelled := by
  cases h with
  | hit hh =>
    obtain ⟨keys', hk', hg'⟩ := freshHit_listed hh
    cases hk.symm.trans hk'
    cases hg.symm.trans hg'
    exact .inl rfl
  | remembered hr => cases hm.symm.trans hr
  | replied _ hs hr => exact .inl (Replies.listed hr (hs.trans hk) hg)
  | refreshed _ hf => exact absurd hf (hu _)
  | failed hc hn =>
    have hfail := fetched_fails (fun exc he => hans exc (by rw [he])) _ hc
    obtain hn | hn := hn
    · cases hfail.symm.trans hn
    · cases hk.symm.trans hn
  | cancelled => exact .inr rfl

theorem fetchSettled_of_moves {keys : KeySet κ} (h : Moves c R i s e p t q fs)
    (hf : .fetchSettled (some keys) ∈ fs) :
    ∃ answer, e = .answered answer ∧ c.fetched R answer = .ok keys := by
  cases h with
  | refreshed hc =>
    obtain rfl : keys = _ := by simpa using hf
    exact ⟨_, rfl, hc⟩
  | _ => simp at hf

theorem AbsentSince.snoc {stamp : Seconds} {x : Step ι κ} (h : AbsentSince c tr kid stamp)
    (hx : Unrefreshed x) : AbsentSince c (tr ++ [x]) kid stamp := by
  obtain ⟨a, y, b, rfl, hy, hs, hb⟩ := h
  refine ⟨a, y, b ++ [x], by simp, hy, hs, fun z hz => ?_⟩
  obtain hz | hz := List.mem_append.mp hz
  · exact hb z hz
  · rwa [List.mem_singleton.mp hz]

theorem listed_append {b : History ι κ} (hb : ∀ z ∈ b, Unrefreshed z) :
    listed (tr ++ b) = listed tr :=
  latest_append fun z hz => unrefreshed_iff.mp (hb z hz)

structure SoundAnswers (c : Client κ) (R : Runtime) (tr : History ι κ)
    (w : World ι (Shared ι κ) Phase) : Prop where
  onHand : w.shared.keys = listed tr
  fetched : ∀ x ∈ tr, ∀ keys, .fetchSettled (some keys) ∈ x.effects →
    ∃ i response document entries, x.event = .act i (.answered (.response response)) ∧
      c.document R response = .ok document ∧ Payload.get document "keys" = .list entries ∧
      ∀ kid jwk, Ordered.get keys kid = some jwk →
        ∃ entry ∈ entries, Published c.toReader entry kid jwk
  asked : ∀ a x b i e kid ending, tr = a ++ x :: b → x.event = .act i e →
    .ended kid ending ∈ x.effects →
    Outcome e ending ∧ ∃ y ∈ a ++ [x], y.event = .act i (.start kid)
  key : ∀ a x b i kid jwk, tr = a ++ x :: b → Did i (.ended kid (.key jwk)) x →
    ∃ keys, listed (a ++ [x]) = some keys ∧ Ordered.get keys kid = some jwk
  absent : ∀ a x b i kid, tr = a ++ x :: b → Did i (.ended kid .absent) x →
    FoundAbsent c kid x ∨ ∃ stamp, AbsentSince c a kid stamp ∧ Unrefreshed x ∧
      x.before.shared.clock - stamp < c.negativeTtl
  unlisted : ∀ kid stamp keys, (kid, stamp) ∈ w.shared.missing → w.shared.keys = some keys →
    Ordered.get keys kid = none
  ends : ∀ i, w.phase i = .finished → ∃ x ∈ tr, ∃ kid ending, Did i (.ended kid ending) x
  kept : ∀ a b d keys kid jwk, tr = a ++ b ++ d → listed a = some keys →
    Ordered.get keys kid = some jwk → (∀ z ∈ b, Unrefreshed z) →
    ∀ x ∈ b, ∀ i ending, Did i (.ended kid ending) x → ending = .key jwk ∨ ending = .cancelled

section

variable [DecidableEq ι]

theorem keys_onHand (h : Run (c.machine R) (Client.start clock) tr w) :
    w.shared.keys = listed tr := by
  refine h.invariant (I := fun tr w => w.shared.keys = listed tr) rfl ?_
  intro tr w ev u fs _ ih hu
  rw [listed, latest_snoc]
  obtain ⟨i, e, rfl, hm, -⟩ | ⟨now, rfl, -, rfl, rfl⟩ := machine_moves hu
  · rw [keys_of_moves hm, ih]
    rfl
  · simpa [listed] using ih

theorem missing_since (h : Run (c.machine R) (Client.start clock) tr w) :
    ∀ d ∈ w.shared.missing, AbsentSince c tr d.1 d.2 := by
  refine h.invariant (I := fun tr w => ∀ d ∈ w.shared.missing, AbsentSince c tr d.1 d.2) nofun ?_
  intro tr w ev u fs _ ih hu d hd
  obtain ⟨i, e, rfl, hm, -⟩ | ⟨now, rfl, -, rfl, rfl⟩ := machine_moves hu
  · obtain ⟨hd, hq⟩ | ⟨hs, hf, hl⟩ := missing_of_moves hm hd
    · exact (ih d hd).snoc (unrefreshed_iff.mpr hq)
    · exact ⟨tr, _, [], rfl, ⟨⟨i, ⟨e, rfl⟩, hf⟩, hl⟩, hs.symm, by simp⟩
  · exact (ih d hd).snoc (unrefreshed_iff.mpr rfl)

/-- Nothing that was found absent is in a key set that was not replaced since. -/
theorem AbsentSince.unlisted {stamp : Seconds} {keys : KeySet κ}
    (hs : AbsentSince c tr kid stamp) (h : Run (c.machine R) (Client.start clock) tr w)
    (hk : w.shared.keys = some keys) : Ordered.get keys kid = none := by
  obtain ⟨a, y, b, rfl, hy, -, hb⟩ := hs
  obtain ⟨hr, hx, -⟩ := h.at
  have hmid : y.after.shared.keys = listed (a ++ [y]) := keys_onHand (hr.snoc hx)
  obtain ⟨keys', hk', hg⟩ := hy.looked.unlisted
  have hsame : listed (a ++ y :: b) = listed (a ++ [y]) := by
    rw [List.append_cons]
    exact listed_append hb
  rw [← hmid, hk', ← keys_onHand h, hk] at hsame
  cases hsame
  exact hg

theorem unlisted (h : Run (c.machine R) (Client.start clock) tr w) {keys : KeySet κ}
    (hk : w.shared.keys = some keys) {jwk : Jwk κ} (hg : Ordered.get keys kid = some jwk) :
    Ordered.get w.shared.missing kid = none := by
  cases hm : Ordered.get w.shared.missing kid with
  | none => rfl
  | some stamp =>
    have hs := missing_since h _ (Ordered.mem_of_get hm)
    cases hg.symm.trans (hs.unlisted h hk)

theorem finished_ended (h : Run (c.machine R) (Client.start clock) tr w) :
    ∀ i, w.phase i = .finished → ∃ x ∈ tr, ∃ kid ending, Did i (.ended kid ending) x := by
  refine h.invariant (I := fun tr w => ∀ i, w.phase i = .finished →
    ∃ x ∈ tr, ∃ kid ending, Did i (.ended kid ending) x) nofun ?_
  intro tr w ev u fs _ ih hu j hj
  have earlier : w.phase j = .finished →
      ∃ x ∈ tr ++ [⟨w, ev, fs, u⟩], ∃ kid ending, Did j (.ended kid ending) x := by
    intro hj
    obtain ⟨x, hx, hd⟩ := ih j hj
    exact ⟨x, List.mem_append_left _ hx, hd⟩
  obtain ⟨i, e, rfl, hm, hother⟩ | ⟨now, rfl, -, -, rfl⟩ := machine_moves hu
  · by_cases hji : j = i
    · subst hji
      rw [hj] at hm
      obtain ⟨kid, ending, hf⟩ := finished_of_moves hm
      exact ⟨_, List.mem_append_right _ (List.mem_singleton_self _), kid, ending, ⟨e, rfl⟩, hf⟩
    · exact earlier (hother j hji ▸ hj)
  · exact earlier hj

theorem kept_key (h : Run (c.machine R) (Client.start clock) tr w) (hans : ForeignFailures tr)
    {a b d : History ι κ} {keys : KeySet κ} {jwk : Jwk κ} {ending : Ending κ} {x : Step ι κ}
    (htr : tr = a ++ b ++ d) (hk : listed a = some keys)
    (hg : Ordered.get keys kid = some jwk) (hb : ∀ z ∈ b, Unrefreshed z) (hx : x ∈ b)
    (hd : Did i (.ended kid ending) x) : ending = .key jwk ∨ ending = .cancelled := by
  obtain ⟨b₁, b₂, rfl⟩ := List.append_of_mem hx
  have hplace : tr = (a ++ b₁) ++ x :: (b₂ ++ d) := by simp [htr]
  obtain ⟨hr, hs, -⟩ := (hplace ▸ h).at
  have hon : x.before.shared.keys = some keys := by
    rw [keys_onHand hr, listed_append fun z hz => hb z (List.mem_append_left _ hz), hk]
  obtain ⟨⟨e, he⟩, hf⟩ := hd
  have hm := moves_of_event hs he
  refine (ends_of_moves hm hf).1.listed hon hg (unlisted hr hon hg) ?_ (hb x hx)
  rintro exc rfl
  exact hans x (by simp [hplace]) i exc he

/-- The answers of a client are sound in every run. -/
theorem answers_sound (c : Client κ) (R : Runtime) (clock : Seconds)
    (h : Run (c.machine R) (Client.start clock) tr w) (hans : ForeignFailures tr) :
    SoundAnswers c R tr w := by
  constructor
  · exact keys_onHand h
  · intro x hx keys hf
    obtain ⟨a, b, -, -, hs, -⟩ := h.of_mem hx
    obtain ⟨i, e, hev, hm⟩ := moves_of_effect hs hf
    obtain ⟨answer, rfl, hc⟩ := fetchSettled_of_moves hm hf
    obtain ⟨response, rfl, hp⟩ := fetched_ok hc
    obtain ⟨document, entries, hd, he, hl⟩ := parsed_published hp
    exact ⟨i, response, document, entries, hev, hd, he, hl⟩
  · rintro a x b i e kid ending rfl he hf
    obtain ⟨hr, hs, -⟩ := h.at
    have hm := moves_of_event hs he
    obtain ⟨hend, hkid⟩ := ends_of_moves hm hf
    refine ⟨hend.outcome ?_, ?_⟩
    · rintro exc rfl
      exact hans x (by simp) i exc he
    · obtain hp | rfl := hkid
      · obtain ⟨y, hy, hev⟩ := started hr i kid hp
        exact ⟨y, List.mem_append_left _ hy, hev⟩
      · exact ⟨x, List.mem_append_right _ (List.mem_singleton_self x), he⟩
  · rintro a x b i kid jwk rfl ⟨-, hf⟩
    obtain ⟨hr, hs, -⟩ := h.at
    obtain ⟨_, _, -, hm⟩ := moves_of_effect hs hf
    have hon : x.after.shared.keys = listed (a ++ [x]) := keys_onHand (hr.snoc hs)
    rw [← hon]
    exact (ends_of_moves hm hf).1.key
  · rintro a x b i kid rfl hd
    obtain ⟨hr, hs, -⟩ := h.at
    obtain ⟨_, _, -, hm⟩ := moves_of_effect hs hd.2
    obtain hl | ⟨stamp, hg, ht, hq⟩ := (ends_of_moves hm hd.2).1.absent
    · exact .inl ⟨⟨i, hd⟩, hl⟩
    · exact .inr ⟨stamp, missing_since hr _ (Ordered.mem_of_get hg), unrefreshed_iff.mpr hq, ht⟩
  · exact fun kid stamp keys hm hk => (missing_since h _ hm).unlisted h hk
  · exact finished_ended h
  · exact fun a b d keys kid jwk htr hk hg hb x hx i ending hd => kept_key h hans htr hk hg hb hx hd

end

/-- Four calls: one gets its key, one finds none, one is told so from memory, one outlives a failed
refresh. -/
def answeredCalls : List (Happening Nat Event Seconds) :=
  fetchingCall 0 "k1" jwksAnswer ++ .drift 30 :: fetchingCall 1 "k2" jwksAnswer ++
    [.act 2 (.start (ofString "k2")), .act 2 .lockAcquired, .act 2 .lockResumed, .drift 400] ++
    fetchingCall 3 "k1" (.raised (.timeout "TimeoutError"))

def answers (tr : History Nat Unit) : List Bool :=
  tr.flatMap fun x => x.effects.filterMap fun
    | .ended _ (.key _) => some true
    | .ended _ .absent => some false
    | _ => none

def foreign (tr : History Nat Unit) : Bool :=
  tr.all fun x =>
    match x.event with
    | .act _ (.answered (.raised exc)) => !exc.isLibrary
    | _ => true

theorem foreignFailures {tr : History Nat Unit} (h : foreign tr = true) : ForeignFailures tr := by
  intro x hx i exc he
  have hf := List.all_eq_true.mp h x hx
  rw [he] at hf
  simpa using hf

theorem answers_sound_sample : ∃ (tr : History Nat Unit) (w : World Nat (Shared Nat Unit) Phase),
    Run (sampleClient.machine jwksRuntime) (Client.start 0) tr w ∧
      answers tr = [true, false, false, true] ∧ SoundAnswers sampleClient jwksRuntime tr w := by
  have h : ((replay (sampleClient.machine jwksRuntime) (Client.start 0) answeredCalls).any
      fun r => answers r.1 == [true, false, false, true] && foreign r.1) = true := by
    decide +kernel
  obtain ⟨tr, w, hr, hp⟩ := Run.of_replay_any
    (P := fun tr => answers tr == [true, false, false, true] && foreign tr) h
  obtain ⟨ha, hf⟩ := (Bool.and_eq_true ..).mp hp
  exact ⟨tr, w, hr, eq_of_beq ha, answers_sound _ _ _ hr (foreignFailures hf)⟩

end BetterAuthBridge.JwksAnswers
