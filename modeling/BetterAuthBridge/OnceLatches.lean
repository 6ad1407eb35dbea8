import BetterAuthBridge.Library.Linearize

namespace BetterAuthBridge.OnceLatches

open Library Library.Runs Library.Tasks Library.Linearize

variable {ι κ : Type}

structure Once (ι : Type) where
  fired : Bool
  lock : Option ι

def Once.new : Once ι := ⟨false, none⟩

inductive Firing
  | entering
  | entered
  | unfired
  | leaving (answer : Bool)

def Firing.holds : Firing → Bool
  | entering => false
  | _ => true

structure OnceByKey (ι κ : Type) where
  latches : κ → Option Nat
  once : Nat → Once ι
  count : Nat
  lock : Option ι

def OnceByKey.new : OnceByKey ι κ := ⟨fun _ => none, fun _ => .new, 0, none⟩

inductive Phase (κ : Type)
  | idle
  | asked (key : κ)
  | locked (key : κ)
  | absent (key : κ)
  | found (key : κ) (latch : Nat)
  | firing (key : κ) (latch : Nat) (place : Firing)
  | answered (key : κ) (answer : Bool)
  | done

inductive Event (κ : Type)
  | fire (key : κ)
  | next

abbrev Turn (ι κ : Type) := OnceByKey ι κ × Phase κ × List (Seen κ Bool)

/-- `Once.fire`, from one access to what the threads share to the next. -/
def Once.fire (i : ι) (once : Once ι) : Firing → Option (Once ι × (Firing ⊕ Bool))
  | .entering =>
    if once.lock.isNone then some ({ once with lock := some i }, .inl .entered) else none
  | .entered => some (once, .inl (if once.fired then .leaving false else .unfired))
  | .unfired => some ({ once with fired := true }, .inl (.leaving true))
  | .leaving answer => some ({ once with lock := none }, .inr answer)

variable [DecidableEq κ]

namespace OnceByKey

def fired (i : ι) (key : κ) (latch : Nat) (place : Firing) (s : OnceByKey ι κ) :
    Option (Turn ι κ) :=
  ((s.once latch).fire i place).map fun r =>
    ({ s with once := Function.update s.once latch r.1 },
      r.2.elim (fun place => .firing key latch place) (fun answer => .answered key answer), [])

/-- `OnceByKey.fire`, from one access to what the threads share to the next. -/
def act (i : ι) (event : Event κ) (s : OnceByKey ι κ) (phase : Phase κ) : Option (Turn ι κ) :=
  match event, phase with
  | .fire key, .idle => some (s, .asked key, [.called key])
  | .next, .asked key =>
    if s.lock.isNone then some ({ s with lock := some i }, .locked key, []) else none
  | .next, .locked key =>
    match s.latches key with
    | some latch => some (s, .found key latch, [])
    | none => some (s, .absent key, [])
  | .next, .absent key =>
    some ({ s with
      latches := Function.update s.latches key (some s.count)
      once := Function.update s.once s.count .new
      count := s.count + 1 }, .found key s.count, [])
  | .next, .found key latch => some ({ s with lock := none }, .firing key latch .entering, [])
  | .next, .firing key latch place => fired i key latch place s
  | .next, .answered _ answer => some (s, .done, [.returned [answer]])
  | _, _ => none

end OnceByKey

def program : Program ι (OnceByKey ι κ) (Phase κ) (Event κ) Empty (Seen κ Bool) where
  act := OnceByKey.act
  drift := nofun

def start : World ι (OnceByKey ι κ) (Phase κ) := ⟨.new, fun _ => .idle⟩

abbrev Threads (ι κ : Type) := History ι (OnceByKey ι κ) (Phase κ) (Event κ) Empty κ Bool

/-- The same, if every call were one step: the first that names a key is answered true. -/
def fires : Machine (κ → Bool) κ Bool := fun s key =>
  some (Function.update s key true, [!s key])

/-- Everything one section of a thread can do. -/
inductive Moves (i : ι) (s : OnceByKey ι κ) :
    Event κ → Phase κ → OnceByKey ι κ → Phase κ → List (Seen κ Bool) → Prop
  | called {key} : Moves i s (.fire key) .idle s (.asked key) [.called key]
  | mapTaken {key} : s.lock = none →
      Moves i s .next (.asked key) { s with lock := some i } (.locked key) []
  | got {key latch} : s.latches key = some latch →
      Moves i s .next (.locked key) s (.found key latch) []
  | missed {key} : s.latches key = none → Moves i s .next (.locked key) s (.absent key) []
  | made {key} : Moves i s .next (.absent key)
      { s with
        latches := Function.update s.latches key (some s.count)
        once := Function.update s.once s.count .new
        count := s.count + 1 } (.found key s.count) []
  | mapGiven {key latch} : Moves i s .next (.found key latch) { s with lock := none }
      (.firing key latch .entering) []
  | taken {key latch} : (s.once latch).lock = none →
      Moves i s .next (.firing key latch .entering)
        { s with once := Function.update s.once latch { s.once latch with lock := some i } }
        (.firing key latch .entered) []
  | refused {key latch} : (s.once latch).fired = true →
      Moves i s .next (.firing key latch .entered) s (.firing key latch (.leaving false)) []
  | looked {key latch} : (s.once latch).fired = false →
      Moves i s .next (.firing key latch .entered) s (.firing key latch .unfired) []
  | set {key latch} : Moves i s .next (.firing key latch .unfired)
      { s with once := Function.update s.once latch { s.once latch with fired := true } }
      (.firing key latch (.leaving true)) []
  | given {key latch answer} : Moves i s .next (.firing key latch (.leaving answer))
      { s with once := Function.update s.once latch { s.once latch with lock := none } }
      (.answered key answer) []
  | returned {key answer} : Moves i s .next (.answered key answer) s .done [.returned [answer]]

variable {i j : ι} {s t : OnceByKey ι κ} {e : Event κ} {p q : Phase κ} {fs : List (Seen κ Bool)}
  {key : κ}

theorem fired_moves {latch : Nat} {place : Firing}
    (h : OnceByKey.fired i key latch place s = some (t, q, fs)) :
    Moves i s .next (.firing key latch place) t q fs := by
  obtain ⟨⟨once, next⟩, hf, he⟩ := Option.map_eq_some_iff.mp h
  cases place with
  | entering =>
    simp only [Once.fire, Option.ite_none_right_eq_some, Option.isNone_iff_eq_none] at hf
    obtain ⟨hl, hf⟩ := hf
    cases hf
    cases he
    exact .taken hl
  | entered =>
    cases hf
    rw [Function.update_eq_self] at he
    cases hfired : (s.once latch).fired with
    | true =>
      rw [hfired] at he
      cases he
      exact .refused hfired
    | false =>
      rw [hfired] at he
      cases he
      exact .looked hfired
  | unfired =>
    cases hf
    cases he
    exact .set
  | leaving answer =>
    cases hf
    cases he
    exact .given

theorem act_moves (h : OnceByKey.act i e s p = some (t, q, fs)) : Moves i s e p t q fs := by
  unfold OnceByKey.act at h
  split at h
  · cases h
    exact .called
  · split at h
    · rename_i hl
      cases h
      exact .mapTaken (Option.isNone_iff_eq_none.mp hl)
    · cases h
  · split at h
    · rename_i hl
      cases h
      exact .got hl
    · rename_i hl
      cases h
      exact .missed hl
  · cases h
    exact .made
  · cases h
    exact .mapGiven
  · exact fired_moves h
  · cases h
    exact .returned
  · cases h

def holdsMap : Phase κ → Bool
  | .locked _ | .absent _ | .found _ _ => true
  | _ => false

def holdsLatch (n : Nat) : Phase κ → Bool
  | .firing _ latch place => latch = n && place.holds
  | _ => false

def Knows (s : OnceByKey ι κ) : Phase κ → Prop
  | .absent key => s.latches key = none
  | .found key latch => s.latches key = some latch
  | .firing key latch place => s.latches key = some latch ∧
      (place = .unfired → (s.once latch).fired = false)
  | _ => True

structure Place (i : ι) (s : OnceByKey ι κ) (p : Phase κ) : Prop where
  map : s.lock = some i ↔ holdsMap p = true
  latch : ∀ n, (s.once n).lock = some i ↔ holdsLatch n p = true
  knows : Knows s p

/-- Each key has a latch of its own, and the latches not yet made are new. -/
structure Sound (s : OnceByKey ι κ) : Prop where
  below : ∀ key n, s.latches key = some n → n < s.count
  apart : ∀ key key' n, s.latches key = some n → s.latches key' = some n → key = key'
  fresh : ∀ n, s.count ≤ n → s.once n = .new

omit [DecidableEq κ] in
theorem Place.free {p' : Phase κ} (h : Place i s p) (h' : Place j s p') (hj : j ≠ i)
    (hi : holdsMap p = true) : holdsMap p' = false := by
  rw [Bool.eq_false_iff]
  intro hp
  exact hj (Option.some.inj ((h'.map.mpr hp).symm.trans (h.map.mpr hi)))

omit [DecidableEq κ] in
theorem Place.freed {p' : Phase κ} {n : Nat} (h : Place i s p) (h' : Place j s p') (hj : j ≠ i)
    (hi : holdsLatch n p = true) : holdsLatch n p' = false := by
  rw [Bool.eq_false_iff]
  intro hp
  exact hj (Option.some.inj (((h'.latch n).mpr hp).symm.trans ((h.latch n).mpr hi)))

omit [DecidableEq κ] in
theorem Place.of_eq (h : Place i s p) (hm : s.lock = some i ↔ holdsMap q = true)
    (hl : ∀ n, holdsLatch n q = holdsLatch n p) (hk : Knows s q) : Place i s q :=
  ⟨hm, fun n => by rw [h.latch, hl], hk⟩

omit [DecidableEq κ] in
theorem Sound.creation (h : Sound s) : Function.update s.once s.count .new = s.once := by
  rw [← h.fresh s.count (Nat.le_refl _), Function.update_eq_self]

theorem Sound.made (h : Sound s) : Sound { s with
    latches := Function.update s.latches key (some s.count)
    once := Function.update s.once s.count .new
    count := s.count + 1 } where
  below key' n hn := by
    dsimp only at hn ⊢
    by_cases hk : key' = key
    · rw [hk, Function.update_self] at hn
      cases hn
      omega
    · rw [Function.update_of_ne hk] at hn
      have hlt := h.below key' n hn
      omega
  apart key' key'' n hn hn' := by
    dsimp only at hn hn'
    by_cases hk : key' = key <;> by_cases hk' : key'' = key
    · rw [hk, hk']
    · rw [hk, Function.update_self] at hn
      rw [Function.update_of_ne hk'] at hn'
      cases hn
      exact absurd (h.below key'' _ hn') (Nat.lt_irrefl _)
    · rw [hk', Function.update_self] at hn'
      rw [Function.update_of_ne hk] at hn
      cases hn'
      exact absurd (h.below key' _ hn) (Nat.lt_irrefl _)
    · rw [Function.update_of_ne hk] at hn
      rw [Function.update_of_ne hk'] at hn'
      exact h.apart key' key'' n hn hn'
  fresh n hn := by
    dsimp only at hn ⊢
    rw [h.creation]
    exact h.fresh n (by omega)

omit [DecidableEq κ] in
theorem Sound.touched (h : Sound s) {latch : Nat} (hl : s.latches key = some latch)
    (once : Once ι) : Sound { s with once := Function.update s.once latch once } where
  below := h.below
  apart := h.apart
  fresh n hn := by
    have hlt := h.below key latch hl
    dsimp only at hn ⊢
    rw [Function.update_of_ne (by omega), h.fresh n hn]

theorem sound_moves (h : Sound s) (hm : Moves i s e p t q fs) (hp : Place i s p) : Sound t := by
  cases hm with
  | called => exact h
  | mapTaken => exact ⟨h.below, h.apart, h.fresh⟩
  | got => exact h
  | missed => exact h
  | made => exact h.made
  | mapGiven => exact ⟨h.below, h.apart, h.fresh⟩
  | taken => exact h.touched hp.knows.1 _
  | refused => exact h
  | looked => exact h
  | set => exact h.touched hp.knows.1 _
  | given => exact h.touched hp.knows.1 _
  | returned => exact h

omit [DecidableEq κ] in
theorem holdsLatch_firing {n latch : Nat} {place : Firing} :
    holdsLatch n (.firing key latch place) = true ↔ n = latch ∧ place.holds = true := by
  simp only [holdsLatch, Bool.and_eq_true, decide_eq_true_eq]
  exact and_congr_left' eq_comm

omit [DecidableEq κ] in
theorem lock_update {latch n : Nat} {once : Once ι} :
    (Function.update s.once latch once n).lock = some j ↔
      if n = latch then once.lock = some j else (s.once n).lock = some j := by
  by_cases hn : n = latch
  · rw [hn, Function.update_self, if_pos rfl]
  · rw [Function.update_of_ne hn, if_neg hn]

omit [DecidableEq κ] in
theorem fired_update {latch n : Nat} {lock : Option ι} :
    (Function.update s.once latch { s.once latch with lock := lock } n).fired =
      (s.once n).fired := by
  by_cases hn : n = latch
  · rw [hn, Function.update_self]
  · rw [Function.update_of_ne hn]

theorem place_moves (hs : Sound s) (h : Place i s p) (hm : Moves i s e p t q fs) :
    Place i t q := by
  cases hm with
  | called => exact h.of_eq h.map (fun _ => rfl) trivial
  | mapTaken => exact ⟨iff_of_true rfl rfl, h.latch, trivial⟩
  | got hl => exact h.of_eq h.map (fun _ => rfl) hl
  | missed hl => exact h.of_eq h.map (fun _ => rfl) hl
  | made =>
    refine ⟨h.map, fun n => ?_, Function.update_self ..⟩
    dsimp only
    rw [hs.creation]
    exact h.latch n
  | mapGiven =>
    refine ⟨iff_of_false nofun nofun, fun n => ?_, h.knows, nofun⟩
    rw [holdsLatch_firing]
    exact (h.latch n).trans (iff_of_false nofun fun hn => nomatch hn.2)
  | @taken key latch hl =>
    refine ⟨h.map, fun n => ?_, h.knows.1, nofun⟩
    rw [lock_update, holdsLatch_firing]
    split
    · rename_i hn
      exact iff_of_true rfl ⟨hn, rfl⟩
    · rename_i hn
      rw [h.latch n, holdsLatch_firing]
      exact iff_of_false (fun hh => hn hh.1) fun hh => hn hh.1
  | refused => exact h.of_eq h.map (fun _ => rfl) ⟨h.knows.1, nofun⟩
  | looked hf => exact h.of_eq h.map (fun _ => rfl) ⟨h.knows.1, fun _ => hf⟩
  | @set key latch =>
    refine ⟨h.map, fun n => ?_, h.knows.1, nofun⟩
    rw [lock_update]
    split
    · rename_i hn
      subst hn
      exact h.latch n
    · exact h.latch n
  | @given key latch answer =>
    refine ⟨h.map, fun n => ?_, trivial⟩
    rw [lock_update]
    split
    · exact iff_of_false nofun nofun
    · rename_i hn
      rw [h.latch n, holdsLatch_firing]
      exact iff_of_false (fun hh => hn hh.1) nofun
  | returned => exact h.of_eq h.map (fun _ => rfl) trivial

/-- What another thread has read is not taken from it. -/
theorem other_moves {p' : Phase κ} (hs : Sound s) (hi : Place i s p) (h : Place j s p')
    (hj : j ≠ i) (hm : Moves i s e p t q fs) : Place j t p' := by
  have hne : ∀ {a : Option ι}, a = some i → (a = some j ↔ False) := by
    rintro a rfl
    exact iff_of_false (fun hij => hj (Option.some.inj hij).symm) id
  cases hm with
  | called => exact h
  | mapTaken hl =>
    refine ⟨?_, h.latch, ?_⟩
    · rw [hne rfl, ← h.map, hl]
      exact iff_of_false id nofun
    · cases p' <;> exact h.knows
  | got => exact h
  | missed => exact h
  | @made key =>
    have habsent : s.latches key = none := hi.knows
    have hfree := hi.free h hj rfl
    refine ⟨h.map, fun n => ?_, ?_⟩
    · dsimp only
      rw [hs.creation]
      exact h.latch n
    · have hother : ∀ {key' latch}, s.latches key' = some latch →
          Function.update s.latches key (some s.count) key' = some latch := by
        intro key' latch hl
        rw [Function.update_of_ne, hl]
        rintro rfl
        cases habsent.symm.trans hl
      cases p' with
      | absent => cases hfree
      | found => cases hfree
      | firing key' latch place =>
        refine ⟨hother h.knows.1, ?_⟩
        dsimp only
        rw [hs.creation]
        exact h.knows.2
      | _ => trivial
  | mapGiven =>
    refine ⟨?_, h.latch, ?_⟩
    · rw [hi.free h hj rfl]
      exact iff_of_false nofun nofun
    · cases p' <;> exact h.knows
  | @taken key latch hl =>
    refine ⟨h.map, fun n => ?_, ?_⟩
    · rw [lock_update]
      split
      · rename_i hn
        rw [hne rfl, ← h.latch, hn, hl]
        exact iff_of_false id nofun
      · exact h.latch n
    · cases p' with
      | firing => exact ⟨h.knows.1, fun hp => fired_update.trans (h.knows.2 hp)⟩
      | _ => exact h.knows
  | refused => exact h
  | looked => exact h
  | @set key latch =>
    have hfree := hi.freed h hj (holdsLatch_firing.mpr ⟨rfl, rfl⟩)
    refine ⟨h.map, fun n => ?_, ?_⟩
    · rw [lock_update]
      split
      · rename_i hn
        subst hn
        exact h.latch n
      · exact h.latch n
    · cases p' with
      | firing key' latch' place =>
        refine ⟨h.knows.1, ?_⟩
        rintro rfl
        dsimp only
        rw [Function.update_of_ne]
        · exact h.knows.2 rfl
        · rintro rfl
          rw [Bool.eq_false_iff] at hfree
          exact hfree (holdsLatch_firing.mpr ⟨rfl, rfl⟩)
      | _ => exact h.knows
  | @given key latch answer =>
    have hfree := hi.freed h hj (holdsLatch_firing.mpr ⟨rfl, rfl⟩)
    refine ⟨h.map, fun n => ?_, ?_⟩
    · rw [lock_update]
      split
      · rename_i hn
        rw [hn, hfree]
        exact iff_of_false nofun nofun
      · exact h.latch n
    · cases p' with
      | firing => exact ⟨h.knows.1, fun hp => fired_update.trans (h.knows.2 hp)⟩
      | _ => exact h.knows
  | returned => exact h

def firedOf (s : OnceByKey ι κ) (key : κ) : Bool :=
  match s.latches key with
  | some latch => (s.once latch).fired
  | none => false

/-- A `fire` takes effect when it has read the latch fired, or has set it. -/
def stage : Phase κ → Stage κ Bool
  | .idle => .idle
  | .asked key | .locked key | .absent key | .found key _ => .pending key
  | .firing key _ (.leaving answer) => .decided key [answer]
  | .firing key _ _ => .pending key
  | .answered key answer => .decided key [answer]
  | .done => .done

omit [DecidableEq κ] in
theorem firedOf_some {latch : Nat} (h : s.latches key = some latch) :
    firedOf s key = (s.once latch).fired := by
  rw [firedOf, h]

omit [DecidableEq κ] in
theorem firedOf_lock {latch : Nat} {lock : Option ι} : firedOf { s with
    once := Function.update s.once latch { s.once latch with lock := lock } } = firedOf s := by
  ext key
  unfold firedOf
  dsimp only
  cases s.latches key with
  | none => rfl
  | some n => exact fired_update

theorem firedOf_made (hs : Sound s) (ha : s.latches key = none) : firedOf { s with
    latches := Function.update s.latches key (some s.count)
    once := Function.update s.once s.count .new
    count := s.count + 1 } = firedOf s := by
  ext key'
  rw [firedOf, hs.creation]
  by_cases hk : key' = key
  · subst hk
    dsimp only
    rw [Function.update_self, firedOf, ha]
    dsimp only
    rw [hs.fresh s.count (Nat.le_refl _)]
    rfl
  · dsimp only
    rw [Function.update_of_ne hk]
    rfl

theorem firedOf_set {latch : Nat} (hs : Sound s) (hl : s.latches key = some latch) : firedOf { s with
    once := Function.update s.once latch { s.once latch with fired := true } } =
      Function.update (firedOf s) key true := by
  ext key'
  by_cases hk : key' = key
  · subst hk
    rw [Function.update_self, firedOf]
    dsimp only
    rw [hl]
    dsimp only
    rw [Function.update_self]
  · rw [Function.update_of_ne hk]
    unfold firedOf
    dsimp only
    cases hl' : s.latches key' with
    | none => rfl
    | some n =>
      dsimp only
      rw [Function.update_of_ne]
      rintro rfl
      exact hk (hs.apart key' key n hl' hl)

/-- Every section keeps which keys are fired, or fires one as a single step would. -/
theorem moved_of_moves (hs : Sound s) (hi : Place i s p) (hm : Moves i s e p t q fs) :
    Moved fires (firedOf s) (stage p) fs (firedOf t) (stage q) := by
  cases hm with
  | called => exact .called
  | mapTaken => exact .quiet
  | got => exact .quiet
  | missed => exact .quiet
  | made =>
    rw [firedOf_made hs hi.knows]
    exact .quiet
  | mapGiven => exact .quiet
  | taken =>
    rw [firedOf_lock]
    exact .quiet
  | @refused key latch hf =>
    have hfired : firedOf s key = true := (firedOf_some hi.knows.1).trans hf
    refine .decided ?_
    rw [fires, hfired]
    nth_rewrite 1 [← hfired]
    rw [Function.update_eq_self]
    rfl
  | looked => exact .quiet
  | @set key latch =>
    have hfired : firedOf s key = false := (firedOf_some hi.knows.1).trans (hi.knows.2 rfl)
    rw [firedOf_set hs hi.knows.1]
    refine .decided ?_
    rw [fires, hfired]
    rfl
  | given =>
    rw [firedOf_lock]
    exact .quiet
  | returned => exact .returned

variable [DecidableEq ι] {tr : Threads ι κ} {w : World ι (OnceByKey ι κ) (Phase κ)}

theorem reachable (h : Run program.machine start tr w) :
    Sound w.shared ∧ ∀ i, Place i w.shared (w.phase i) := by
  refine rely (I := fun _ s => Sound s) (A := fun i _ s q => Place i s q) h ?_ ?_ ?_ ?_
  · exact ⟨nofun, nofun, fun _ _ => rfl⟩
  · exact fun i => ⟨iff_of_false nofun nofun, fun n => iff_of_false nofun nofun, trivial⟩
  · intro tr w i e s' q fs _ hs hp ha
    have hm := act_moves ha
    exact ⟨sound_moves hs hm (hp i), place_moves hs (hp i) hm,
      fun j hj => other_moves hs (hp i) (hp j) hj hm⟩
  · exact fun _ _ d => d.elim

theorem threads_linearize (h : Run program.machine start tr w) :
    ∃ order, Linearizes fires (fun _ : κ => false) tr order (firedOf w.shared) := by
  apply linearizes_read stage firedOf h rfl fun _ => rfl
  · intro tr w i e s' q fs hr ha
    obtain ⟨hs, hp⟩ := reachable hr
    exact moved_of_moves hs (hp i) (act_moves ha)
  · exact fun d => d.elim

/-- Asked one after another, the first call for a key is answered true and the others false. -/
structure Won (order : Order ι (κ → Bool) κ Bool) (fired : κ → Bool) : Prop where
  known : ∀ key, fired key = true ↔ ∃ e ∈ order, e.2.event = key
  answers : ∀ e ∈ order, e.2.effects = [true] ∨ e.2.effects = [false]
  first : ∀ e ∈ order, ∃ e' ∈ order, e'.2.event = e.2.event ∧ e'.2.effects = [true]
  unique : ∀ e ∈ order, ∀ e' ∈ order, e.2.event = e'.2.event → e.2.effects = [true] →
    e'.2.effects = [true] → e = e'

omit [DecidableEq ι] in
theorem won {order : Order ι (κ → Bool) κ Bool} {fired : κ → Bool}
    (h : Run fires (fun _ => false) (order.map Prod.snd) fired) : Won order fired := by
  induction order using List.reverseRecOn generalizing fired with
  | nil =>
    rw [h.of_nil]
    exact ⟨fun key => iff_of_false nofun nofun, nofun, nofun, nofun⟩
  | append_singleton order e ih =>
    rw [List.map_append] at h
    obtain ⟨hr, he, rfl⟩ := h.last
    obtain ⟨i, before, key, effects, after⟩ := e
    obtain ⟨hafter, heffects⟩ : Function.update before key true = after ∧
      [!before key] = effects := Prod.mk.inj (Option.some.inj he)
    subst hafter heffects
    have hw := ih hr
    constructor
    · intro key'
      dsimp only
      simp only [List.mem_append, List.mem_singleton, or_and_right, exists_or, exists_eq_left,
        ← hw.known]
      by_cases hk : key = key'
      · rw [hk, Function.update_self]
        exact iff_of_true rfl (.inr rfl)
      · rw [Function.update_of_ne (Ne.symm hk), or_iff_left hk]
    · intro e hm
      obtain hm | hm := List.mem_append.mp hm
      · exact hw.answers e hm
      · obtain rfl := List.mem_singleton.mp hm
        cases before key with
        | true => exact .inr rfl
        | false => exact .inl rfl
    · intro e hm
      obtain hm | hm := List.mem_append.mp hm
      · obtain ⟨e', hm', h'⟩ := hw.first e hm
        exact ⟨e', List.mem_append_left _ hm', h'⟩
      · obtain rfl := List.mem_singleton.mp hm
        cases hb : before key with
        | true =>
          obtain ⟨e, he, hk⟩ := (hw.known key).mp hb
          obtain ⟨e', hm', hk', h'⟩ := hw.first e he
          exact ⟨e', List.mem_append_left _ hm', hk'.trans hk, h'⟩
        | false => exact ⟨_, List.mem_append_right _ List.mem_cons_self, rfl, rfl⟩
    · have hnew : ∀ e ∈ order, e.2.event = key → [!before key] ≠ [true] := by
        intro e hm hk ht
        have hb : before key = true := (hw.known key).mpr ⟨e, hm, hk⟩
        rw [hb] at ht
        cases ht
      intro e hm e' hm' hk ht ht'
      obtain hm | hm := List.mem_append.mp hm
      · obtain hm' | hm' := List.mem_append.mp hm'
        · exact hw.unique e hm e' hm' hk ht ht'
        · obtain rfl := List.mem_singleton.mp hm'
          exact (hnew e hm hk ht').elim
      · obtain rfl := List.mem_singleton.mp hm
        obtain hm' | hm' := List.mem_append.mp hm'
        · exact (hnew e' hm' hk.symm ht).elim
        · exact (List.mem_singleton.mp hm').symm

section

variable {σ π ε δ : Type} {past : History ι σ π ε δ κ Bool} {fired : κ → Bool}

/-- What threads that fired keys saw: it is as if each call were one step, and of the calls for one
key one is answered true, and it took effect first. -/
structure Fired (past : History ι σ π ε δ κ Bool) (fired : κ → Bool) : Prop where
  linearizes : ∃ order, Linearizes fires (fun _ => false) past order fired ∧ Won order fired
  winner : ∀ key i j, Called past i key → Called past j key → Returned past i [true] →
    Returned past j [true] → i = j
  won : ∀ key i answer, Called past i key → Returned past i answer →
    (answer = [true] ∨ answer = [false]) ∧ ∃ order,
      Linearizes fires (fun _ => false) past order fired ∧
        ∃ j x, (j, x) ∈ order ∧ x.event = key ∧ x.effects = [true] ∧ Called past j key ∧
          ∀ answer', Returned past j answer' → answer' = [true]

omit [DecidableEq ι] in
theorem fired_of_linearizes
    (h : ∃ order, Linearizes fires (fun _ => false) past order fired) : Fired past fired := by
  obtain ⟨order, hl⟩ := h
  have hw := won hl.legal
  refine ⟨⟨order, hl, hw⟩, ?_, ?_⟩
  · intro key i j hi hj hri hrj
    obtain ⟨x, hx, hex⟩ := hl.complete i _ hri
    obtain ⟨y, hy, hey⟩ := hl.complete j _ hrj
    have hkx : key = x.event := ((hl.sound i x hx).1 key).mp hi
    have hky : key = y.event := ((hl.sound j y hy).1 key).mp hj
    have heq := hw.unique _ hx _ hy (hkx.symm.trans hky) hex hey
    exact congrArg Prod.fst heq
  · intro key i answer hi hr
    obtain ⟨x, hx, rfl⟩ := hl.complete i _ hr
    have hkx : key = x.event := ((hl.sound i x hx).1 key).mp hi
    refine ⟨hw.answers _ hx, order, hl, ?_⟩
    obtain ⟨⟨j, y⟩, hy, hky, hey⟩ := hw.first _ hx
    have hcalled := (hl.sound j y hy).1 key
    have hkey : key = y.event := hkx.trans hky.symm
    refine ⟨j, y, hy, hkey.symm, hey, hcalled.mpr hkey, fun answer' hr' => ?_⟩
    rw [(hl.sound j y hy).2 answer' hr', hey]

end

section Latch

inductive Standing
  | idle
  | firing (place : Firing)
  | answered (answer : Bool)
  | done

def Standing.holds : Standing → Bool
  | .firing place => place.holds
  | _ => false

def Once.act (i : ι) (event : Event Unit) (once : Once ι) (standing : Standing) :
    Option (Once ι × Standing × List (Seen Unit Bool)) :=
  match event, standing with
  | .fire _, .idle => some (once, .firing .entering, [.called ()])
  | .next, .firing place =>
    (once.fire i place).map fun r => (r.1, r.2.elim .firing .answered, [])
  | .next, .answered answer => some (once, .done, [.returned [answer]])
  | _, _ => none

def latch : Program ι (Once ι) Standing (Event Unit) Empty (Seen Unit Bool) where
  act := Once.act
  drift := nofun

def latchStart : World ι (Once ι) Standing := ⟨.new, fun _ => .idle⟩

def Standing.stage : Standing → Stage Unit Bool
  | .idle => .idle
  | .firing (.leaving answer) => .decided () [answer]
  | .firing _ => .pending ()
  | .answered answer => .decided () [answer]
  | .done => .done

/-- Who has the lock is in it, and what the thread has read stays so until it has set it. -/
structure Standing.Sound (i : ι) (once : Once ι) (standing : Standing) : Prop where
  lock : once.lock = some i ↔ standing.holds = true
  unfired : standing = .firing .unfired → once.fired = false

variable {once once' : Once ι} {standing standing' : Standing} {event : Event Unit}
  {seen : List (Seen Unit Bool)}

omit [DecidableEq ι] in
theorem Standing.Sound.apart {other : Standing} (h : standing.Sound i once)
    (ho : other.Sound j once) (hj : j ≠ i) (hi : standing.holds = true) : other.holds = false := by
  rw [Bool.eq_false_iff]
  intro hp
  exact hj (Option.some.inj ((ho.lock.mpr hp).symm.trans (h.lock.mpr hi)))

omit [DecidableEq ι] in
theorem Standing.Sound.relock {other : Standing} {lock : Option ι} (h : other.Sound j once)
    (ho : other.holds = false) (hl : lock ≠ some j) : other.Sound j { once with lock := lock } where
  lock := iff_of_false hl (Bool.eq_false_iff.mp ho)
  unfired := h.unfired

omit [DecidableEq ι] in
theorem Once.act_sound (h : once.act i event standing = some (once', standing', seen))
    (hi : standing.Sound i once) :
    Moved fires (fun _ => once.fired) standing.stage seen (fun _ => once'.fired) standing'.stage ∧
      standing'.Sound i once' := by
  cases event with
  | fire =>
    cases standing with
    | idle =>
      cases h
      exact ⟨.called, hi.lock, nofun⟩
    | _ => cases h
  | next =>
    cases standing with
    | idle | done => cases h
    | answered answer =>
      cases h
      exact ⟨.returned, hi.lock, nofun⟩
    | firing place =>
      obtain ⟨⟨next, moved⟩, hf, he⟩ := Option.map_eq_some_iff.mp h
      cases place with
      | entering =>
        simp only [Once.fire, Option.ite_none_right_eq_some] at hf
        cases hf.2
        cases he
        exact ⟨.quiet, iff_of_true rfl rfl, nofun⟩
      | entered =>
        cases hf
        cases hfired : once.fired with
        | true =>
          rw [hfired] at he
          cases he
          refine ⟨.decided ?_, hi.lock, nofun⟩
          rw [fires, hfired, Function.update_eq_self]
          rfl
        | false =>
          rw [hfired] at he
          cases he
          rw [hfired]
          exact ⟨.quiet, hi.lock, fun _ => hfired⟩
      | unfired =>
        cases hf
        cases he
        refine ⟨.decided ?_, hi.lock, nofun⟩
        rw [fires, hi.unfired rfl]
        rfl
      | leaving answer =>
        cases hf
        cases he
        exact ⟨.quiet, iff_of_false nofun nofun, nofun⟩

omit [DecidableEq ι] in
/-- What another thread has read is not taken from it. -/
theorem Once.act_other {other : Standing}
    (h : once.act i event standing = some (once', standing', seen))
    (hi : standing.Sound i once) (ho : other.Sound j once) (hj : j ≠ i) :
    other.Sound j once' := by
  cases event with
  | fire =>
    cases standing with
    | idle =>
      cases h
      exact ho
    | _ => cases h
  | next =>
    cases standing with
    | idle | done => cases h
    | answered answer =>
      cases h
      exact ho
    | firing place =>
      obtain ⟨⟨next, moved⟩, hf, he⟩ := Option.map_eq_some_iff.mp h
      obtain ⟨rfl, -⟩ := Prod.mk.inj he
      cases place with
      | entering =>
        simp only [Once.fire, Option.ite_none_right_eq_some, Option.isNone_iff_eq_none] at hf
        obtain ⟨hl, hf⟩ := hf
        cases hf
        refine ho.relock ?_ fun hij => hj (Option.some.inj hij).symm
        rw [Bool.eq_false_iff]
        intro hp
        cases hl.symm.trans (ho.lock.mpr hp)
      | entered =>
        cases hf
        exact ho
      | unfired =>
        have hfree := hi.apart ho hj rfl
        cases hf
        refine ⟨ho.lock, ?_⟩
        rintro rfl
        cases hfree
      | leaving answer =>
        have hfree := hi.apart ho hj rfl
        cases hf
        exact ho.relock hfree nofun

variable {past : History ι (Once ι) Standing (Event Unit) Empty Unit Bool}
  {w : World ι (Once ι) Standing}

theorem latch_sound (h : Run latch.machine latchStart past w) (i : ι) :
    (w.phase i).Sound i w.shared := by
  refine (rely (I := fun _ _ => True) (A := fun i _ s q => q.Sound i s) h trivial ?_ ?_ ?_).2 i
  · exact fun i => ⟨iff_of_false nofun nofun, nofun⟩
  · intro tr w i e s' q fs _ _ hp ha
    exact ⟨trivial, (Once.act_sound ha (hp i)).2, fun j hj => Once.act_other ha (hp i) (hp j) hj⟩
  · exact fun _ _ d => d.elim

theorem latch_linearizes (h : Run latch.machine latchStart past w) :
    ∃ order, Linearizes fires (fun _ => false) past order fun _ => w.shared.fired := by
  apply linearizes_read Standing.stage (fun s _ => s.fired) h rfl fun _ => rfl
  · intro tr w i e s' q fs hr ha
    exact (Once.act_sound ha (latch_sound hr i)).1
  · exact fun d => d.elim

end Latch

structure FiresOnce (ι κ : Type) [DecidableEq ι] [DecidableEq κ] : Prop where
  latch : ∀ tr (w : World ι (Once ι) Standing), Run latch.machine latchStart tr w →
    Fired tr fun _ => w.shared.fired
  keyed : ∀ (tr : Threads ι κ) w, Run program.machine start tr w → Fired tr (firedOf w.shared)

theorem fires_once (ι κ : Type) [DecidableEq ι] [DecidableEq κ] : FiresOnce ι κ where
  latch _ _ h := fired_of_linearizes (latch_linearizes h)
  keyed _ _ h := fired_of_linearizes (threads_linearize h)

end BetterAuthBridge.OnceLatches
