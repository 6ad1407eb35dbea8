import BetterAuthBridge.Errors
import BetterAuthBridge.Library.Progress
import BetterAuthBridge.Library.Slots

namespace BetterAuthBridge.WorkerThreads

open Library Library.Runs Library.Tasks Library.Slots Library.Progress Errors

section Sizing

inductive PoolSize
  | int (n : Int)
  | other
  | raised
  | notCallable

structure Pool where
  size : PoolSize
  maxOverflow : Option Int

inductive Concurrency
  | unset
  | int (n : Int)
  | other (typeName : String)

def defaultMaxConcurrency : Int := 8

def validatedConcurrency : Concurrency → Except Exn (Option Int)
  | .unset => pure none
  | .other typeName => throw (configurationError
      ("SyncStoreAdapter(max_concurrency=...) must be a positive int or None (size the bound to the"
        ++ s!" engine's pool); got {typeName}."))
  | .int n =>
    if n < 1 then
      -- an integer of so many digits has no text to be put into the message
      if 10 ^ maxStrDigits ≤ n.natAbs then throw (.other "ValueError")
      else throw (configurationError
        ("SyncStoreAdapter(max_concurrency=...) must be at least 1; a bound of"
          ++ s!" {n} would let no lookup run."))
    else pure (some n)

def poolCeiling (pool : Pool) : Int :=
  match pool.size with
  | .int base =>
    if base < 1 then defaultMaxConcurrency
    else match pool.maxOverflow with
      | some overflow => if 0 < overflow then base + overflow else base
      | none => base
  | .other | .raised | .notCallable => defaultMaxConcurrency

def limiterTokens (pool : Pool) (maxConcurrency : Option Int) : Int :=
  maxConcurrency.getD (poolCeiling pool)

/-- `__init__`, as far as the limiter goes. -/
def init (pool : Pool) (maxConcurrency : Concurrency) : Except Exn Int :=
  (validatedConcurrency maxConcurrency).map (limiterTokens pool)

def queuePool (size overflow : Nat) : Pool := ⟨.int size, some overflow⟩

theorem one_le_poolCeiling (pool : Pool) : 1 ≤ poolCeiling pool := by
  unfold poolCeiling
  split
  · split
    · decide
    · split
      · split <;> omega
      · omega
  all_goals decide

theorem poolCeiling_queuePool {size : Nat} (h : 1 ≤ size) (overflow : Nat) :
    poolCeiling (queuePool size overflow) = size + overflow := by
  have hsize : ¬ (size : Int) < 1 := by omega
  unfold poolCeiling queuePool
  dsimp only
  rw [if_neg hsize]
  split <;> omega

theorem one_le_init {pool : Pool} {maxConcurrency : Concurrency} {tokens : Int}
    (h : init pool maxConcurrency = .ok tokens) : 1 ≤ tokens := by
  cases maxConcurrency with
  | unset =>
    cases h
    exact one_le_poolCeiling pool
  | other typeName => cases h
  | int n =>
    unfold init validatedConcurrency at h
    dsimp only at h
    split at h
    · split at h <;> cases h
    · cases h
      change 1 ≤ n
      omega

end Sizing

section Threads

/-- What an adapter runs its lookups with. A call of `run_sync` with `abandon_on_cancel` goes, on a
limiter and the engine's pool, by its caller's steps and its thread's; it is told by whether it
waits for a token, has one, has a thread that runs, and whether that thread has a connection or runs
for a caller that is gone. `goesOn` has what may take it further short of a cancellation, and `left`
how many steps it takes at most. -/
structure Threads (ι μ χ π ε : Type) where
  capacityLimiter : Nat → μ
  totalTokens : μ → Nat
  borrowers : μ → List ι
  pool : Nat → χ
  capacity : χ → Nat
  checkedOut : χ → List ι
  idle : π
  runSync : ι → ε → μ → χ → π → Option (μ × χ × π)
  cancelled : ε
  waits : π → Bool
  holdsToken : π → Bool
  runs : π → Bool
  connected : π → Bool
  strays : π → Bool
  goesOn : π → Set ε
  left : π → Nat

variable {ι μ χ π ε : Type} [DecidableEq ι]

/-- What it is relied on for: a new limiter and a new pool lend nothing out; a call takes a token
only where one is free and gives back only its own, and its thread does so with a connection; a
thread runs under a token until a cancellation leaves it to itself. A call goes on where it finds
the token it waits for and its thread the connection it has yet to get. -/
structure ThreadsLaws (T : Threads ι μ χ π ε) : Prop where
  limiter : ∀ n, T.totalTokens (T.capacityLimiter n) = n ∧ T.borrowers (T.capacityLimiter n) = []
  pool : ∀ n, T.capacity (T.pool n) = n ∧ T.checkedOut (T.pool n) = []
  idle : T.holdsToken T.idle = false ∧ T.connected T.idle = false ∧ T.strays T.idle = false ∧
    T.goesOn T.idle = ∅
  borrows : ∀ i e l c q l' c' q', T.runSync i e l c q = some (l', c', q') →
    T.totalTokens l' = T.totalTokens l ∧
      Slotted (T.totalTokens l) i (turned (T.holdsToken q) (T.holdsToken q')) (T.borrowers l)
        (T.holdsToken q) (T.borrowers l') (T.holdsToken q')
  connects : ∀ i e l c q l' c' q', T.runSync i e l c q = some (l', c', q') →
    T.capacity c' = T.capacity c ∧
      Slotted (T.capacity c) i (turned (T.connected q) (T.connected q')) (T.checkedOut c)
        (T.connected q) (T.checkedOut c') (T.connected q')
  abandoned : ∀ i e l c q l' c' q', T.runSync i e l c q = some (l', c', q') →
    T.strays q' = true → T.strays q = true ∨ e = T.cancelled
  ends : ∀ i e l c q l' c' q', T.runSync i e l c q = some (l', c', q') → T.left q' < T.left q
  limited : ∀ q, T.runs q = true → T.strays q = false → T.holdsToken q = true
  threaded : ∀ q, T.connected q = true → T.runs q = true
  underWay : ∀ q, T.waits q = true ∨ T.holdsToken q = true ∨ T.runs q = true →
    (T.goesOn q).Nonempty
  served : ∀ q, T.holdsToken q = true ∨ T.runs q = true → T.waits q = false
  resumes : ∀ i e l c q, e ∈ T.goesOn q →
    (T.waits q = true → (T.borrowers l).length < T.totalTokens l) →
    (T.runs q = true → T.connected q = false → (T.checkedOut c).length < T.capacity c) →
    ∃ r, T.runSync i e l c q = some r

structure Shared (μ χ : Type) where
  limiter : Option μ
  pool : χ

variable (T : Threads ι μ χ π ε) (tokens capacity : Nat)

def getLimiter (s : Shared μ χ) : μ := s.limiter.getD (T.capacityLimiter tokens)

/-- One step of a lookup, under the limiter that all of them share. -/
def act (i : ι) (e : ε) (s : Shared μ χ) (q : π) : Option (Shared μ χ × π × List Unit) := do
  let (limiter, pool, q') ← T.runSync i e (getLimiter T tokens s) s.pool q
  return (⟨some limiter, pool⟩, q', [])

def program : Program ι (Shared μ χ) π ε Empty Unit where
  act := act T tokens
  drift := nofun

def start : World ι (Shared μ χ) π := ⟨⟨none, T.pool capacity⟩, fun _ => T.idle⟩

def limited : Holding ι (Shared μ χ) π :=
  ⟨fun s => T.borrowers (getLimiter T tokens s), T.holdsToken⟩

def pooled : Holding ι (Shared μ χ) π := ⟨fun s => T.checkedOut s.pool, T.connected⟩

/-- The limiter has its tokens and the pool its connections, each with the lookups that hold one. -/
structure Lent (w : World ι (Shared μ χ) π) : Prop where
  total : T.totalTokens (getLimiter T tokens w.shared) = tokens
  room : T.capacity w.shared.pool = capacity
  limited : Held (limited T tokens) tokens w
  pooled : Held (pooled T) capacity w

variable {T tokens capacity} {i : ι} {e : ε} {s s' : Shared μ χ} {q q' : π} {fs : List Unit}
  {w : World ι (Shared μ χ) π} {tr : Trace ι (Shared μ χ) π ε Empty Unit}

omit [DecidableEq ι] in
theorem act_steps (h : act T tokens i e s q = some (s', q', fs)) :
    T.runSync i e (getLimiter T tokens s) s.pool q =
      some (getLimiter T tokens s', s'.pool, q') := by
  simp only [act, Option.bind_eq_bind, Option.bind_eq_some_iff, Option.pure_def,
    Option.some.injEq, Prod.mk.injEq] at h
  obtain ⟨⟨limiter, pool, _⟩, hr, rfl, rfl, -⟩ := h
  exact hr

theorem lent_start (laws : ThreadsLaws T) : Lent T tokens capacity (start T capacity) where
  total := (laws.limiter tokens).1
  room := (laws.pool capacity).1
  limited := Held.start (laws.limiter tokens).2 fun _ => laws.idle.1
  pooled := Held.start (laws.pool capacity).2 fun _ => laws.idle.2.1

theorem Lent.act (laws : ThreadsLaws T) (hw : Lent T tokens capacity w)
    (h : act T tokens i e w.shared (w.phase i) = some (s', q', fs)) :
    Lent T tokens capacity ⟨s', Function.update w.phase i q'⟩ := by
  have hr := act_steps h
  obtain ⟨htotal, hborrows⟩ := laws.borrows _ _ _ _ _ _ _ _ hr
  obtain ⟨hcapacity, hconnects⟩ := laws.connects _ _ _ _ _ _ _ _ hr
  rw [hw.total] at htotal hborrows
  rw [hw.room] at hcapacity hconnects
  exact ⟨htotal, hcapacity, hw.limited.act hborrows, hw.pooled.act hconnects⟩

theorem lent (laws : ThreadsLaws T) (h : Run (program T tokens).machine (start T capacity) tr w) :
    Lent T tokens capacity w := by
  refine h.preserved (P := Lent T tokens capacity) ?_ (lent_start laws)
  intro w ev u fs hw hu
  cases ev with
  | act i e =>
    obtain ⟨s', q', ha, rfl⟩ := Program.machine_act.mp hu
    exact hw.act laws ha
  | drift d => exact d.elim

/-- Only a cancellation makes a thread stray. -/
theorem cancelled_of_stray (laws : ThreadsLaws T)
    (h : Run (program T tokens).machine (start T capacity) tr w)
    (hs : T.strays (w.phase i) = true) : ∃ x ∈ tr, x.event = .act i T.cancelled := by
  revert hs
  refine h.invariant (I := fun tr w => T.strays (w.phase i) = true →
    ∃ x ∈ tr, x.event = .act i T.cancelled) ?_ ?_
  · intro hs
    cases laws.idle.2.2.1.symm.trans hs
  · intro tr w ev u fs _ ih hu hs
    obtain ⟨j, e, rfl, ha, hother⟩ | ⟨d, -⟩ := Program.machine_steps hu
    · by_cases hj : i = j
      · subst hj
        obtain hw | rfl := laws.abandoned _ _ _ _ _ _ _ _ (act_steps ha) hs
        · obtain ⟨x, hx, he⟩ := ih hw
          exact ⟨x, List.mem_append_left _ hx, he⟩
        · exact ⟨_, List.mem_append_right _ List.mem_cons_self, rfl⟩
      · rw [hother i hj] at hs
        obtain ⟨x, hx, he⟩ := ih hs
        exact ⟨x, List.mem_append_left _ hx, he⟩
    · exact d.elim

/-- Threads that run are no more than there are tokens, but for those whose callers are gone. -/
theorem Lent.length_runs_le (laws : ThreadsLaws T) (hw : Lent T tokens capacity w) {l : List ι}
    (hn : l.Nodup) (hl : ∀ i ∈ l, T.runs (w.phase i) = true) :
    l.length ≤ tokens + (l.filter fun i => T.strays (w.phase i)).length := by
  have hkept : (l.filter fun i => !T.strays (w.phase i)).length ≤ tokens := by
    apply hw.limited.length_le (hn.filter _)
    intro i hi
    obtain ⟨hm, hs⟩ := List.mem_filter.mp hi
    exact laws.limited _ (hl i hm) (by simpa using hs)
  have hsplit := List.length_eq_length_filter_add (l := l) fun i => T.strays (w.phase i)
  omega

/-- Where every thread runs under a token, one without a connection finds one free. -/
theorem Lent.connections_lt (laws : ThreadsLaws T) (hw : Lent T tokens capacity w)
    (hle : tokens ≤ capacity)
    (hheld : ∀ j, T.runs (w.phase j) = true → T.holdsToken (w.phase j) = true)
    (hr : T.runs (w.phase i) = true) (hc : T.connected (w.phase i) = false) :
    (T.checkedOut w.shared.pool).length < capacity := by
  have hconnected : ∀ j ∈ T.checkedOut w.shared.pool, T.connected (w.phase j) = true :=
    fun j hj => (hw.pooled.holder j).mp hj
  have hfree : i ∉ T.checkedOut w.shared.pool := by
    intro hi
    cases hc.symm.trans (hconnected i hi)
  have hlen : (i :: T.checkedOut w.shared.pool).length ≤ tokens := by
    apply hw.limited.length_le (List.nodup_cons.mpr ⟨hfree, hw.pooled.nodup⟩)
    intro j hj
    obtain rfl | hj := List.mem_cons.mp hj
    · exact hheld j hr
    · exact hheld j (laws.threaded _ (hconnected j hj))
  rw [List.length_cons] at hlen
  omega

section Completion

theorem Lent.ready (laws : ThreadsLaws T) (hw : Lent T tokens capacity w)
    (hi : UnderWay T.goesOn (w.phase i))
    (ht : T.waits (w.phase i) = true →
      (T.borrowers (getLimiter T tokens w.shared)).length < tokens)
    (hc : T.runs (w.phase i) = true → T.connected (w.phase i) = false →
      (T.checkedOut w.shared.pool).length < capacity) :
    Ready (program T tokens) T.goesOn w i := by
  refine ⟨hi, fun e he => ?_⟩
  obtain ⟨⟨limiter, pool, q'⟩, hr⟩ := laws.resumes i e (getLimiter T tokens w.shared)
    w.shared.pool (w.phase i) he (by rwa [hw.total]) (by rwa [hw.room])
  refine ⟨⟨⟨some limiter, pool⟩, q', []⟩, ?_⟩
  change (T.runSync i e _ _ _).bind _ = _
  rw [hr]
  rfl

theorem Lent.ready_runs (laws : ThreadsLaws T) (hw : Lent T tokens capacity w)
    (hcap : 1 ≤ capacity) (hr : T.runs (w.phase i) = true) :
    ∃ j, Ready (program T tokens) T.goesOn w j := by
  have hi := laws.underWay _ (.inr (.inr hr))
  have hwaits := laws.served _ (.inr hr)
  by_cases hfree : (T.checkedOut w.shared.pool).length < capacity
  · refine ⟨i, hw.ready laws hi (fun h => ?_) fun _ _ => hfree⟩
    cases hwaits.symm.trans h
  · obtain ⟨j, hj⟩ := hw.pooled.exists_holds hcap hfree
    have hj : T.connected (w.phase j) = true := hj
    have hruns := laws.threaded _ hj
    have hu := laws.underWay _ (.inr (.inr hruns))
    have hwaits := laws.served _ (.inr hruns)
    refine ⟨j, hw.ready laws hu (fun h => ?_) fun _ h => ?_⟩
    · cases hwaits.symm.trans h
    · cases hj.symm.trans h

theorem Lent.unstuck (laws : ThreadsLaws T) (hw : Lent T tokens capacity w) (htok : 1 ≤ tokens)
    (hcap : 1 ≤ capacity) (hi : UnderWay T.goesOn (w.phase i)) :
    ∃ j, Ready (program T tokens) T.goesOn w j := by
  by_cases hfree : (T.borrowers (getLimiter T tokens w.shared)).length < tokens
  · cases hr : T.runs (w.phase i) with
    | true => exact hw.ready_runs laws hcap hr
    | false =>
      refine ⟨i, hw.ready laws hi (fun _ => hfree) fun h => ?_⟩
      cases hr.symm.trans h
  · obtain ⟨j, hj⟩ := hw.limited.exists_holds htok hfree
    cases hr : T.runs (w.phase j) with
    | true => exact hw.ready_runs laws hcap hr
    | false =>
      have hu := laws.underWay _ (.inr (.inl hj))
      have hwaits := laws.served _ (.inl hj)
      refine ⟨j, hw.ready laws hu (fun h => ?_) fun h => ?_⟩
      · cases hwaits.symm.trans h
      · cases hr.symm.trans h

end Completion

/-- How the lookups of an adapter are bounded: their threads are as many as there are tokens, but
for those that a cancellation left to themselves, and where none is left so, none waits for the
pool. -/
structure Bounded (T : Threads ι μ χ π ε) (pool : Pool) (maxConcurrency : Concurrency)
    (tokens capacity : Nat) : Prop where
  sized : 1 ≤ tokens ∧ (maxConcurrency = .unset → ∀ size overflow, 1 ≤ size →
    pool = queuePool size overflow → tokens = size + overflow)
  threads : ∀ tr w (l : List ι), Run (program T tokens).machine (start T capacity) tr w → l.Nodup →
    (∀ i ∈ l, T.runs (w.phase i) = true) →
    l.length ≤ tokens + (l.filter fun i => T.strays (w.phase i)).length
  strays : ∀ tr w i, Run (program T tokens).machine (start T capacity) tr w →
    T.strays (w.phase i) = true → ∃ x ∈ tr, x.event = .act i T.cancelled
  kept : (∀ q, T.runs q = true → T.holdsToken q = true) → ∀ tr w (l : List ι),
    Run (program T tokens).machine (start T capacity) tr w → l.Nodup →
    (∀ i ∈ l, T.runs (w.phase i) = true) → l.length ≤ tokens
  unstarved : tokens ≤ capacity → ∀ tr w i,
    Run (program T tokens).machine (start T capacity) tr w →
    (∀ q, T.runs q = true → T.holdsToken q = true) ∨ (∀ j, T.strays (w.phase j) = false) →
    T.runs (w.phase i) = true → T.connected (w.phase i) = false →
    (T.checkedOut w.shared.pool).length < capacity
  completes : 1 ≤ capacity →
    Completes (program T tokens) (start T capacity) T.goesOn T.left

theorem lookups_bounded (T : Threads ι μ χ π ε) (laws : ThreadsLaws T) (pool : Pool)
    (maxConcurrency : Concurrency) (tokens capacity : Nat)
    (h : init pool maxConcurrency = .ok (tokens : Int)) :
    Bounded T pool maxConcurrency tokens capacity := by
  have htok : 1 ≤ tokens := by
    have := one_le_init h
    omega
  constructor
  · refine ⟨htok, ?_⟩
    rintro rfl size overflow hsize rfl
    have hceiling : poolCeiling (queuePool size overflow) = (tokens : Int) := Except.ok.inj h
    rw [poolCeiling_queuePool hsize] at hceiling
    omega
  · intro tr w l hr hn hl
    exact (lent laws hr).length_runs_le laws hn hl
  · intro tr w i hr hs
    exact cancelled_of_stray laws hr hs
  · intro hkept tr w l hr hn hl
    exact (lent laws hr).limited.length_le hn fun i hi => hkept _ (hl i hi)
  · intro hle tr w i hr hheld hruns hc
    refine (lent laws hr).connections_lt laws hle (fun j hj => ?_) hruns hc
    obtain hkept | hnone := hheld
    · exact hkept _ hj
    · exact laws.limited _ hj (hnone j)
  · intro hcap
    refine completes ?_ ?_ ?_
    · intro i e s q s' q' fs ha
      exact laws.ends _ _ _ _ _ _ _ _ (act_steps ha)
    · intro i hi
      rw [UnderWay, start, laws.idle.2.2.2] at hi
      exact Set.not_nonempty_empty hi
    · intro tr w i hr hi
      exact (lent laws hr).unstuck laws htok hcap hi

end Threads

section Sample

/-- When the token of a lookup is given back: with its caller, who may be cancelled before the
thread ends, or with its thread. -/
inductive Backend
  | asyncio
  | trio

/-- Where a lookup is: its thread runs with or without a connection, and its caller waits for it, is
to be resumed, or has been cancelled. -/
inductive Phase
  | idle
  | queued
  | awaiting (connected : Bool)
  | reported
  | stray (connected : Bool)
  | ended
  deriving DecidableEq

inductive Event
  | started
  | acquired
  | connected
  | finished
  | resumed
  | cancelled

def next : Event → Phase → Option Phase
  | .started, .idle => some .queued
  | .acquired, .queued => some (.awaiting false)
  | .connected, .awaiting false => some (.awaiting true)
  | .connected, .stray false => some (.stray true)
  | .finished, .awaiting _ => some .reported
  | .finished, .stray _ => some .ended
  | .resumed, .reported => some .ended
  | .cancelled, .queued | .cancelled, .reported => some .ended
  | .cancelled, .awaiting connected => some (.stray connected)
  | _, _ => none

def holdsToken : Backend → Phase → Bool
  | _, .awaiting _ => true
  | .asyncio, .reported => true
  | .trio, .stray _ => true
  | _, _ => false

def Phase.connected : Phase → Bool
  | .awaiting connected | .stray connected => connected
  | _ => false

def Phase.runs : Phase → Bool
  | .awaiting _ | .stray _ => true
  | _ => false

def Phase.strays : Phase → Bool
  | .stray _ => true
  | _ => false

def Phase.goesOn : Phase → Set Event
  | .idle | .ended => ∅
  | .queued => {.acquired}
  | .awaiting false | .stray false => {.connected}
  | .awaiting true | .stray true => {.finished}
  | .reported => {.resumed}

def Phase.left : Phase → Nat
  | .idle => 7
  | .queued => 6
  | .awaiting false => 5
  | .awaiting true => 4
  | .stray false => 3
  | .stray true => 2
  | .reported => 1
  | .ended => 0

variable {ι : Type} [DecidableEq ι]

abbrev Places (ι : Type) := Nat × List ι

def sampleRunSync (backend : Backend) (i : ι) (e : Event) (limiter pool : Places ι) (q : Phase) :
    Option (Places ι × Places ι × Phase) := do
  let q' ← next e q
  let borrowers ← turn limiter.1 i limiter.2 (holdsToken backend q) (holdsToken backend q')
  let checkedOut ← turn pool.1 i pool.2 q.connected q'.connected
  return ((limiter.1, borrowers), (pool.1, checkedOut), q')

def sampleThreads (backend : Backend) : Threads ι (Places ι) (Places ι) Phase Event where
  capacityLimiter n := (n, [])
  totalTokens := Prod.fst
  borrowers := Prod.snd
  pool n := (n, [])
  capacity := Prod.fst
  checkedOut := Prod.snd
  idle := .idle
  runSync := sampleRunSync backend
  cancelled := .cancelled
  waits q := q = .queued
  holdsToken := holdsToken backend
  runs := Phase.runs
  connected := Phase.connected
  strays := Phase.strays
  goesOn := Phase.goesOn
  left := Phase.left

variable {backend : Backend} {i : ι} {e : Event} {limiter pool limiter' pool' : Places ι}
  {q q' : Phase}

theorem sampleRunSync_steps
    (h : sampleRunSync backend i e limiter pool q = some (limiter', pool', q')) :
    next e q = some q' ∧ limiter'.1 = limiter.1 ∧ pool'.1 = pool.1 ∧
      turn limiter.1 i limiter.2 (holdsToken backend q) (holdsToken backend q') =
        some limiter'.2 ∧
      turn pool.1 i pool.2 q.connected q'.connected = some pool'.2 := by
  simp only [sampleRunSync, Option.bind_eq_bind, Option.bind_eq_some_iff, Option.pure_def,
    Option.some.injEq, Prod.mk.injEq] at h
  obtain ⟨_, hq, borrowers, hl, checkedOut, hc, rfl, rfl, rfl⟩ := h
  exact ⟨hq, rfl, rfl, hl, hc⟩

theorem next_strays (h : next e q = some q') (hs : q'.strays = true) :
    q.strays = true ∨ e = .cancelled := by
  unfold next at h
  split at h <;> cases h <;> first | exact .inl rfl | exact .inr rfl | cases hs

theorem left_next (h : next e q = some q') : q'.left < q.left := by
  cases q with
  | awaiting connected | stray connected =>
    cases connected <;> cases e <;> cases h <;> decide
  | _ => cases e <;> cases h <;> decide

theorem next_goesOn (backend : Backend) (he : e ∈ q.goesOn) : ∃ q', next e q = some q' ∧
    (holdsToken backend q = false → holdsToken backend q' = true → q = .queued) ∧
    (q.connected = false → q'.connected = true → q.runs = true) := by
  cases q with
  | idle | ended => cases he
  | queued =>
    cases he
    exact ⟨_, rfl, fun _ _ => rfl, nofun⟩
  | reported =>
    cases he
    refine ⟨_, rfl, fun _ h => ?_, nofun⟩
    cases backend <;> cases h
  | awaiting connected =>
    cases connected <;> cases he <;> exact ⟨_, rfl, nofun, fun _ _ => rfl⟩
  | stray connected =>
    cases connected <;> cases he <;> refine ⟨_, rfl, ?_, fun _ _ => rfl⟩ <;> cases backend <;>
      decide

theorem sampleThreads_laws : ThreadsLaws (sampleThreads backend : Threads ι _ _ _ _) where
  limiter _ := ⟨rfl, rfl⟩
  pool _ := ⟨rfl, rfl⟩
  idle := ⟨by cases backend <;> rfl, rfl, rfl, rfl⟩
  borrows i e l c q l' c' q' h := by
    obtain ⟨-, hl, -, hturn, -⟩ := sampleRunSync_steps h
    exact ⟨hl, slotted_turn hturn⟩
  connects i e l c q l' c' q' h := by
    obtain ⟨-, -, hc, -, hturn⟩ := sampleRunSync_steps h
    exact ⟨hc, slotted_turn hturn⟩
  abandoned i e l c q l' c' q' h := next_strays (sampleRunSync_steps h).1
  ends i e l c q l' c' q' h := left_next (sampleRunSync_steps h).1
  limited q hr hs := by
    cases q with
    | awaiting => rfl
    | stray => cases hs
    | _ => cases hr
  threaded q h := by
    cases q with
    | awaiting | stray => rfl
    | _ => cases h
  underWay q h := by
    cases q with
    | awaiting connected | stray connected => cases connected <;> exact Set.singleton_nonempty _
    | queued | reported => exact Set.singleton_nonempty _
    | idle | ended => cases backend <;> obtain h | h | h := h <;> cases h
  served q h := by
    cases q with
    | queued => cases backend <;> obtain h | h := h <;> cases h
    | _ => rfl
  resumes i e l c q he ht hc := by
    obtain ⟨q', hq, hwaits, hruns⟩ := next_goesOn backend he
    obtain ⟨borrowers, hl⟩ : ∃ borrowers, turn l.1 i l.2 (holdsToken backend q)
        (holdsToken backend q') = some borrowers :=
      exists_turn fun h h' => ht (decide_eq_true (hwaits h h'))
    obtain ⟨checkedOut, hd⟩ : ∃ checkedOut, turn c.1 i c.2 q.connected q'.connected =
        some checkedOut := exists_turn fun h h' => hc (hruns h h') h
    refine ⟨((l.1, borrowers), (c.1, checkedOut), q'), ?_⟩
    change sampleRunSync backend i e l c q = _
    rw [sampleRunSync, hq, Option.bind_eq_bind, Option.bind_some, hl, Option.bind_eq_bind,
      Option.bind_some, hd]
    rfl

/-- A pool of one connection. The first lookup is cancelled while its thread has it, and the token
it gives back lets a second thread in, which finds none. -/
theorem lookups_bounded_flood :
    Bounded (sampleThreads .asyncio : Threads Nat _ _ _ _) (queuePool 1 0) .unset 1 1 ∧
    ∃ tr w, Run (program (sampleThreads .asyncio) 1).machine
        (start (sampleThreads .asyncio) 1 : World Nat _ _) tr w ∧
      (decide (w.phase 1 = .awaiting false) && w.shared.pool.2 == [0]) = true := by
  have hflood : (replay (program (sampleThreads .asyncio) 1).machine
      (start (sampleThreads .asyncio) 1 : World Nat _ _)
      [.act 0 .started, .act 0 .acquired, .act 0 .connected, .act 0 .cancelled, .act 1 .started,
        .act 1 .acquired]).any (fun r => decide (r.2.phase 1 = .awaiting false) &&
          r.2.shared.pool.2 == [0]) = true := by decide
  exact ⟨lookups_bounded (sampleThreads .asyncio) sampleThreads_laws (queuePool 1 0) .unset 1 1 rfl,
    Run.of_replay_end hflood⟩

end Sample

end BetterAuthBridge.WorkerThreads
