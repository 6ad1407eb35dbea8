import BetterAuthBridge.RemoteSteps

namespace BetterAuthBridge.RemoteInvariants

open Library Library.Runs Library.Tasks Values CookieParsing RemoteResponse RemoteProbe
open RemoteVerifier RemoteSections RemoteSteps

variable {ι υ : Type} [DecidableEq ι] {R : Runtime} {v : Verifier} {i j : ι} {s t : Shared ι}
  {e : Event υ} {p q : Phase υ} {fs : List (Effect υ)}

abbrev History (ι υ : Type) := Trace ι (Shared ι) (Phase υ) (Event υ) Seconds (Effect υ)

variable {tr : History ι υ} {x : Transition (World ι (Shared ι) (Phase υ)) _ (Effect υ)}
  {w : World ι (Shared ι) (Phase υ)} {clock : Seconds}

/-- The bare request of call `i`'s probe was answered `200` with a JSON `null`. -/
def MetContract (R : Runtime) (i : ι) (tr : History ι υ) : Prop :=
  ∃ x ∈ tr, ∃ response, x.event = .act i (.probeAnswered (.response response)) ∧
    response.statusCode = 200 ∧ mediaType response = jsonMediaType ∧
    R.loads (.bytes response.content) = some .none

/-- Some probe was carried through and passed: it met the contract, and the answer to its last rung
was let pass. -/
def Probed (R : Runtime) (v : Verifier) (tr : History ι υ) : Prop :=
  ∃ a x b j answer, tr = a ++ x :: b ∧ MetContract R j a ∧ x.event = .act j (.advised answer) ∧
    advise v.uri v.maxBytes v.refuseUnsignedBearer answer = .ok () ∧ Did j (.probeSettled true) x

def Asked (R : Runtime) (v : Verifier) (i : ι) (pending : Pending υ) (tr : History ι υ) : Prop :=
  ∃ a y b, tr = a ++ y :: b ∧ Probed R v a ∧
    Did i (.getSessionSent v.uri (Verifier.outbound pending.name pending.material)) y

def Began (R : Runtime) (v : Verifier) (i : ι) (pending : Pending υ) (tr : History ι υ) : Prop :=
  ∃ x ∈ tr, ∃ credential userModel, x.event = .act i (.start (.verify credential userModel)) ∧
    Admitted R v credential userModel pending

/-- What the probe state says, in every state of every run. -/
structure Settled (R : Runtime) (v : Verifier) (tr : History ι υ) (s : Shared ι) : Prop where
  exclusive : s.probedOk = true → s.contractFailure = none
  proven : s.probedOk = true → Probed R v tr

/-- What the place where a call stands says about the shared state and the run so far. -/
structure Stands (R : Runtime) (v : Verifier) (i : ι) (tr : History ι υ) (s : Shared ι)
    (p : Phase υ) : Prop where
  untried : probes p = true → s.probedOk = false ∧ s.contractFailure = none
  ready : pastGate p = true → s.probedOk = true
  met : ∀ caller previous, p = .advising caller previous → MetContract R i tr
  began : ∀ pending, pendingOf p = some pending → Began R v i pending tr
  asked : ∀ pending, p = .fetching pending → Asked R v i pending tr

omit [DecidableEq ι] in
theorem MetContract.append (h : MetContract R i tr) (tr' : History ι υ) :
    MetContract R i (tr ++ tr') := by
  obtain ⟨x, hx, hmet⟩ := h
  exact ⟨x, List.mem_append_left _ hx, hmet⟩

omit [DecidableEq ι] in
theorem Probed.append (h : Probed R v tr) (tr' : History ι υ) : Probed R v (tr ++ tr') := by
  obtain ⟨a, x, b, j, answer, rfl, hj⟩ := h
  exact ⟨a, x, b ++ tr', j, answer, by simp, hj⟩

omit [DecidableEq ι] in
theorem Asked.append {pending : Pending υ} (h : Asked R v i pending tr) (tr' : History ι υ) :
    Asked R v i pending (tr ++ tr') := by
  obtain ⟨a, y, b, rfl, hp, hd⟩ := h
  exact ⟨a, y, b ++ tr', by simp, hp, hd⟩

omit [DecidableEq ι] in
theorem Began.append {pending : Pending υ} (h : Began R v i pending tr) (tr' : History ι υ) :
    Began R v i pending (tr ++ tr') := by
  obtain ⟨x, hx, c, m, he, ha⟩ := h
  exact ⟨x, List.mem_append_left _ hx, c, m, he, ha⟩

theorem Settled.act (hs : Settled R v tr s) (hi : Stands R v i tr s p)
    (hm : Moves R v i s e p t q fs) {w u : World ι (Shared ι) (Phase υ)} :
    Settled R v (tr ++ [⟨w, .act i e, fs, u⟩]) t := by
  constructor
  · intro ht
    obtain hp | ⟨caller, previous, answer, rfl, -, -, hc, -⟩ := hm.settled ht
    · have hn : probes p = false := by
        by_contra hn
        have hf := (hi.untried (eq_true_of_ne_false hn)).1
        rw [hp] at hf
        cases hf
      exact (hm.verdict hn).2.trans (hs.exclusive hp)
    · exact hc.trans (hi.untried rfl).2
  · intro ht
    obtain hp | ⟨caller, previous, answer, rfl, rfl, ha, -, hf⟩ := hm.settled ht
    · exact (hs.proven hp).append _
    · exact ⟨tr, _, [], i, answer, rfl, hi.met caller previous rfl, rfl, ha, ⟨_, rfl⟩, hf⟩

theorem Stands.act (hs : Settled R v tr s) (hi : Stands R v i tr s p) (hm : Moves R v i s e p t q fs)
    {w u : World ι (Shared ι) (Phase υ)} : Stands R v i (tr ++ [⟨w, .act i e, fs, u⟩]) t q := by
  constructor
  · intro hq
    obtain hq | ⟨hp, rfl⟩ := hm.probing hq
    · exact hq
    · exact hi.untried hp
  · intro hq
    obtain hq | ⟨hp, ht⟩ := hm.gated hq
    · exact hq
    · exact ht.trans (hi.ready hp)
  · rintro caller previous rfl
    obtain ⟨answer, rfl, ha⟩ := hm.advising
    obtain ⟨response, rfl, hmet⟩ := probed_ok.mp ha
    exact ⟨_, List.mem_append_right _ (List.mem_singleton_self _), response, rfl, hmet⟩
  · intro pending hq
    obtain hp | ⟨c, m, -, rfl, ha⟩ := hm.pending hq
    · exact (hi.began pending hp).append _
    · exact ⟨_, List.mem_append_right _ (List.mem_singleton_self _), c, m, rfl, ha⟩
  · rintro pending rfl
    obtain ⟨rfl, rfl⟩ := hm.fetching
    exact ⟨tr, _, [], rfl, hs.proven (hi.ready rfl), ⟨_, rfl⟩, List.mem_singleton_self _⟩

theorem Stands.other (hj : Stands R v j tr s q) {p' : Phase υ}
    (hone : probes p = true → probes q = false) (hm : Moves R v i s e p t p' fs)
    (x : Transition (World ι (Shared ι) (Phase υ)) _ (Effect υ)) :
    Stands R v j (tr ++ [x]) t q := by
  constructor
  · intro hq
    have hp : probes p = false := by
      by_contra hp
      rw [hone (eq_true_of_ne_false hp)] at hq
      cases hq
    obtain ⟨ho, hc⟩ := hm.verdict hp
    rw [ho, hc]
    exact hj.untried hq
  · exact fun hq => hm.probedOk_mono (hj.ready hq)
  · exact fun caller previous hq => (hj.met caller previous hq).append _
  · exact fun pending hq => (hj.began pending hq).append _
  · exact fun pending hq => (hj.asked pending hq).append _

/-- At most one call is probing. -/
theorem single_flight (h : Run (v.machine R) (Verifier.start clock) tr w)
    (hi : probes (w.phase i) = true) (hj : probes (w.phase j) = true) : i = j := by
  apply lock_exclusive Shared.probeLock holdsLock h rfl (fun _ => rfl) _ _
    (holdsLock_of_probes hi) (holdsLock_of_probes hj)
  · exact fun i e s q s' q' fs he => (act_moves he).locking
  · intro d s s' hd
    obtain ⟨-, rfl⟩ := drift_some hd
    rfl

/-- In every run, the probe state and the places of all calls say the truth. -/
theorem stands (h : Run (v.machine R) (Verifier.start clock) tr w) :
    Settled R v tr w.shared ∧ ∀ i, Stands R v i tr w.shared (w.phase i) := by
  apply rely (I := Settled R v) (A := fun i => Stands R v i) h
  · exact ⟨nofun, nofun⟩
  · exact fun i => ⟨nofun, nofun, nofun, nofun, nofun⟩
  · intro tr w i e s' q fs hr hs ha he
    have hm := act_moves he
    refine ⟨hs.act (ha i) hm, (ha i).act hs hm, fun j hj => (ha j).other (fun hp => ?_) hm _⟩
    by_contra hq
    exact hj (single_flight hr (eq_true_of_ne_false hq) hp)
  · intro tr w d s' _ hs ha hd
    obtain ⟨-, rfl⟩ := drift_some hd
    refine ⟨⟨hs.exclusive, fun hp => (hs.proven hp).append _⟩, fun j => ?_⟩
    obtain ⟨hu, hr, hm, hb, hq⟩ := ha j
    exact ⟨hu, hr, fun c p hp => (hm c p hp).append _, fun p hp => (hb p hp).append _,
      fun p hp => (hq p hp).append _⟩

end BetterAuthBridge.RemoteInvariants
