import BetterAuthBridge.SqlDiscovery

namespace BetterAuthBridge.SqlLookups

open Library Library.Runs Library.Tasks Library.Procedure Values Errors SessionDocument Models
open SqlStore SqlDiscovery

abbrev Step (ι : Type) := Transition (World ι (Shared ι) Phase) (Happening ι Event Empty) Effect

def pointed (tables : Tables) (columns : Except Exn Columns)
    (select : Select → Text → SelectAnswer) : CoreStore :=
  { tables with columns, select }

def procedure (R : Runtime) (store : CoreStore) : Call → Looking Ending
  | .connect => do
    let _ ← store.ready
    return .connected
  | .fetchSessionByToken token => do
    let found ← store.fetchSessionByToken R token
    return .session found
  | .fetchUserById userId => do
    let found ← store.fetchUserById R userId
    return .user found

def Effect.question : Effect → Option Question
  | .asked question => some question
  | _ => none

def statement (plan : Plan) : Call → List Question
  | .connect => []
  | .fetchSessionByToken token => [.select plan.sessionStatement token]
  | .fetchUserById userId => [.select plan.userStatement userId]

def Discovered (tr : History ι) (plan : Plan) : Prop := ∃ x ∈ tr, .discovered plan ∈ x.effects

def Given (i : ι) (e : Event) (tr : History ι) : Prop := ∃ x ∈ tr, x.event = .act i e

section

variable {R : Runtime} {tables : Tables} {columns : Except Exn Columns}
  {select : Select → Text → SelectAnswer} {call : Call} {plan : Plan} {qs : List Question}

theorem ready_planned : exec (pointed tables columns select).ready ⟨some plan, qs⟩ =
    (.ok plan, ⟨some plan, qs⟩) := rfl

theorem ready_unplanned : exec (pointed tables columns select).ready ⟨none, qs⟩ =
    match columns.bind tables.planOf with
    | .ok plan => (.ok plan, ⟨some plan, qs ++ [.columns]⟩)
    | .error exc => (.error exc, ⟨none, qs ++ [.columns]⟩) := by
  cases columns with
  | error exc => rfl
  | ok present =>
    change exec (do
      let plan ← check (tables.planOf present)
      modify fun s : Lookups => { s with plan := some plan }
      return plan) ⟨none, qs ++ [.columns]⟩ = _
    rw [exec_check_bind]
    change _ = match tables.planOf present with | .ok plan => _ | .error exc => _
    cases tables.planOf present <;> rfl

def rest (R : Runtime) (store : CoreStore) (plan : Plan) : Call → Looking Ending
  | .connect => return .connected
  | .fetchSessionByToken token => do
    let found ← store.selected R plan.sessionStatement token
    let found ← check (sessionFrom R found plan token)
    return .session found
  | .fetchUserById userId => do
    let found ← store.selected R plan.userStatement userId
    let found ← check (userFrom R found plan userId true)
    return .user found

theorem procedure_ready {store : CoreStore} (h : call.miss = none) :
    procedure R store call = store.ready >>= fun plan => rest R store plan call := by
  cases call with
  | connect => rfl
  | fetchSessionByToken token =>
    have hb : blank token ≠ true := by simpa [Call.miss] using h
    simp only [procedure, CoreStore.fetchSessionByToken, rest, if_neg hb, bind_assoc]
  | fetchUserById userId =>
    have hb : blank userId ≠ true := by simpa [Call.miss] using h
    simp only [procedure, CoreStore.fetchUserById, rest, if_neg hb, bind_assoc]

theorem ended_map {α : Type} (make : α → Ending) (r : Except Exn α) :
    ended id (r.map make) = ended make r := by
  cases r <;> rfl

theorem rest_selected {answer : SelectAnswer} {p : Option Plan} (h : call ≠ .connect) :
    ∃ result, exec (rest R (pointed tables columns fun _ _ => answer) plan call) ⟨p, qs⟩ =
      (result, ⟨p, qs ++ statement plan call⟩) ∧ ended id result = call.selected R plan answer := by
  cases call with
  | connect => exact (h rfl).elim
  | fetchSessionByToken token =>
    cases answer with
    | rows rows =>
      refine ⟨(sessionFrom R (rows.take rowLimit) plan token).map .session, ?_, ?_⟩
      · change exec (check (sessionFrom R (rows.take rowLimit) plan token) >>= _) _ = _
        rw [exec_check_bind]
        cases sessionFrom R (rows.take rowLimit) plan token <;> rfl
      · exact ended_map _ _
    | databaseError => exact ⟨_, rfl, rfl⟩
    | raised exc => exact ⟨_, rfl, rfl⟩
  | fetchUserById userId =>
    cases answer with
    | rows rows =>
      refine ⟨(userFrom R (rows.take rowLimit) plan userId true).map .user, ?_, ?_⟩
      · change exec (check (userFrom R (rows.take rowLimit) plan userId true) >>= _) _ = _
        rw [exec_check_bind]
        cases userFrom R (rows.take rowLimit) plan userId true <;> rfl
      · exact ended_map _ _
    | databaseError => exact ⟨_, rfl, rfl⟩
    | raised exc => exact ⟨_, rfl, rfl⟩

theorem procedure_missed {ending : Ending} {l : Lookups} {store : CoreStore}
    (h : call.miss = some ending) : exec (procedure R store call) l = (.ok ending, l) := by
  cases call with
  | connect => cases h
  | fetchSessionByToken token =>
    by_cases hb : blank token = true
    · have he : Ending.session none = ending := by simpa [Call.miss, hb] using h
      subst he
      simp only [procedure, CoreStore.fetchSessionByToken, if_pos hb]
      rfl
    · simp [Call.miss, hb] at h
  | fetchUserById userId =>
    by_cases hb : blank userId = true
    · have he : Ending.user none = ending := by simpa [Call.miss, hb] using h
      subst he
      simp only [procedure, CoreStore.fetchUserById, if_pos hb]
      rfl
    · simp [Call.miss, hb] at h

end

section

variable [DecidableEq ι] {R : Runtime} {tables : Tables} {tr : History ι}
  {w : World ι (Shared ι) Phase} {i j : ι} {e : Event} {x : Step ι}

def asked (i : ι) (x : Step ι) : List Question :=
  match x.event with
  | .act j _ => if j = i then x.effects.filterMap Effect.question else []
  | .drift d => d.elim

def questions (i : ι) (tr : History ι) : List Question := tr.flatMap (asked i)

theorem questions_own (hx : x.event = .act i e) :
    questions i (tr ++ [x]) = questions i tr ++ x.effects.filterMap Effect.question := by
  simp [questions, asked, hx]

theorem questions_other (hx : x.event = .act j e) (hj : j ≠ i) :
    questions i (tr ++ [x]) = questions i tr := by
  simp [questions, asked, hx, hj]

omit [DecidableEq ι] in
theorem given_own {e' : Event} (hx : x.event = .act i e) :
    Given i e' (tr ++ [x]) ↔ Given i e' tr ∨ e' = e := by
  simp [Given, or_and_right, exists_or, hx, eq_comm]

omit [DecidableEq ι] in
theorem given_other {e' : Event} (hx : x.event = .act j e) (hj : j ≠ i) :
    Given i e' (tr ++ [x]) ↔ Given i e' tr := by
  simp [Given, or_and_right, exists_or, hx, hj]

omit [DecidableEq ι] in
theorem Discovered.later {plan : Plan} (h : Discovered tr plan) : Discovered (tr ++ [x]) plan := by
  obtain ⟨y, hy, hp⟩ := h
  exact ⟨y, List.mem_append_left _ hy, hp⟩

def Unanswered (i : ι) (tr : History ι) : Prop :=
  (∀ answer, ¬ Given i (.inspected answer) tr) ∧ ∀ answer, ¬ Given i (.answered answer) tr

/-- Call `i` has its plan as `_ready` would on its own find it. -/
structure Readied (tables : Tables) (i : ι) (tr : History ι) (call : Call) (plan : Plan)
    (columns : Except Exn Columns) (found : Option Plan) (qs : List Question) : Prop where
  inspected : ∀ answer, Given i (.inspected answer) tr → answer = columns
  known : ∀ plan, found = some plan → Discovered tr plan
  ready : ∀ select, exec (pointed tables columns select).ready ⟨found, []⟩ =
    (.ok plan, ⟨some plan, qs⟩)
  asked : questions i tr = qs ++ statement plan call

def Stands (tables : Tables) (i : ι) (tr : History ι) (s : Shared ι) : Phase → Prop
  | .idle => questions i tr = [] ∧ Unanswered i tr
  | .waiting call | .granted call => call.miss = none ∧ questions i tr = [] ∧ Unanswered i tr
  | .inspecting call =>
    call.miss = none ∧ questions i tr = [.columns] ∧ Unanswered i tr ∧ s.plan = none
  | .selecting call plan => call.miss = none ∧ call ≠ .connect ∧ s.plan = some plan ∧
    (∀ answer, ¬ Given i (.answered answer) tr) ∧
    ∃ columns found qs, Readied tables i tr call plan columns found qs
  | .finished => True

/-- A call ended as its procedure does alone: on the answers it was given, from no plan or one
that had been discovered, with the questions it asked, and with the plan it left behind. -/
def Alone (R : Runtime) (tables : Tables) (i : ι) (tr : History ι) (plan : Option Plan)
    (call : Call) (ending : Ending) : Prop :=
  ∃ columns select found result,
    (∀ answer, Given i (.inspected answer) tr → answer = columns) ∧
    (∀ answer, Given i (.answered answer) tr → select = fun _ _ => answer) ∧
    (∀ plan, found = some plan → Discovered tr plan) ∧
    exec (procedure R (pointed tables columns select) call) ⟨found, []⟩ =
      (result, ⟨plan, questions i tr⟩) ∧ ended id result = ending

omit [DecidableEq ι] in
theorem planned_question (call : Call) (plan : Plan) :
    (call.planned plan).2.filterMap Effect.question = statement plan call := by
  cases call <;> rfl

omit [DecidableEq ι] in
theorem planned_effects {call : Call} {plan : Plan} {f : Effect} (hf : f ∈ (call.planned plan).2) :
    (∃ question ∈ statement plan call, f = .asked question) ∨
      f = .ended call .connected ∧ call = .connect := by
  cases call with
  | connect => exact .inr ⟨List.mem_singleton.mp hf, rfl⟩
  | fetchSessionByToken token => exact .inl ⟨_, List.mem_singleton_self _, List.mem_singleton.mp hf⟩
  | fetchUserById userId => exact .inl ⟨_, List.mem_singleton_self _, List.mem_singleton.mp hf⟩

omit [DecidableEq ι] in
theorem statement_ne_columns {call : Call} {plan : Plan} : .columns ∉ statement plan call := by
  cases call <;> simp [statement]

section

variable {s t : Shared ι} {p q : Phase} {fs : List Effect} {plan : Plan} {call : Call}

omit [DecidableEq ι] in
theorem discovered_of_moves (hm : Moves R tables i s e p t q fs) (hf : .discovered plan ∈ fs) :
    (∃ call, p = .inspecting call) ∧
      (∃ present, e = .inspected (.ok present) ∧ tables.planOf present = .ok plan) ∧
      t = ⟨some plan, none⟩ := by
  have hplanned : ∀ {call : Call} {plan' : Plan}, .discovered plan ∉ (call.planned plan').2 := by
    intro call plan' h
    obtain ⟨question, -, he⟩ | ⟨he, -⟩ := planned_effects h
    · cases he
    · cases he
  cases hm with
  | planned => exact (hplanned hf).elim
  | plannedUnderLock => exact (hplanned hf).elim
  | @discovered call present plan' hp =>
    obtain hf | hf := List.mem_cons.mp hf
    · cases hf
      exact ⟨⟨call, rfl⟩, ⟨present, rfl, hp⟩, rfl⟩
    · exact (hplanned hf).elim
  | queued => cases hf
  | lockAcquired => cases hf
  | _ => cases List.mem_singleton.mp hf

omit [DecidableEq ι] in
theorem plan_of_moves (hm : Moves R tables i s e p t q fs) :
    t.plan = s.plan ∨ ∃ plan, .discovered plan ∈ fs ∧ t.plan = some plan := by
  cases hm with
  | @discovered _ _ plan => exact .inr ⟨plan, List.mem_cons_self, rfl⟩
  | _ => exact .inl rfl

theorem unplanned (h : Run (machine R tables) start tr w) (hi : w.phase i = .inspecting call) :
    w.shared.plan = none := by
  refine (rely (I := fun _ _ => True)
    (A := fun _ _ s q => ∀ call, q = .inspecting call → s.plan = none) h trivial
    (fun _ _ h => by cases h) ?_ nofun).2 i call hi
  intro tr w i e s' q fs hr _ hA ha
  have hm := act_moves ha
  refine ⟨trivial, ?_, fun j hj call hc => ?_⟩
  · intro call hq
    generalize w.phase i = p at hm
    cases hm with
    | inspecting hp => exact hp
    | @planned call' plan | @plannedUnderLock call' plan | @discovered call' _ plan =>
      cases call' <;> cases hq
    | _ => cases hq
  · obtain hp | ⟨plan, hf, -⟩ := plan_of_moves hm
    · exact hp.trans (hA j call hc)
    · obtain ⟨⟨call', hi⟩, -⟩ := discovered_of_moves hm hf
      exact (hj (lock_exclusive hr (by rw [hc]; rfl) (by rw [hi]; rfl))).elim

theorem plan_kept (h : Run (machine R tables) start tr w)
    (hm : Moves R tables i w.shared e (w.phase i) t q fs) (hp : w.shared.plan = some plan) :
    t.plan = some plan ∧ ∀ plan', .discovered plan' ∉ fs := by
  have hn : ∀ plan', .discovered plan' ∉ fs := by
    intro plan' hf
    obtain ⟨⟨call, hc⟩, -⟩ := discovered_of_moves hm hf
    rw [unplanned h hc] at hp
    cases hp
  obtain he | ⟨plan', hf, -⟩ := plan_of_moves hm
  · exact ⟨he.trans hp, hn⟩
  · exact (hn plan' hf).elim

/-- The plan of the store is the one that was discovered. -/
theorem known (h : Run (machine R tables) start tr w) (plan : Plan) :
    w.shared.plan = some plan ↔ Discovered tr plan := by
  refine h.invariant (I := fun tr w => w.shared.plan = some plan ↔ Discovered tr plan) ?_ ?_
  · exact ⟨nofun, by rintro ⟨x, hx, -⟩; cases hx⟩
  · intro tr w ev u fs hr ih hu
    obtain ⟨i, e, rfl, hm, -⟩ := machine_moves hu
    constructor
    · intro hp
      obtain he | ⟨plan', hf, hp'⟩ := plan_of_moves hm
      · exact (ih.mp (he.symm.trans hp)).later
      · cases hp'.symm.trans hp
        exact ⟨_, List.mem_append_right _ (List.mem_singleton_self _), hf⟩
    · rintro ⟨x, hx, hf⟩
      obtain hx | hx := List.mem_append.mp hx
      · exact (plan_kept hr hm (ih.mpr ⟨x, hx, hf⟩)).1
      · obtain rfl := List.mem_singleton.mp hx
        rw [(discovered_of_moves hm hf).2.2]

theorem Readied.other {columns : Except Exn Columns} {found : Option Plan} {qs : List Question}
    (h : Readied tables j tr call plan columns found qs) (hx : x.event = .act i e) (hj : i ≠ j) :
    Readied tables j (tr ++ [x]) call plan columns found qs where
  inspected answer ha := h.inspected answer ((given_other hx hj).mp ha)
  known plan hp := (h.known plan hp).later
  ready := h.ready
  asked := (questions_other hx hj).trans h.asked

theorem Stands.other (h : Stands tables j tr s p) (hx : x.event = .act i e) (hj : i ≠ j)
    (hkept : ∀ plan, s.plan = some plan → t.plan = some plan)
    (hnone : ∀ call, p = .inspecting call → t.plan = none) :
    Stands tables j (tr ++ [x]) t p := by
  have hgiven : ∀ e', Given j e' (tr ++ [x]) ↔ Given j e' tr := fun e' => given_other hx hj
  have hasked : questions j (tr ++ [x]) = questions j tr := questions_other hx hj
  cases p with
  | idle => simpa only [Stands, Unanswered, hgiven, hasked] using h
  | waiting call => simpa only [Stands, Unanswered, hgiven, hasked] using h
  | granted call => simpa only [Stands, Unanswered, hgiven, hasked] using h
  | inspecting call =>
    obtain ⟨hm, hq, ha, -⟩ := h
    exact ⟨hm, hasked.trans hq, by simpa only [Unanswered, hgiven] using ha, hnone call rfl⟩
  | selecting call plan =>
    obtain ⟨hm, hc, hp, ha, columns, found, qs, hr⟩ := h
    exact ⟨hm, hc, hkept plan hp, by simpa only [hgiven] using ha, columns, found, qs,
      hr.other hx hj⟩
  | finished => trivial

theorem stands_planned {columns : Except Exn Columns} {found : Option Plan} {qs : List Question}
    (hm : call.miss = none) (hp : s.plan = some plan)
    (ha : ∀ answer, ¬ Given i (.answered answer) tr)
    (hr : Readied tables i tr call plan columns found qs) :
    Stands tables i tr s (call.planned plan).1 := by
  cases call with
  | connect => trivial
  | fetchSessionByToken token => exact ⟨hm, nofun, hp, ha, columns, found, qs, hr⟩
  | fetchUserById userId => exact ⟨hm, nofun, hp, ha, columns, found, qs, hr⟩

omit [DecidableEq ι] in
theorem unanswered_own (h : Unanswered i tr) (hx : x.event = .act i e)
    (hi : ∀ answer, e ≠ .inspected answer) (ha : ∀ answer, e ≠ .answered answer) :
    Unanswered i (tr ++ [x]) := by
  constructor
  · intro answer hg
    obtain hg | rfl := (given_own hx).mp hg
    · exact h.1 answer hg
    · exact hi answer rfl
  · intro answer hg
    obtain hg | rfl := (given_own hx).mp hg
    · exact h.2 answer hg
    · exact ha answer rfl

theorem Readied.planned (hu : Unanswered i (tr ++ [x])) (hk : Discovered tr plan)
    (hx : x.event = .act i e) (hq : questions i tr = [])
    (hf : x.effects = (call.planned plan).2) :
    Readied tables i (tr ++ [x]) call plan (.ok []) (some plan) [] where
  inspected answer hg := (hu.1 answer hg).elim
  known plan' hp := by
    cases hp
    exact hk.later
  ready _ := ready_planned
  asked := by rw [questions_own hx, hq, hf, planned_question]

theorem Readied.discovered {present : Columns} (hu : Unanswered i tr)
    (hp : tables.planOf present = .ok plan) (hx : x.event = .act i (.inspected (.ok present)))
    (hq : questions i tr = [.columns]) (hf : x.effects = .discovered plan :: (call.planned plan).2) :
    Readied tables i (tr ++ [x]) call plan (.ok present) none [.columns] where
  inspected answer hg := by
    obtain hg | he := (given_own hx).mp hg
    · exact (hu.1 answer hg).elim
    · cases he
      rfl
  known := nofun
  ready select := by
    rw [ready_unplanned]
    change (match tables.planOf present with | .ok plan => _ | .error exc => _) = _
    rw [hp]
    rfl
  asked := by
    rw [questions_own hx, hq, hf, List.filterMap_cons_none rfl, planned_question]

theorem Stands.own (h : Stands tables i tr s p) (hm : Moves R tables i s e p t q fs)
    (hx : x.event = .act i e) (hf : x.effects = fs)
    (hk : ∀ plan, s.plan = some plan → Discovered tr plan) : Stands tables i (tr ++ [x]) t q := by
  have hasked : questions i (tr ++ [x]) = _ := questions_own hx
  cases hm with
  | missed => trivial
  | planned hmiss hp =>
    have hu : Unanswered i (tr ++ [x]) := unanswered_own h.2 hx nofun nofun
    exact stands_planned hmiss hp hu.2 (.planned hu (hk _ hp) hx h.1 hf)
  | queued hmiss hp =>
    refine ⟨hmiss, ?_, unanswered_own h.2 hx nofun nofun⟩
    rw [hasked, h.1, hf]
    rfl
  | lockAcquired =>
    obtain ⟨hmiss, hq, hu⟩ := h
    refine ⟨hmiss, ?_, unanswered_own hu hx nofun nofun⟩
    rw [hasked, hq, hf]
    rfl
  | plannedUnderLock hp =>
    obtain ⟨hmiss, hq, hu⟩ := h
    have hu' : Unanswered i (tr ++ [x]) := unanswered_own hu hx nofun nofun
    exact stands_planned hmiss hp hu'.2 (.planned hu' (hk _ hp) hx hq hf)
  | inspecting hp =>
    obtain ⟨hmiss, hq, hu⟩ := h
    refine ⟨hmiss, ?_, unanswered_own hu hx nofun nofun, hp⟩
    rw [hasked, hq, hf]
    rfl
  | discovered hp =>
    obtain ⟨hmiss, hq, hu, -⟩ := h
    refine stands_planned hmiss rfl (fun answer hg => ?_) (.discovered hu hp hx hq hf)
    obtain hg | he := (given_own hx).mp hg
    · exact hu.2 answer hg
    · cases he
  | undiscovered => trivial
  | answered => trivial
  | waitAbandoned => trivial
  | lockAbandoned => trivial
  | inspectionAbandoned => trivial
  | selectAbandoned => trivial

/-- In every run each call did what its place says. -/
theorem stands (h : Run (machine R tables) start tr w) (i : ι) :
    Stands tables i tr w.shared (w.phase i) := by
  have hidle : ∀ i, Stands tables i ([] : History ι) ⟨none, none⟩ .idle :=
    fun i => ⟨rfl, by simp [Unanswered, Given]⟩
  refine (rely (I := fun _ _ => True) (A := fun i tr s q => Stands tables i tr s q) h trivial
    hidle ?_ nofun).2 i
  intro tr w i e s' q fs hr _ hA ha
  have hm := act_moves ha
  refine ⟨trivial, (hA i).own hm rfl rfl fun plan => (known hr plan).mp, fun j hj => ?_⟩
  refine (hA j).other rfl hj.symm (fun plan hp => (plan_kept hr hm hp).1) fun call hc => ?_
  have hn := unplanned hr hc
  obtain he | ⟨plan, hf, -⟩ := plan_of_moves hm
  · exact he.trans hn
  · obtain ⟨⟨call', hi⟩, -⟩ := discovered_of_moves hm hf
    exact (hj (lock_exclusive hr (by rw [hc]; rfl) (by rw [hi]; rfl))).elim

omit [DecidableEq ι] in
theorem procedure_of_ready {store : CoreStore} {l l' : Lookups} (hm : call.miss = none)
    (hr : exec store.ready l = (.ok plan, l')) :
    exec (procedure R store call) l = exec (rest R store plan call) l' := by
  rw [procedure_ready hm, exec_bind, hr]

omit [DecidableEq ι] in
theorem procedure_of_raised {store : CoreStore} {l l' : Lookups} {exc : Exn}
    (hm : call.miss = none) (hr : exec store.ready l = (.error exc, l')) :
    exec (procedure R store call) l = (.error exc, l') := by
  rw [procedure_ready hm, exec_bind, hr]

theorem Readied.connected {columns : Except Exn Columns} {found : Option Plan}
    {qs : List Question} (h : Readied tables i tr .connect plan columns found qs)
    (ha : ∀ answer, ¬ Given i (.answered answer) tr) :
    Alone R tables i tr (some plan) .connect .connected := by
  refine ⟨columns, fun _ _ => .rows [], found, .ok .connected, h.inspected,
    fun answer hg => (ha answer hg).elim, h.known, ?_, rfl⟩
  have hq : questions i tr = qs := by simpa [statement] using h.asked
  rw [procedure_of_ready rfl (h.ready _), hq]
  rfl

/-- A call that ends without being cancelled ends as its procedure does alone. -/
theorem alone_of_moves {ending : Ending} (h : Stands tables i tr s p)
    (hm : Moves R tables i s e p t q fs) (hx : x.event = .act i e) (hf : x.effects = fs)
    (hk : ∀ plan, s.plan = some plan → Discovered tr plan) (he : .ended call ending ∈ fs)
    (hc : ending ≠ .cancelled) : Alone R tables i (tr ++ [x]) t.plan call ending := by
  have hasked : questions i (tr ++ [x]) = _ := questions_own hx
  have hplanned : ∀ {call' : Call} {plan : Plan}, .ended call ending ∈ (call'.planned plan).2 →
      call' = .connect ∧ call = .connect ∧ ending = .connected := by
    intro call' plan hf
    obtain ⟨question, -, hf⟩ | ⟨hf, rfl⟩ := planned_effects hf
    · cases hf
    · cases hf
      exact ⟨rfl, rfl, rfl⟩
  cases hm with
  | missed hmiss =>
    cases List.mem_singleton.mp he
    have hu : Unanswered i (tr ++ [x]) := unanswered_own h.2 hx nofun nofun
    refine ⟨.ok [], fun _ _ => .rows [], s.plan, .ok ending, fun answer hg => (hu.1 answer hg).elim,
      fun answer hg => (hu.2 answer hg).elim, fun plan hp => (hk plan hp).later, ?_, rfl⟩
    rw [procedure_missed hmiss, hasked, h.1, hf]
    rfl
  | queued => cases he
  | lockAcquired => cases he
  | inspecting => cases List.mem_singleton.mp he
  | planned hmiss hp =>
    obtain ⟨rfl, rfl, rfl⟩ := hplanned he
    have hu : Unanswered i (tr ++ [x]) := unanswered_own h.2 hx nofun nofun
    rw [hp]
    exact (Readied.planned hu (hk _ hp) hx h.1 hf).connected hu.2
  | plannedUnderLock hp =>
    obtain ⟨rfl, rfl, rfl⟩ := hplanned he
    obtain ⟨-, hq, hu⟩ := h
    have hu' : Unanswered i (tr ++ [x]) := unanswered_own hu hx nofun nofun
    change Alone R tables i (tr ++ [x]) s.plan .connect .connected
    rw [hp]
    exact (Readied.planned hu' (hk _ hp) hx hq hf).connected hu'.2
  | discovered hp =>
    obtain he | he := List.mem_cons.mp he
    · cases he
    · obtain ⟨rfl, rfl, rfl⟩ := hplanned he
      obtain ⟨-, hq, hu, -⟩ := h
      refine (Readied.discovered hu hp hx hq hf).connected fun answer hg => ?_
      obtain hg | he := (given_own hx).mp hg
      · exact hu.2 answer hg
      · cases he
  | @undiscovered _ answer exc hp =>
    cases List.mem_singleton.mp he
    obtain ⟨hmiss, hq, hu, hn⟩ := h
    refine ⟨answer, fun _ _ => .rows [], none, .error exc, fun answer' hg => ?_,
      fun answer' hg => ?_, nofun, ?_, rfl⟩
    · obtain hg | he := (given_own hx).mp hg
      · exact (hu.1 answer' hg).elim
      · cases he
        rfl
    · obtain hg | he := (given_own hx).mp hg
      · exact (hu.2 answer' hg).elim
      · cases he
    · have hr : exec (pointed tables answer fun _ _ => .rows []).ready ⟨none, []⟩ =
          (.error exc, ⟨none, [.columns]⟩) := by
        rw [ready_unplanned, hp]
        rfl
      rw [procedure_of_raised hmiss hr, hasked, hq, hf]
      exact congrArg (fun plan => (Except.error exc, Lookups.mk plan [.columns])) hn.symm
  | @answered _ plan answer =>
    cases List.mem_singleton.mp he
    obtain ⟨hmiss, hconnect, hp, ha, columns, found, qs, hr⟩ := h
    obtain ⟨result, hrest, hend⟩ : ∃ result,
        exec (rest R (pointed tables columns fun _ _ => answer) plan call) ⟨some plan, qs⟩ =
          (result, ⟨some plan, qs ++ statement plan call⟩) ∧
        ended id result = call.selected R plan answer := rest_selected hconnect
    refine ⟨columns, fun _ _ => answer, found, result, fun answer' hg => ?_, fun answer' hg => ?_,
      fun plan hp => (hr.known plan hp).later, ?_, hend⟩
    · obtain hg | he := (given_own hx).mp hg
      · exact hr.inspected answer' hg
      · cases he
    · obtain hg | he := (given_own hx).mp hg
      · exact (ha answer' hg).elim
      · cases he
        rfl
    · rw [procedure_of_ready hmiss (hr.ready _), hrest, hasked, hr.asked, hf, hp]
      simp [Effect.question]
  | waitAbandoned =>
    cases List.mem_singleton.mp he
    exact (hc rfl).elim
  | lockAbandoned =>
    cases List.mem_singleton.mp he
    exact (hc rfl).elim
  | inspectionAbandoned =>
    cases List.mem_singleton.mp he
    exact (hc rfl).elim
  | selectAbandoned =>
    cases List.mem_singleton.mp he
    exact (hc rfl).elim

theorem statement_of_moves {select : Select} {parameter : Text}
    (h : Stands tables i tr s p) (hm : Moves R tables i s e p t q fs)
    (hf : .asked (.select select parameter) ∈ fs) :
    ∃ call plan, t.plan = some plan ∧ call.miss = none ∧
      .select select parameter ∈ statement plan call := by
  have hplanned : ∀ {call : Call} {plan : Plan},
      .asked (.select select parameter) ∈ (call.planned plan).2 →
      .select select parameter ∈ statement plan call := by
    intro call plan hf
    rw [← planned_question]
    exact List.mem_filterMap.mpr ⟨_, hf, rfl⟩
  cases hm with
  | planned hmiss hp => exact ⟨_, _, hp, hmiss, hplanned hf⟩
  | plannedUnderLock hp => exact ⟨_, _, hp, h.1, hplanned hf⟩
  | discovered =>
    obtain hf | hf := List.mem_cons.mp hf
    · cases hf
    · exact ⟨_, _, rfl, h.1, hplanned hf⟩
  | queued => cases hf
  | lockAcquired => cases hf
  | inspecting => cases List.mem_singleton.mp hf
  | _ => cases List.mem_singleton.mp hf

omit [DecidableEq ι] in
theorem columns_of_moves (hm : Moves R tables i s e p t q fs) (hf : .asked .columns ∈ fs) :
    s.plan = none := by
  have hplanned : ∀ {call : Call} {plan : Plan}, .asked .columns ∉ (call.planned plan).2 := by
    intro call plan hf
    obtain ⟨question, hq, hf⟩ | ⟨hf, -⟩ := planned_effects hf
    · cases hf
      exact statement_ne_columns hq
    · cases hf
  cases hm with
  | inspecting hp => exact hp
  | planned => exact (hplanned hf).elim
  | plannedUnderLock => exact (hplanned hf).elim
  | discovered =>
    obtain hf | hf := List.mem_cons.mp hf
    · cases hf
    · exact (hplanned hf).elim
  | queued => cases hf
  | lockAcquired => cases hf
  | _ => cases List.mem_singleton.mp hf

omit [DecidableEq ι] in
/-- An inspection that discovers nothing leaves nothing behind but a free lock. -/
theorem undiscovered_of_moves (hm : Moves R tables i s e (.inspecting call) t q fs)
    (hn : ∀ plan, .discovered plan ∉ fs) : t = unlocked s := by
  cases hm with
  | discovered => exact (hn _ List.mem_cons_self).elim
  | undiscovered => rfl
  | inspectionAbandoned => rfl

end

/-- Discovery happens once, whoever gets there first. -/
structure DiscoversOnce (tables : Tables) (tr : History ι) (w : World ι (Shared ι) Phase) :
    Prop where
  exclusive : ∀ i j call call', w.phase i = .inspecting call → w.phase j = .inspecting call' → i = j
  known : ∀ plan, w.shared.plan = some plan ↔ Discovered tr plan
  read : ∀ x ∈ tr, ∀ plan, .discovered plan ∈ x.effects →
    ∃ i present, x.event = .act i (.inspected (.ok present)) ∧ tables.planOf present = .ok plan
  once : ∀ a x b plan, tr = a ++ x :: b → .discovered plan ∈ x.effects → ∀ y ∈ b,
    .asked .columns ∉ y.effects ∧ ∀ plan', .discovered plan' ∉ y.effects
  untouched : ∀ x ∈ tr, ∀ i e call, x.event = .act i e → x.before.phase i = .inspecting call →
    (∀ plan, .discovered plan ∉ x.effects) → x.after.shared = ⟨none, none⟩
  statements : ∀ x ∈ tr, ∀ select parameter, .asked (.select select parameter) ∈ x.effects →
    ∃ call plan, x.after.shared.plan = some plan ∧ call.miss = none ∧
      .select select parameter ∈ statement plan call

theorem discovers_once (h : Run (machine R tables) start tr w) : DiscoversOnce tables tr w := by
  have hstep : ∀ a (x : Step ι) b, tr = a ++ x :: b →
      ∃ i e, Run (machine R tables) start a x.before ∧ x.event = .act i e ∧
        Moves R tables i x.before.shared e (x.before.phase i) x.after.shared (x.after.phase i)
          x.effects := by
    rintro a x b rfl
    obtain ⟨hr, hx, -⟩ := h.at
    obtain ⟨i, e, he, hm, -⟩ := machine_moves hx
    exact ⟨i, e, hr, he, hm⟩
  constructor
  · intro i j call call' hi hj
    exact lock_exclusive h (by rw [hi]; rfl) (by rw [hj]; rfl)
  · exact known h
  · intro x hx plan hf
    obtain ⟨a, b, hab⟩ := List.append_of_mem hx
    obtain ⟨i, e, -, he, hm⟩ := hstep a x b hab
    obtain ⟨-, ⟨present, rfl, hp⟩, -⟩ := discovered_of_moves hm hf
    exact ⟨i, present, he, hp⟩
  · intro a x b plan hab hf y hy
    obtain ⟨b₁, b₂, rfl⟩ := List.append_of_mem hy
    obtain ⟨i, e, hr, -, hm⟩ := hstep (a ++ x :: b₁) y b₂ (by simp [hab])
    have hp : y.before.shared.plan = some plan :=
      (known hr plan).mpr ⟨x, List.mem_append_right _ List.mem_cons_self, hf⟩
    refine ⟨fun hq => ?_, (plan_kept hr hm hp).2⟩
    cases (columns_of_moves hm hq).symm.trans hp
  · intro x hx i e call he hc hn
    obtain ⟨a, b, hab⟩ := List.append_of_mem hx
    obtain ⟨j, e', hr, he', hm⟩ := hstep a x b hab
    cases he.symm.trans he'
    rw [hc] at hm
    rw [undiscovered_of_moves hm hn, unlocked, unplanned hr hc]
  · intro x hx select parameter hf
    obtain ⟨a, b, hab⟩ := List.append_of_mem hx
    obtain ⟨i, e, hr, -, hm⟩ := hstep a x b hab
    exact statement_of_moves (stands hr i) hm hf

/-- Every call that is not cancelled ends as the same call does when it is alone with the store. -/
theorem ends_alone (h : Run (machine R tables) start tr w) {a b : History ι}
    (hab : tr = a ++ x :: b) (hx : x.event = .act i e) {call : Call} {ending : Ending}
    (he : .ended call ending ∈ x.effects) (hc : ending ≠ .cancelled) :
    Alone R tables i (a ++ [x]) x.after.shared.plan call ending := by
  subst hab
  obtain ⟨hr, hm, -⟩ := h.at
  have hmoves := act_moves (Program.act_of_event hm hx)
  exact alone_of_moves (stands hr i) hmoves hx rfl (fun plan => (known hr plan).mp) he hc

end

section Sample

def betterAuth : Tables := ⟨"session".toList, "user".toList, none, none, none, by decide⟩

def migrated : Columns :=
  [("session".toList, some sessionRequired), ("user".toList, some userRequired)]

def quietRuntime : Runtime :=
  ⟨fun _ _ => default, fun _ => default, fun _ => none, fun _ => none, String.ofList⟩

/-- Two calls race to a fresh store, and the second finds the plan of the first. -/
def race : List (Happening Nat Event Empty) :=
  [.act 0 (.start .connect), .act 1 (.start (.fetchUserById "u".toList)), .act 0 .lockAcquired,
    .act 0 .lockResumed, .act 0 (.inspected (.ok migrated)), .act 1 .lockAcquired,
    .act 1 .lockResumed, .act 1 (.answered (.rows []))]

def missed : Effect → Bool
  | .ended (.fetchUserById _) (.user none) => true
  | _ => false

def missedLast (tr : History Nat) : Bool :=
  tr.getLast?.any fun x => x.effects.any missed

theorem race_run : ∃ (tr : History Nat) (w : World Nat (Shared Nat) Phase),
    Run (machine quietRuntime betterAuth) start tr w ∧ missedLast tr = true := by
  have h : ((replay (machine quietRuntime betterAuth) start race).any
      fun r => missedLast r.1) = true := by decide +kernel
  exact Run.of_replay_any h

end Sample

theorem discovers_once_race : ∃ (tr : History Nat) (w : World Nat (Shared Nat) Phase),
    Run (machine quietRuntime betterAuth) start tr w ∧ missedLast tr = true ∧
      DiscoversOnce betterAuth tr w := by
  obtain ⟨tr, w, hr, hp⟩ := race_run
  exact ⟨tr, w, hr, hp, discovers_once hr⟩

theorem ends_alone_race : ∃ (tr : History Nat) (i : Nat) (call : Call) (plan : Option Plan),
    Alone quietRuntime betterAuth i tr plan call (.user none) := by
  obtain ⟨tr, w, hr, hp⟩ := race_run
  obtain ⟨x, hx, hf⟩ := (Option.any_eq_true ..).mp hp
  obtain ⟨f, hf, hm⟩ := List.any_eq_true.mp hf
  obtain ⟨a, rfl⟩ := List.getLast?_eq_some_iff.mp hx
  obtain ⟨i, e, he, -⟩ := Program.act_of_effect hr.last.2.1 hf
  unfold missed at hm
  split at hm
  · exact ⟨_, i, _, _, ends_alone hr rfl he hf nofun⟩
  · cases hm

end BetterAuthBridge.SqlLookups
