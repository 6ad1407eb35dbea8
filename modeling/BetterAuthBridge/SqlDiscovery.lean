import BetterAuthBridge.Library.Tasks
import BetterAuthBridge.SqlStore

namespace BetterAuthBridge.SqlDiscovery

open Library Library.Runs Library.Tasks Values Errors SessionDocument Models SqlStore

variable {ι α : Type}

/-- What a store was built with, less the database it was pointed at. -/
structure Tables where
  sessionTable : Text
  userTable : Text
  schema : Option Text
  sessionAllowed : Option (List Text)
  userAllowed : Option (List Text)
  named : blank sessionTable = false ∧ blank userTable = false ∧ sessionTable ≠ userTable

structure Shared (ι : Type) where
  plan : Option Plan
  lock : Option ι

inductive Call
  | connect
  | fetchSessionByToken (token : Text)
  | fetchUserById (userId : Text)

inductive Ending
  | connected
  | session (found : Option StoredSession)
  | user (found : Option StoredUser)
  | raised (exc : Exn)
  | cancelled

inductive Phase
  | idle
  | waiting (call : Call)
  | granted (call : Call)
  | inspecting (call : Call)
  | selecting (call : Call) (plan : Plan)
  | finished

inductive Event
  | start (call : Call)
  | lockAcquired
  | lockResumed
  | inspected (answer : Except Exn Columns)
  | answered (answer : SelectAnswer)
  | cancelled

inductive Effect
  | asked (question : Question)
  | discovered (plan : Plan)
  | ended (call : Call) (ending : Ending)

abbrev Turn (ι : Type) := Shared ι × Phase × List Effect

def finish (call : Call) (ending : Ending) : Phase × List Effect :=
  (.finished, [.ended call ending])

def unlocked (s : Shared ι) : Shared ι := { s with lock := none }

def Call.miss : Call → Option Ending
  | .connect => none
  | .fetchSessionByToken token => if blank token then some (.session none) else none
  | .fetchUserById userId => if blank userId then some (.user none) else none

def Call.planned (plan : Plan) : Call → Phase × List Effect
  | .connect => finish .connect .connected
  | .fetchSessionByToken token =>
    (.selecting (.fetchSessionByToken token) plan, [.asked (.select plan.sessionStatement token)])
  | .fetchUserById userId =>
    (.selecting (.fetchUserById userId) plan, [.asked (.select plan.userStatement userId)])

variable (R : Runtime)

def ended (make : α → Ending) : Except Exn α → Ending
  | .ok a => make a
  | .error exc => .raised exc

def Call.found (plan : Plan) (rows : List Row) : Call → Ending
  | .connect => .connected
  | .fetchSessionByToken token => ended .session (sessionFrom R rows plan token)
  | .fetchUserById userId => ended .user (userFrom R rows plan userId true)

def Call.parameter : Call → Text
  | .connect => []
  | .fetchSessionByToken token => token
  | .fetchUserById userId => userId

def Call.selected (plan : Plan) (call : Call) : SelectAnswer → Ending
  | .rows rows => call.found R plan (rows.take rowLimit)
  | .databaseError => .raised (CoreStore.lookupUnavailable R call.parameter)
  | .raised exc => .raised exc

namespace Tables

variable (tables : Tables)

def planOf (present : Columns) : Except Exn Plan :=
  planFor tables.sessionTable tables.userTable tables.schema present tables.sessionAllowed
    tables.userAllowed

def opened (call : Call) (s : Shared ι) : Turn ι :=
  match call.miss with
  | some ending => (s, finish call ending)
  | none =>
    match s.plan with
    | some plan => (s, call.planned plan)
    | none => (s, .waiting call, [])

def locked (call : Call) (s : Shared ι) : Turn ι :=
  match s.plan with
  | some plan => (unlocked s, call.planned plan)
  | none => (s, .inspecting call, [.asked .columns])

def inspected (call : Call) (answer : Except Exn Columns) (s : Shared ι) : Turn ι :=
  match answer.bind tables.planOf with
  | .ok plan =>
    let next := call.planned plan
    (unlocked { s with plan := some plan }, next.1, .discovered plan :: next.2)
  | .error exc => (unlocked s, finish call (.raised exc))

def abandoned (s : Shared ι) : Phase → Option (Turn ι)
  | .waiting call | .selecting call _ => some (s, finish call .cancelled)
  | .granted call | .inspecting call => some (unlocked s, finish call .cancelled)
  | .idle | .finished => none

def act (i : ι) (event : Event) (s : Shared ι) (phase : Phase) : Option (Turn ι) :=
  match event, phase with
  | .start call, .idle => some (opened call s)
  | .lockAcquired, .waiting call =>
    if s.lock.isNone then some ({ s with lock := some i }, .granted call, []) else none
  | .lockResumed, .granted call => some (locked call s)
  | .inspected answer, .inspecting call => some (tables.inspected call answer s)
  | .answered answer, .selecting call plan => some (s, finish call (call.selected R plan answer))
  | .cancelled, phase => abandoned s phase
  | _, _ => none

def program : Program ι (Shared ι) Phase Event Empty Effect where
  act := tables.act R
  drift := nofun

end Tables

def start : World ι (Shared ι) Phase := ⟨⟨none, none⟩, fun _ => .idle⟩

abbrev History (ι : Type) := Trace ι (Shared ι) Phase Event Empty Effect

inductive Moves (tables : Tables) (i : ι) (s : Shared ι) :
    Event → Phase → Shared ι → Phase → List Effect → Prop
  | missed {call ending} : call.miss = some ending →
      Moves tables i s (.start call) .idle s .finished [.ended call ending]
  | planned {call plan} : call.miss = none → s.plan = some plan →
      Moves tables i s (.start call) .idle s (call.planned plan).1 (call.planned plan).2
  | queued {call} : call.miss = none → s.plan = none →
      Moves tables i s (.start call) .idle s (.waiting call) []
  | lockAcquired {call} : s.lock = none →
      Moves tables i s .lockAcquired (.waiting call) { s with lock := some i } (.granted call) []
  | plannedUnderLock {call plan} : s.plan = some plan →
      Moves tables i s .lockResumed (.granted call) (unlocked s) (call.planned plan).1
        (call.planned plan).2
  | inspecting {call} : s.plan = none →
      Moves tables i s .lockResumed (.granted call) s (.inspecting call) [.asked .columns]
  | discovered {call present plan} : tables.planOf present = .ok plan →
      Moves tables i s (.inspected (.ok present)) (.inspecting call)
        (unlocked { s with plan := some plan }) (call.planned plan).1
        (.discovered plan :: (call.planned plan).2)
  | undiscovered {call answer exc} : answer.bind tables.planOf = .error exc →
      Moves tables i s (.inspected answer) (.inspecting call) (unlocked s) .finished
        [.ended call (.raised exc)]
  | answered {call plan answer} :
      Moves tables i s (.answered answer) (.selecting call plan) s .finished
        [.ended call (call.selected R plan answer)]
  | waitAbandoned {call} :
      Moves tables i s .cancelled (.waiting call) s .finished [.ended call .cancelled]
  | lockAbandoned {call} :
      Moves tables i s .cancelled (.granted call) (unlocked s) .finished [.ended call .cancelled]
  | inspectionAbandoned {call} :
      Moves tables i s .cancelled (.inspecting call) (unlocked s) .finished
        [.ended call .cancelled]
  | selectAbandoned {call plan} :
      Moves tables i s .cancelled (.selecting call plan) s .finished [.ended call .cancelled]

variable {R} {tables : Tables} {i j : ι} {call : Call} {s t : Shared ι} {e : Event} {p q : Phase}
  {fs : List Effect}

theorem opened_moves (h : Tables.opened call s = (t, q, fs)) :
    Moves R tables i s (.start call) .idle t q fs := by
  unfold Tables.opened at h
  cases hm : call.miss with
  | some ending =>
    rw [hm] at h
    cases h
    exact .missed hm
  | none =>
    rw [hm] at h
    cases hp : s.plan with
    | some plan =>
      simp only [hp] at h
      obtain ⟨rfl, hn⟩ := Prod.mk.inj h
      have hmove : Moves R tables i s (.start call) .idle s (call.planned plan).1
          (call.planned plan).2 := .planned hm hp
      rwa [hn] at hmove
    | none =>
      simp only [hp] at h
      cases h
      exact .queued hm hp

theorem locked_moves (h : Tables.locked call s = (t, q, fs)) :
    Moves R tables i s .lockResumed (.granted call) t q fs := by
  unfold Tables.locked at h
  cases hp : s.plan with
  | some plan =>
    rw [hp] at h
    obtain ⟨rfl, hn⟩ := Prod.mk.inj h
    have hmove : Moves R tables i s .lockResumed (.granted call) (unlocked s)
        (call.planned plan).1 (call.planned plan).2 := .plannedUnderLock hp
    rwa [hn] at hmove
  | none =>
    rw [hp] at h
    cases h
    exact .inspecting hp

theorem inspected_moves {answer : Except Exn Columns}
    (h : tables.inspected call answer s = (t, q, fs)) :
    Moves R tables i s (.inspected answer) (.inspecting call) t q fs := by
  unfold Tables.inspected at h
  cases hp : answer.bind tables.planOf with
  | error exc =>
    rw [hp] at h
    cases h
    exact .undiscovered hp
  | ok plan =>
    rw [hp] at h
    cases h
    cases answer with
    | error exc => cases hp
    | ok present => exact .discovered hp

theorem act_moves (h : tables.act R i e s p = some (t, q, fs)) : Moves R tables i s e p t q fs := by
  unfold Tables.act at h
  split at h
  · exact opened_moves (Option.some.inj h)
  · split at h
    · rename_i hl
      cases h
      exact .lockAcquired (Option.isNone_iff_eq_none.mp hl)
    · cases h
  · exact locked_moves (Option.some.inj h)
  · exact inspected_moves (Option.some.inj h)
  · cases h
    exact .answered
  · cases p with
    | idle => cases h
    | finished => cases h
    | waiting call =>
      cases h
      exact .waitAbandoned
    | granted call =>
      cases h
      exact .lockAbandoned
    | inspecting call =>
      cases h
      exact .inspectionAbandoned
    | selecting call plan =>
      cases h
      exact .selectAbandoned
  · cases h

def Phase.holds : Phase → Bool
  | granted _ | inspecting _ => true
  | _ => false

@[simp] theorem planned_holds (call : Call) (plan : Plan) :
    (call.planned plan).1.holds = false := by
  cases call <;> rfl

theorem locked_of_moves (h : Moves R tables i s e p t q fs) :
    Locked i s.lock p.holds t.lock q.holds := by
  cases h with
  | lockAcquired hl =>
    rw [hl]
    exact .taken
  | plannedUnderLock | discovered =>
    rw [planned_holds]
    exact .given
  | undiscovered | lockAbandoned | inspectionAbandoned => exact .given
  | planned =>
    rw [planned_holds]
    exact .kept
  | _ => exact .kept

section

variable [DecidableEq ι]

variable {tr : History ι} {w : World ι (Shared ι) Phase}

abbrev machine (R : Runtime) (tables : Tables) : Machine (World ι (Shared ι) Phase)
    (Happening ι Event Empty) Effect := (tables.program R).machine

theorem machine_moves {w u : World ι (Shared ι) Phase} {h : Happening ι Event Empty}
    (hu : machine R tables w h = some (u, fs)) :
    ∃ i e, h = .act i e ∧ Moves R tables i w.shared e (w.phase i) u.shared (u.phase i) fs ∧
      ∀ j, j ≠ i → u.phase j = w.phase j := by
  obtain ⟨i, e, rfl, ha, hother⟩ | ⟨d, -⟩ := Program.machine_steps hu
  · exact ⟨i, e, rfl, act_moves ha, hother⟩
  · exact d.elim

theorem lock_held (h : Run (machine R tables) start tr w) (i : ι) :
    w.shared.lock = some i ↔ (w.phase i).holds = true :=
  Tasks.lock_held Shared.lock Phase.holds h rfl (fun _ => rfl)
    (fun _ _ _ _ _ _ _ ha => locked_of_moves (act_moves ha)) (fun d => d.elim) i

theorem lock_exclusive (h : Run (machine R tables) start tr w)
    (hi : (w.phase i).holds = true) (hj : (w.phase j).holds = true) : i = j :=
  Option.some.inj (((lock_held h i).mpr hi).symm.trans ((lock_held h j).mpr hj))

end

end BetterAuthBridge.SqlDiscovery
