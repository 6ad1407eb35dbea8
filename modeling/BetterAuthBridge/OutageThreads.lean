import BetterAuthBridge.Library.Linearize
import BetterAuthBridge.Outages

namespace BetterAuthBridge.OutageThreads

open Library Library.Runs Library.Tasks Library.Linearize Outages

variable {ι κ : Type} [DecidableEq κ]

structure Shared (ι κ : Type) where
  latch : OutageLatch κ
  lock : Option ι

abbrev Answer (κ : Type) := List (κ × Admission)

/-- Where a thread stands in a call. `looking` is before the unlocked look of `rearm`, `clearing`
between its two writes. -/
inductive Phase (κ : Type)
  | idle
  | looking
  | entering (call : Call κ)
  | holding (call : Call κ)
  | judged (kind : κ) (admission : Admission)
  | clearing
  | leaving (call : Call κ) (answer : Answer κ)
  | answered (call : Call κ) (answer : Answer κ)
  | done

inductive Event (κ : Type)
  | call (call : Call κ)
  | next

abbrev Turn (ι κ : Type) := Shared ι κ × Phase κ × List (Seen (Call κ) (κ × Admission))

namespace Shared

def unheld (s : Shared ι κ) : Shared ι κ := { s with lock := none }

def judge (s : Shared ι κ) (kind : κ) : Phase κ :=
  if s.latch.overflowed = true ∨ kind ∈ s.latch.reported then
    .leaving (.admitKind kind) [(kind, .silent)]
  else if maxReportedKinds ≤ s.latch.reported.card then .judged kind .overflow
  else .judged kind .report

def mark (s : Shared ι κ) (kind : κ) : Admission → Shared ι κ
  | .report => { s with latch := { s.latch with reported := insert kind s.latch.reported } }
  | .overflow => { s with latch := { s.latch with overflowed := true } }
  | .silent => s

/-- A call of a thread, from one access to what the threads share to the next. -/
def act (i : ι) (event : Event κ) (s : Shared ι κ) (phase : Phase κ) : Option (Turn ι κ) :=
  match event, phase with
  | .call (.admitKind kind), .idle =>
    some (s, .entering (.admitKind kind), [.called (.admitKind kind)])
  | .call .rearm, .idle => some (s, .looking, [.called .rearm])
  | .next, .looking =>
    some (s, if s.latch.reported = ∅ then .answered .rearm [] else .entering .rearm, [])
  | .next, .entering call =>
    if s.lock.isNone then some ({ s with lock := some i }, .holding call, []) else none
  | .next, .holding (.admitKind kind) => some (s, s.judge kind, [])
  | .next, .judged kind admission =>
    some (s.mark kind admission, .leaving (.admitKind kind) [(kind, admission)], [])
  | .next, .holding .rearm =>
    some ({ s with latch := { s.latch with reported := ∅ } }, .clearing, [])
  | .next, .clearing =>
    some ({ s with latch := { s.latch with overflowed := false } }, .leaving .rearm [], [])
  | .next, .leaving call answer => some (s.unheld, .answered call answer, [])
  | .next, .answered _ answer => some (s, .done, [.returned answer])
  | _, _ => none

end Shared

def program : Program ι (Shared ι κ) (Phase κ) (Event κ) Empty (Seen (Call κ) (κ × Admission)) where
  act := Shared.act
  drift := nofun

def start : World ι (Shared ι κ) (Phase κ) := ⟨⟨.new, none⟩, fun _ => .idle⟩

abbrev Threads (ι κ : Type) :=
  History ι (Shared ι κ) (Phase κ) (Event κ) Empty (Call κ) (κ × Admission)

/-- Everything one section of a thread can do. -/
inductive Moves (i : ι) (s : Shared ι κ) : Event κ → Phase κ → Shared ι κ → Phase κ →
    List (Seen (Call κ) (κ × Admission)) → Prop
  | failed {kind} : Moves i s (.call (.admitKind kind)) .idle s (.entering (.admitKind kind))
      [.called (.admitKind kind)]
  | completed : Moves i s (.call .rearm) .idle s .looking [.called .rearm]
  | lookedEmpty : s.latch.reported = ∅ → Moves i s .next .looking s (.answered .rearm []) []
  | looked : Moves i s .next .looking s (.entering .rearm) []
  | taken {call} : s.lock = none →
      Moves i s .next (.entering call) { s with lock := some i } (.holding call) []
  | known {kind} : s.latch.overflowed = true ∨ kind ∈ s.latch.reported →
      Moves i s .next (.holding (.admitKind kind)) s
        (.leaving (.admitKind kind) [(kind, .silent)]) []
  | past {kind} : ¬ (s.latch.overflowed = true ∨ kind ∈ s.latch.reported) →
      maxReportedKinds ≤ s.latch.reported.card →
      Moves i s .next (.holding (.admitKind kind)) s (.judged kind .overflow) []
  | news {kind} : ¬ (s.latch.overflowed = true ∨ kind ∈ s.latch.reported) →
      ¬ maxReportedKinds ≤ s.latch.reported.card →
      Moves i s .next (.holding (.admitKind kind)) s (.judged kind .report) []
  | marked {kind admission} : Moves i s .next (.judged kind admission) (s.mark kind admission)
      (.leaving (.admitKind kind) [(kind, admission)]) []
  | cleared : Moves i s .next (.holding .rearm)
      { s with latch := { s.latch with reported := ∅ } } .clearing []
  | reset : Moves i s .next .clearing { s with latch := { s.latch with overflowed := false } }
      (.leaving .rearm []) []
  | given {call answer} : Moves i s .next (.leaving call answer) s.unheld (.answered call answer) []
  | returned {call answer} : Moves i s .next (.answered call answer) s .done [.returned answer]

variable {i j : ι} {s t : Shared ι κ} {e : Event κ} {p q : Phase κ}
  {fs : List (Seen (Call κ) (κ × Admission))}

theorem act_moves (h : Shared.act i e s p = some (t, q, fs)) : Moves i s e p t q fs := by
  unfold Shared.act at h
  split at h
  · cases h
    exact .failed
  · cases h
    exact .completed
  · cases h
    split
    · rename_i he
      exact .lookedEmpty he
    · exact .looked
  · split at h
    · rename_i hl
      cases h
      exact .taken (Option.isNone_iff_eq_none.mp hl)
    · cases h
  · cases h
    unfold Shared.judge
    split_ifs with hk hc
    · exact .known hk
    · exact .past hk hc
    · exact .news hk hc
  · cases h
    exact .marked
  · cases h
    exact .cleared
  · cases h
    exact .reset
  · cases h
    exact .given
  · cases h
    exact .returned
  · cases h

def holds : Phase κ → Bool
  | .holding _ | .judged _ _ | .clearing | .leaving _ _ => true
  | _ => false

/-- What a thread has read under the lock stays so until it gives the lock back. -/
def Knows (s : Shared ι κ) : Phase κ → Prop
  | .judged kind admission => s.latch.admitKind kind = ((s.mark kind admission).latch, admission)
  | .clearing => s.latch.reported = ∅
  | _ => True

structure Place (i : ι) (s : Shared ι κ) (p : Phase κ) : Prop where
  lock : s.lock = some i ↔ holds p = true
  knows : Knows s p

theorem knows_of_unheld (h : holds p = false) : Knows s p := by
  cases p with
  | judged => cases h
  | clearing => cases h
  | _ => trivial

theorem Place.free {p' : Phase κ} (h : Place i s p) (h' : Place j s p') (hj : j ≠ i)
    (hi : holds p = true) : holds p' = false := by
  rw [Bool.eq_false_iff]
  intro hp
  exact hj (Option.some.inj ((h'.lock.mpr hp).symm.trans (h.lock.mpr hi)))

theorem mark_lock {kind : κ} {admission : Admission} : (s.mark kind admission).lock = s.lock := by
  cases admission <;> rfl

theorem place_moves (h : Place i s p) (hm : Moves i s e p t q fs) : Place i t q := by
  cases hm with
  | failed => exact ⟨h.lock, trivial⟩
  | completed => exact ⟨h.lock, trivial⟩
  | lookedEmpty => exact ⟨h.lock, trivial⟩
  | looked => exact ⟨h.lock, trivial⟩
  | taken => exact ⟨iff_of_true rfl rfl, trivial⟩
  | known => exact ⟨h.lock, trivial⟩
  | past hk hc =>
    refine ⟨h.lock, ?_⟩
    rw [Knows, OutageLatch.admitKind, if_neg hk, if_pos hc]
    rfl
  | news hk hc =>
    refine ⟨h.lock, ?_⟩
    rw [Knows, OutageLatch.admitKind, if_neg hk, if_neg hc]
    rfl
  | marked => exact ⟨by rw [mark_lock]; exact h.lock, trivial⟩
  | cleared => exact ⟨h.lock, rfl⟩
  | reset => exact ⟨h.lock, trivial⟩
  | given => exact ⟨iff_of_false (Option.some_ne_none i).symm Bool.false_ne_true, trivial⟩
  | returned => exact ⟨h.lock, trivial⟩

/-- What another thread has read is not taken from it. -/
theorem other_moves {p' : Phase κ} (hi : Place i s p) (h : Place j s p') (hj : j ≠ i)
    (hm : Moves i s e p t q fs) : Place j t p' := by
  have hfree : holds p = true → holds p' = false := hi.free h hj
  cases hm with
  | failed => exact h
  | completed => exact h
  | lookedEmpty => exact h
  | looked => exact h
  | taken hl =>
    have hlock : ¬ holds p' = true := by
      rw [← h.lock, hl]
      nofun
    refine ⟨iff_of_false (fun hij => hj (Option.some.inj hij).symm) hlock, ?_⟩
    exact knows_of_unheld (Bool.eq_false_iff.mpr hlock)
  | known => exact h
  | past => exact h
  | news => exact h
  | marked => exact ⟨by rw [mark_lock]; exact h.lock, knows_of_unheld (hfree rfl)⟩
  | cleared => exact ⟨h.lock, knows_of_unheld (hfree rfl)⟩
  | reset => exact ⟨h.lock, knows_of_unheld (hfree rfl)⟩
  | given =>
    refine ⟨iff_of_false nofun ?_, knows_of_unheld (hfree rfl)⟩
    rw [hfree rfl]
    nofun
  | returned => exact h

/-- A call takes effect when its thread has read that there is nothing to write, or with its first
write. -/
def stage : Phase κ → Stage (Call κ) (κ × Admission)
  | .idle => .idle
  | .looking => .pending .rearm
  | .entering call | .holding call => .pending call
  | .judged kind _ => .pending (.admitKind kind)
  | .clearing => .decided .rearm []
  | .leaving call answer | .answered call answer => .decided call answer
  | .done => .done

/-- The latch that the threads have made, but for the second write of one that is clearing it. -/
structure Stands (w : World ι (Shared ι κ) (Phase κ)) (latch : OutageLatch κ) : Prop where
  reported : latch.reported = w.shared.latch.reported
  clearing : ∀ i, w.phase i = .clearing → latch.overflowed = false
  settled : (∀ i, w.phase i ≠ .clearing) → latch = w.shared.latch
  full : latch.overflowed = true → maxReportedKinds ≤ latch.reported.card

variable [DecidableEq ι] {w : World ι (Shared ι κ) (Phase κ)} {latch : OutageLatch κ}
  {tr : Threads ι κ}

theorem reachable (h : Run program.machine start tr w) (i : ι) :
    Place i w.shared (w.phase i) := by
  refine (rely (I := fun _ _ => True) (A := fun i _ s q => Place i s q) h trivial ?_ ?_ ?_).2 i
  · exact fun i => ⟨iff_of_false nofun nofun, trivial⟩
  · intro tr w i e s' q fs _ _ hp ha
    have hm := act_moves ha
    exact ⟨trivial, place_moves (hp i) hm, fun j hj => other_moves (hp i) (hp j) hj hm⟩
  · exact fun _ _ d => d.elim

omit [DecidableEq ι] in
theorem Stands.eq (h : Stands w latch) (hp : ∀ j, Place j w.shared (w.phase j))
    (hi : holds (w.phase i) = true) (hc : w.phase i ≠ .clearing) : latch = w.shared.latch := by
  apply h.settled
  intro j hj
  by_cases hji : j = i
  · rw [hji] at hj
    exact hc hj
  · have hfree := (hp i).free (hp j) hji hi
    rw [hj] at hfree
    cases hfree

omit [DecidableEq ι] in
theorem Stands.rearm (h : Stands w latch) : latch.rearm = latch.cleared := by
  rw [OutageLatch.rearm]
  split
  · rename_i he
    have ho : latch.overflowed = false := by
      rw [Bool.eq_false_iff]
      intro ho
      have hfull := h.full ho
      rw [he] at hfull
      cases hfull
    rw [OutageLatch.cleared, ← he, ← ho]
  · rfl

omit [DecidableEq κ] in
theorem Stands.same (h : Stands w latch) (ht : t.latch = w.shared.latch)
    (hp : w.phase i ≠ .clearing) (hq : q ≠ .clearing) :
    Stands ⟨t, Function.update w.phase i q⟩ latch where
  reported := by rw [h.reported, ht]
  clearing j hj := by
    by_cases hji : j = i
    · subst hji
      exact (hq (by simpa only [Function.update_self] using hj)).elim
    · exact h.clearing j (by simpa only [Function.update_of_ne hji] using hj)
  settled hn := by
    rw [ht]
    apply h.settled
    intro j
    by_cases hji : j = i
    · rw [hji]
      exact hp
    · simpa only [Function.update_of_ne hji] using hn j
  full := h.full

omit [DecidableEq κ] [DecidableEq ι] in
theorem Stands.settle (hn : ∀ j, w.phase j ≠ .clearing)
    (hf : w.shared.latch.overflowed = true → maxReportedKinds ≤ w.shared.latch.reported.card) :
    Stands w w.shared.latch :=
  ⟨rfl, fun j hj => (hn j hj).elim, fun _ => rfl, hf⟩

omit [DecidableEq ι] in
theorem full_admitKind {kind : κ}
    (h : latch.overflowed = true → maxReportedKinds ≤ latch.reported.card)
    (ho : (latch.admitKind kind).1.overflowed = true) :
    maxReportedKinds ≤ (latch.admitKind kind).1.reported.card := by
  unfold OutageLatch.admitKind at ho ⊢
  split_ifs at ho ⊢ with hk hc
  · exact h ho
  · exact hc
  · exact (hk (.inl ho)).elim

/-- Every section keeps the latch, or calls it as a single step would. -/
theorem moved_of_moves (h : Stands w latch) (hp : ∀ j, Place j w.shared (w.phase j))
    (hm : Moves i w.shared e (w.phase i) t q fs) :
    ∃ latch', Moved OutageLatch.step latch (stage (w.phase i)) fs latch' (stage q) ∧
      Stands ⟨t, Function.update w.phase i q⟩ latch' := by
  have hi := hp i
  have hothers : holds (w.phase i) = true → q ≠ .clearing →
      ∀ j, Function.update w.phase i q j ≠ .clearing := by
    intro hh hq j hj
    by_cases hji : j = i
    · subst hji
      exact hq (by simpa only [Function.update_self] using hj)
    · have hfree := hi.free (hp j) hji hh
      rw [Function.update_of_ne hji] at hj
      rw [hj] at hfree
      cases hfree
  have hsame : t.latch = w.shared.latch → w.phase i ≠ .clearing → q ≠ .clearing →
      Stands ⟨t, Function.update w.phase i q⟩ latch := fun ht hp hq => h.same ht hp hq
  have heq : holds (w.phase i) = true → w.phase i ≠ .clearing → latch = w.shared.latch := h.eq hp
  have hclear : w.phase i = .clearing → latch.overflowed = false := h.clearing i
  generalize w.phase i = p at hm hi hothers hsame heq hclear
  cases hm with
  | failed => exact ⟨latch, .called, hsame rfl nofun nofun⟩
  | completed => exact ⟨latch, .called, hsame rfl nofun nofun⟩
  | lookedEmpty he =>
    have hr : latch.rearm = latch := if_pos (h.reported.trans he)
    refine ⟨latch, .decided ?_, hsame rfl nofun nofun⟩
    rw [OutageLatch.step, hr]
  | looked => exact ⟨latch, .quiet, hsame rfl nofun nofun⟩
  | taken => exact ⟨latch, .quiet, hsame rfl nofun nofun⟩
  | known hk =>
    have ha : latch.admitKind _ = (latch, .silent) := if_pos (by rwa [heq rfl nofun])
    refine ⟨latch, .decided ?_, hsame rfl nofun nofun⟩
    rw [OutageLatch.step, ha]
  | past => exact ⟨latch, .quiet, hsame rfl nofun nofun⟩
  | news => exact ⟨latch, .quiet, hsame rfl nofun nofun⟩
  | @marked kind admission =>
    obtain rfl := heq rfl nofun
    have ha : w.shared.latch.admitKind kind = ((w.shared.mark kind admission).latch, admission) :=
      hi.knows
    refine ⟨_, .decided (b := (w.shared.mark kind admission).latch) ?_,
      Stands.settle (hothers rfl nofun) ?_⟩
    · rw [OutageLatch.step, ha]
    · have hf : _ → maxReportedKinds ≤ (w.shared.latch.admitKind kind).1.reported.card :=
        full_admitKind h.full
      rwa [ha] at hf
  | cleared =>
    refine ⟨latch.cleared, .decided ?_, rfl, fun _ _ => rfl, fun hn => ?_, nofun⟩
    · rw [OutageLatch.step, h.rearm]
    · exact (hn i (Function.update_self ..)).elim
  | reset =>
    have hl : latch = { w.shared.latch with overflowed := false } := by
      dsimp only
      rw [← h.reported, ← hclear rfl]
    exact ⟨latch, .quiet, h.reported, fun j hj => (hothers rfl nofun j hj).elim, fun _ => hl,
      h.full⟩
  | given => exact ⟨latch, .quiet, hsame rfl nofun nofun⟩
  | returned => exact ⟨latch, .returned, hsame rfl nofun nofun⟩

theorem threads_linearize (h : Run program.machine start tr w) :
    ∃ order latch, Linearizes OutageLatch.step OutageLatch.new tr order latch ∧ Stands w latch := by
  apply linearizes stage Stands h
  · exact Stands.settle (w := start) (fun _ => nofun) nofun
  · exact fun _ => rfl
  · intro tr w i e s' q fs latch hr hs ha
    exact moved_of_moves hs (reachable hr) (act_moves ha)
  · exact fun _ _ d => d.elim

/-- Whatever threads call, in whatever order their accesses fall, it is as if each call were one
step, the unlocked look of `rearm` included: so between two rearms each of the first kinds is told
once and one notice covers the rest, and a latch at rest holds what those calls make of it. -/
structure ThreadsAnnounce (ι κ : Type) [DecidableEq ι] [DecidableEq κ] : Prop where
  linearizes : ∀ (tr : Threads ι κ) w, Run program.machine start tr w →
    ∃ order latch, Linearizes OutageLatch.step OutageLatch.new tr order latch ∧
      ((∀ i, w.phase i ≠ .clearing) → w.shared.latch = latch) ∧
      ∀ a b : Calls κ, order.map Prod.snd = a ++ b → (told .report (since a)).Nodup ∧
        (told .report (since a)).length ≤ maxReportedKinds ∧
        (told .overflow (since a)).length ≤ 1
  exclusive : ∀ (tr : Threads ι κ) w i j, Run program.machine start tr w →
    holds (w.phase i) = true → holds (w.phase j) = true → i = j

theorem threads_announce (ι κ : Type) [DecidableEq ι] [DecidableEq κ] : ThreadsAnnounce ι κ := by
  constructor
  · intro tr w h
    obtain ⟨order, latch, hl, hs⟩ := threads_linearize h
    refine ⟨order, latch, hl, fun hn => (hs.settled hn).symm, fun a b hab => ?_⟩
    have hrun := hl.legal
    rw [hab] at hrun
    obtain ⟨_, ha, -⟩ := hrun.split
    exact ⟨(holds_run ha).nodup, (holds_run ha).told_le, (holds_run ha).overflows_le⟩
  · intro tr w i j h hi hj
    by_contra hne
    have hfree := (reachable h i).free (reachable h j) (Ne.symm hne) hi
    rw [hj] at hfree
    cases hfree

end BetterAuthBridge.OutageThreads
