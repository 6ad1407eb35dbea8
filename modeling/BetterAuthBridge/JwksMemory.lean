import BetterAuthBridge.JwksAnswers
import BetterAuthBridge.Library.Recency

namespace BetterAuthBridge.JwksMemory

open Library Library.Runs Library.Tasks Library.Recency Values Errors RemoteResponse JwksDocument
open JwksClient JwksSteps JwksThrottle JwksAnswers

variable {ι κ : Type}

abbrev Memory := Ordered.Table Str Seconds

/-- Remembering a kid now leaves the memory ordered by age and costs no other kid its place. -/
def Aligned (kid : Str) (now : Seconds) (missing : Memory) : Prop :=
  Ordered.get missing kid = none ∨
    missing.length < maxRememberedMisses ∧ (∀ d ∈ standingAfter missing kid, d.2 = now) ∨
    maxRememberedMisses ≤ missing.length ∧ missing.head?.map Prod.fst = some kid

instance (kid : Str) (now : Seconds) (missing : Memory) : Decidable (Aligned kid now missing) :=
  inferInstanceAs (Decidable (_ ∨ _))

/-- A fetch fails while the fresh key set on hand does not list the kid that was asked for. -/
structure Failing (c : Client κ) (R : Runtime) (kid : Str) (s : Shared ι κ) (answer : Answer) :
    Prop where
  failed : ∃ exc, c.fetched R answer = .error exc ∧ exc.isUnavailable = true
  unlisted : ∃ keys, s.keys = some keys ∧ Ordered.get keys kid = none
  fresh : c.isFresh s = true

/-- A failed fetch remembers its kid only where that keeps the table in order. -/
def Timely (c : Client κ) (R : Runtime) (x : Step ι κ) : Prop :=
  ∀ i answer kid previous, x.event = .act i (.answered answer) →
    x.before.phase i = .fetching kid previous → Failing c R kid x.before.shared answer →
    Aligned kid x.before.shared.clock x.before.shared.missing

def keys (missing : Memory) : List Str := missing.map Prod.fst

/-- What the memory of absent kids may and may not lose. -/
structure Remembers (c : Client κ) (tr : History ι κ) (w : World ι (Shared ι κ) Phase) : Prop where
  bounded : w.shared.missing.length ≤ maxRememberedMisses
  aged : Aged w.shared.missing
  needless : ∀ a x b i kid, tr = a ++ x :: b → Did i (.ended kid .absent) x → Unrefreshed x →
    kid ∈ keys x.before.shared.missing →
    keys x.before.shared.missing ⊆ keys x.after.shared.missing
  oldest : ∀ a x b, tr = a ++ x :: b → Unrefreshed x → ∀ d ∈ x.before.shared.missing,
    d.1 ∉ keys x.after.shared.missing →
    (c.negativeTtl ≤ x.before.shared.clock - d.2 ∧ ∃ i ending, Did i (.ended d.1 ending) x) ∨
      ∀ d' ∈ x.before.shared.missing, d.2 ≤ d'.2

def recorded (kid : Str) (now : Seconds) (missing : Memory) : Memory :=
  Ordered.set (Ordered.evicted maxRememberedMisses missing) kid now

/-- Everything one section of a `key_for` can do to the memory of absent kids. -/
inductive Recalls (c : Client κ) (R : Runtime) (s : Shared ι κ) :
    Event → Phase → Memory → List (Effect κ) → Prop
  | same {e p fs} : Recalls c R s e p s.missing fs
  | lapsed {e kid stamp ending} : Ordered.get s.missing kid = some stamp →
      c.negativeTtl ≤ s.clock - stamp → ending ≠ .absent →
      Recalls c R s e (.granted kid) (Ordered.erase s.missing kid) [.ended kid ending]
  | renewed {e kid stamp} : Ordered.get s.missing kid = some stamp →
      Recalls c R s e (.granted kid) (recorded kid s.clock (Ordered.erase s.missing kid))
        [.ended kid .absent]
  | added {e kid} : Ordered.get s.missing kid = none →
      Recalls c R s e (.granted kid) (recorded kid s.clock s.missing) [.ended kid .absent]
  | again {answer kid previous} : Failing c R kid s answer →
      Recalls c R s (.answered answer) (.fetching kid previous) (recorded kid s.clock s.missing)
        [.fetchSettled none, .ended kid .absent]
  | forgotten {e p found fs} : .fetchSettled (some found) ∈ fs → Recalls c R s e p [] fs
  | refreshed {e p found kid fs} : .fetchSettled (some found) ∈ fs →
      Recalls c R s e p [(kid, s.clock)] fs

variable {c : Client κ} {R : Runtime} {i : ι} {kid : Str} {s t : Shared ι κ} {e : Event}
  {p q : Phase} {fs : List (Effect κ)} {ending : Ending κ} {clock : Seconds}
  {missing rest : Memory} {now : Seconds} {tr : History ι κ} {w : World ι (Shared ι κ) Phase}

theorem Replies.remembering (h : Replies c kid s t ending) :
    t.missing = s.missing ∧ ending ≠ .absent ∨
      t.missing = recorded kid s.clock s.missing ∧ ending = .absent ∧ c.isFresh s = true ∧
        ∃ keys, s.keys = some keys ∧ Ordered.get keys kid = none := by
  cases h with
  | found =>
    refine .inl ⟨rfl, ?_⟩
    intro h
    cases h
  | absent hk hg hf => exact .inr ⟨rfl, rfl, hf, _, hk, hg⟩
  | unconfirmed =>
    refine .inl ⟨rfl, ?_⟩
    intro h
    cases h

theorem locked_recalls (h : c.locked kid s = (t, q, fs)) :
    Recalls c R s e (.granted kid) t.missing fs := by
  unfold Client.locked at h
  cases hf : c.freshHit kid s with
  | some hit =>
    rw [hf] at h
    cases h
    exact .same
  | none =>
    rw [hf] at h
    dsimp only at h
    by_cases hm : c.mayFetch s = true
    · rw [if_pos hm] at h
      cases h
      exact .same
    · rw [if_neg hm] at h
      unfold Client.isRemembered at h
      cases hg : Ordered.get s.missing kid with
      | none =>
        rw [hg] at h
        obtain ⟨u, ending, ha, hr⟩ := answer_replies c kid s
        cases ha.symm.trans h
        obtain ⟨hu, -⟩ | ⟨hu, rfl, -⟩ := Replies.remembering hr
        · rw [hu]
          exact .same
        · rw [hu]
          exact .added hg
      | some stamp =>
        rw [hg] at h
        by_cases hl : c.negativeTtl ≤ s.clock - stamp
        · simp only [if_pos hl] at h
          obtain ⟨u, ending, ha, hr⟩ :=
            answer_replies c kid { s with missing := Ordered.erase s.missing kid }
          cases ha.symm.trans h
          obtain ⟨hu, hne⟩ | ⟨hu, rfl, -⟩ := Replies.remembering hr
          · rw [hu]
            exact .lapsed hg hl hne
          · rw [hu]
            exact .renewed hg
        · simp only [if_neg hl] at h
          cases h
          exact .same

theorem refreshed_recalls {answer : Answer} {previous : Option Seconds}
    (h : c.refreshed R kid answer s = (t, q, fs)) :
    Recalls c R s (.answered answer) (.fetching kid previous) t.missing fs := by
  unfold Client.refreshed at h
  cases hf : c.fetched R answer with
  | ok found =>
    obtain ⟨u, ending, ha, hr⟩ := answer_replies c kid (refilled found s)
    rw [refilled] at ha
    simp only [hf, ha] at h
    cases h
    obtain ⟨hu, -⟩ | ⟨hu, -⟩ := Replies.remembering hr
    · rw [hu]
      exact .forgotten List.mem_cons_self
    · rw [hu]
      exact .refreshed List.mem_cons_self
  | error exc =>
    obtain ⟨u, ending, ha, hr⟩ := answer_replies c kid s
    simp only [hf, ha] at h
    by_cases hs : (exc.isUnavailable && s.keys.isSome) = true
    · rw [if_pos hs] at h
      cases h
      obtain ⟨hu, -⟩ | ⟨hu, rfl, hfresh, hkeys⟩ := Replies.remembering hr
      · rw [hu]
        exact .same
      · rw [hu]
        exact .again ⟨⟨exc, hf, (Bool.and_eq_true_iff.mp hs).1⟩, hkeys, hfresh⟩
    · rw [if_neg hs] at h
      cases h
      exact .same

theorem act_recalls (h : c.act R i e s p = some (t, q, fs)) : Recalls c R s e p t.missing fs := by
  unfold Client.act at h
  split at h
  · unfold Client.opened at h
    split at h
    · cases h
      exact .same
    · cases h
      exact .same
  · split at h
    · cases h
      exact .same
    · cases h
  · exact locked_recalls (Option.some.inj h)
  · exact refreshed_recalls (Option.some.inj h)
  · unfold Client.abandoned at h
    split at h
    · cases h
      exact .same
    · cases h
      exact .same
    · cases h
      exact .same
    · cases h
    · cases h
  · cases h

structure Tidy (now : Seconds) (missing : Memory) : Prop where
  bounded : missing.length ≤ maxRememberedMisses
  nodup : (keys missing).Nodup
  past : ∀ d ∈ missing, d.2 ≤ now

theorem Tidy.nil (now : Seconds) : Tidy now [] where
  bounded := Nat.zero_le _
  nodup := List.nodup_nil
  past := by simp

theorem Tidy.sublist (h : Tidy now missing) (hr : rest.Sublist missing) : Tidy now rest where
  bounded := hr.length_le.trans h.bounded
  nodup := List.Sublist.nodup (hr.map Prod.fst) h.nodup
  past d hd := h.past d (hr.subset hd)

theorem Tidy.later {later : Seconds} (h : Tidy now missing) (hle : now ≤ later) :
    Tidy later missing where
  bounded := h.bounded
  nodup := h.nodup
  past d hd := (h.past d hd).trans hle

theorem erased_sublist : (Ordered.erase missing kid).Sublist missing := List.filter_sublist

def room (missing : Memory) : Memory := Ordered.evicted maxRememberedMisses missing

theorem room_sublist : (room missing).Sublist missing := (Ordered.evicted_suffix _ _).sublist

theorem length_room : (room missing).length < maxRememberedMisses :=
  Ordered.length_evicted_lt (by decide) missing

theorem room_of_lt (h : missing.length < maxRememberedMisses) : room missing = missing :=
  Ordered.evicted_of_lt h

theorem Tidy.recorded (h : Tidy now missing) (kid : Str) : Tidy now (recorded kid now missing) := by
  have hroom : Tidy now (room missing) := h.sublist room_sublist
  refine ⟨?_, Ordered.nodup_set hroom.nodup kid now, ?_⟩
  · cases hg : Ordered.get (room missing) kid with
    | some stamp =>
      have hheld : (Ordered.get (room missing) kid).isSome = true := by rw [hg]; rfl
      have hlen : (JwksMemory.recorded kid now missing).length = (room missing).length :=
        Ordered.length_set_of_get hheld now
      rw [hlen]
      exact length_room.le
    | none =>
      have hset : JwksMemory.recorded kid now missing = room missing ++ [(kid, now)] :=
        Ordered.set_of_get_eq_none hg now
      rw [hset, List.length_append]
      exact length_room
  · intro d hd
    obtain rfl | hd := Ordered.mem_of_mem_set hd
    · exact le_rfl
    · exact hroom.past d hd

theorem Recalls.tidy (h : Recalls c R s e p missing fs) (hs : Tidy s.clock s.missing) :
    Tidy s.clock missing := by
  cases h with
  | same => exact hs
  | lapsed => exact hs.sublist erased_sublist
  | renewed =>
    apply Tidy.recorded
    exact hs.sublist erased_sublist
  | added | again => exact hs.recorded _
  | forgotten => exact Tidy.nil _
  | refreshed =>
    refine ⟨Nat.succ_le_succ (Nat.zero_le _), List.nodup_singleton _, ?_⟩
    simp

theorem recorded_of_room (h : Ordered.get (room missing) kid = none) :
    recorded kid now missing = room missing ++ [(kid, now)] :=
  Ordered.set_of_get_eq_none h now

theorem room_of_new (h : Ordered.get missing kid = none) :
    Ordered.get (room missing) kid = none := by
  rw [Ordered.get_eq_none_iff] at h ⊢
  intro hm
  exact h ((room_sublist.map Prod.fst).subset hm)

theorem room_of_head (hs : Tidy now missing) (hfull : maxRememberedMisses ≤ missing.length)
    (hhead : missing.head?.map Prod.fst = some kid) :
    ∃ stamp, missing = (kid, stamp) :: room missing := by
  cases missing with
  | nil => cases hhead
  | cons d rest =>
    obtain rfl : d.1 = kid := Option.some.inj hhead
    have hrest : room (d :: rest) = rest := by
      have hle : maxRememberedMisses ≤ rest.length + 1 := hfull
      rw [room, Ordered.evicted, if_pos hle]
      exact Ordered.evicted_of_lt hs.bounded
    rw [hrest]
    exact ⟨d.2, rfl⟩

theorem room_of_headed (hs : Tidy now missing) (hfull : maxRememberedMisses ≤ missing.length)
    (hhead : missing.head?.map Prod.fst = some kid) : Ordered.get (room missing) kid = none := by
  obtain ⟨stamp, heq⟩ := room_of_head hs hfull hhead
  have hn := hs.nodup
  rw [heq] at hn
  exact Ordered.get_eq_none_iff.mpr (List.nodup_cons.mp hn).1

theorem aged_of_room (hs : Tidy now missing) (ha : Aged missing)
    (h : Ordered.get (room missing) kid = none) : Aged (recorded kid now missing) := by
  have hroom : Tidy now (room missing) := hs.sublist room_sublist
  rw [recorded_of_room h]
  exact (ha.sublist room_sublist).snoc hroom.past kid

theorem Aligned.aged (h : Aligned kid now missing) (hs : Tidy now missing) (ha : Aged missing) :
    Aged (recorded kid now missing) := by
  obtain hnew | ⟨hlt, hafter⟩ | ⟨hfull, hhead⟩ := h
  · exact aged_of_room hs ha (room_of_new hnew)
  · have hset : recorded kid now missing = Ordered.set missing kid now := by
      rw [recorded, Ordered.evicted_of_lt hlt]
    rw [hset]
    exact ha.set hs.nodup hs.past hafter
  · exact aged_of_room hs ha (room_of_headed hs hfull hhead)

/-- A kid that is still remembered and is remembered again in order costs no other its place. -/
theorem Aligned.keeps (h : Aligned kid now missing) (hs : Tidy now missing)
    (hk : kid ∈ keys missing) : keys missing ⊆ keys (recorded kid now missing) := by
  obtain hnew | ⟨hlt, -⟩ | ⟨hfull, hhead⟩ := h
  · exact (Ordered.get_eq_none_iff.mp hnew hk).elim
  · have hkeys : keys (recorded kid now missing) = keys missing := by
      rw [recorded, Ordered.evicted_of_lt hlt]
      exact Ordered.map_fst_set (Ordered.mem_map_fst.mp hk) now
    rw [hkeys]
    exact List.Subset.refl _
  · obtain ⟨stamp, heq⟩ := room_of_head hs hfull hhead
    rw [recorded_of_room (room_of_headed hs hfull hhead)]
    intro k hm
    rw [keys, heq] at hm
    rw [keys, List.map_append]
    obtain rfl | hm := List.mem_cons.mp hm
    · exact List.mem_append_right _ List.mem_cons_self
    · exact List.mem_append_left _ hm

theorem erased_new : Ordered.get (Ordered.erase missing kid) kid = none := by
  rw [Ordered.get_eq_none_iff, Ordered.erase, List.mem_map]
  rintro ⟨d, hd, rfl⟩
  simp at hd

theorem keeps_renewed (hs : Tidy now missing) (hk : kid ∈ keys missing) :
    keys missing ⊆ keys (recorded kid now (Ordered.erase missing kid)) := by
  have hlt : (Ordered.erase missing kid).length < maxRememberedMisses := by
    obtain ⟨d, hd, rfl⟩ := List.mem_map.mp hk
    refine lt_of_lt_of_le ?_ hs.bounded
    exact List.length_filter_lt_length_iff_exists.mpr ⟨d, hd, by simp⟩
  rw [recorded_of_room (room_of_new erased_new), room_of_lt hlt]
  intro k hm
  rw [keys, List.map_append]
  obtain ⟨d, hd, rfl⟩ := List.mem_map.mp hm
  by_cases hdk : d.1 = kid
  · exact List.mem_append_right _ (by simp [hdk])
  · refine List.mem_append_left _ (List.mem_map_of_mem (List.mem_filter.mpr ⟨hd, ?_⟩))
    exact decide_eq_true hdk

/-- A kid that loses its place to a new one was remembered longest ago. -/
theorem lost_oldest {d : Str × Seconds} (hs : Tidy now missing) (ha : Aged missing)
    (hnew : Ordered.get missing kid = none) (hd : d ∈ missing)
    (hlost : d.1 ∉ keys (recorded kid now missing)) : ∀ d' ∈ missing, d.2 ≤ d'.2 := by
  have hout : d ∉ room missing := by
    intro hm
    rw [recorded_of_room (room_of_new hnew), keys, List.map_append] at hlost
    exact hlost (List.mem_append_left _ (List.mem_map_of_mem hm))
  exact fun d' hd' => ha.oldest hs.bounded hd hout hd'

/-- In a section of a call a failed fetch remembers its kid only where that keeps the order. -/
def Orderly (c : Client κ) (R : Runtime) (s : Shared ι κ) (e : Event) (p : Phase) : Prop :=
  ∀ answer kid previous, e = .answered answer → p = .fetching kid previous →
    Failing c R kid s answer → Aligned kid s.clock s.missing

theorem Recalls.aged (h : Recalls c R s e p missing fs) (ho : Orderly c R s e p)
    (hs : Tidy s.clock s.missing) (ha : Aged s.missing) : Aged missing := by
  cases h with
  | same => exact ha
  | lapsed => exact ha.sublist erased_sublist
  | renewed =>
    apply aged_of_room (hs.sublist erased_sublist) (ha.sublist erased_sublist)
    exact room_of_new erased_new
  | added hnew => exact aged_of_room hs ha (room_of_new hnew)
  | again hf => exact (ho _ _ _ rfl rfl hf).aged hs ha
  | forgotten => exact List.Pairwise.nil
  | refreshed => exact List.pairwise_singleton _ _

theorem Recalls.needless (h : Recalls c R s e p missing fs) (ho : Orderly c R s e p)
    (hs : Tidy s.clock s.missing) (hf : .ended kid .absent ∈ fs)
    (hq : ∀ found, .fetchSettled (some found) ∉ fs) (hk : kid ∈ keys s.missing) :
    keys s.missing ⊆ keys missing := by
  cases h with
  | same => exact List.Subset.refl _
  | lapsed _ _ hne =>
    have hend := List.mem_singleton.mp hf
    exact (hne (Effect.ended.inj hend).2.symm).elim
  | renewed =>
    obtain ⟨rfl, -⟩ := Effect.ended.inj (List.mem_singleton.mp hf)
    exact keeps_renewed hs hk
  | added hnew =>
    obtain ⟨rfl, -⟩ := Effect.ended.inj (List.mem_singleton.mp hf)
    exact (Ordered.get_eq_none_iff.mp hnew hk).elim
  | again hfail =>
    obtain rfl : kid = _ := by simpa using hf
    exact (ho _ _ _ rfl rfl hfail).keeps hs hk
  | forgotten hfound => exact (hq _ hfound).elim
  | refreshed hfound => exact (hq _ hfound).elim

theorem Recalls.oldest {d : Str × Seconds} (h : Recalls c R s e p missing fs)
    (ho : Orderly c R s e p) (hs : Tidy s.clock s.missing) (ha : Aged s.missing)
    (hq : ∀ found, .fetchSettled (some found) ∉ fs) (hd : d ∈ s.missing)
    (hlost : d.1 ∉ keys missing) :
    (c.negativeTtl ≤ s.clock - d.2 ∧ ∃ ending, .ended d.1 ending ∈ fs) ∨
      ∀ d' ∈ s.missing, d.2 ≤ d'.2 := by
  have hkey : d.1 ∈ keys s.missing := List.mem_map_of_mem hd
  cases h with
  | same => exact (hlost hkey).elim
  | @lapsed _ kid stamp _ hg hl =>
    by_cases hdk : d.1 = kid
    · have hget : Ordered.get s.missing d.1 = some d.2 := Ordered.get_of_mem hs.nodup hd
      rw [hdk, hg] at hget
      rw [hdk, ← Option.some.inj hget]
      exact .inl ⟨hl, _, List.mem_cons_self⟩
    · exact (hlost (List.mem_map_of_mem (List.mem_filter.mpr ⟨hd, decide_eq_true hdk⟩))).elim
  | renewed hg =>
    have hk : _ ∈ keys s.missing := List.mem_map_of_mem (Ordered.mem_of_get hg)
    exact (hlost (keeps_renewed hs hk hkey)).elim
  | added hnew => exact .inr (lost_oldest hs ha hnew hd hlost)
  | @again _ kid _ hfail =>
    have hal := ho _ _ _ rfl rfl hfail
    by_cases hk : kid ∈ keys s.missing
    · exact (hlost (hal.keeps hs hk hkey)).elim
    · exact .inr (lost_oldest hs ha (Ordered.get_eq_none_iff.mpr hk) hd hlost)
  | forgotten hfound => exact (hq _ hfound).elim
  | refreshed hfound => exact (hq _ hfound).elim

variable [DecidableEq ι]

theorem machine_recalls {x : Step ι κ}
    (hx : c.machine R x.before x.event = some (x.after, x.effects)) :
    (∃ i e, x.event = .act i e ∧ x.after.shared.clock = x.before.shared.clock ∧
      Recalls c R x.before.shared e (x.before.phase i) x.after.shared.missing x.effects) ∨
    x.effects = [] ∧ x.before.shared.clock ≤ x.after.shared.clock ∧
      x.after.shared.missing = x.before.shared.missing := by
  obtain ⟨i, e, hev, ha, -⟩ | ⟨now, s, -, hd, hu, hn⟩ := Program.machine_steps hx
  · exact .inl ⟨i, e, hev, clock_of_moves (act_moves ha), act_recalls ha⟩
  · obtain ⟨hle, rfl⟩ := drift_some hd
    rw [hu]
    exact .inr ⟨hn, hle, rfl⟩

theorem tidy (h : Run (c.machine R) (Client.start clock) tr w) :
    Tidy w.shared.clock w.shared.missing := by
  refine h.preserved (P := fun w => Tidy w.shared.clock w.shared.missing) ?_ (Tidy.nil _)
  intro w ev u fs hw hu
  obtain ⟨i, e, -, hc, hr⟩ | ⟨-, hle, hm⟩ := machine_recalls (x := ⟨w, ev, fs, u⟩) hu
  · dsimp only at hc hr
    rw [hc]
    exact hr.tidy hw
  · dsimp only at hle hm
    rw [hm]
    exact hw.later hle

omit [DecidableEq ι] in
theorem Timely.orderly {x : Step ι κ} {i : ι} {e : Event} (h : Timely c R x)
    (he : x.event = .act i e) : Orderly c R x.before.shared e (x.before.phase i) := by
  rintro answer kid previous rfl hp hf
  exact h i answer kid previous he hp hf

theorem aged (h : Run (c.machine R) (Client.start clock) tr w) (hall : ∀ x ∈ tr, Timely c R x) :
    Aged w.shared.missing := by
  refine h.invariant (I := fun tr w => (∀ x ∈ tr, Timely c R x) → Aged w.shared.missing)
    (fun _ => List.Pairwise.nil) ?_ hall
  intro tr w ev u fs hr ih hu hall
  have ha : Aged w.shared.missing := ih fun x hx => hall x (List.mem_append_left _ hx)
  have hlast : Timely c R ⟨w, ev, fs, u⟩ := hall _ (by simp)
  obtain ⟨i, e, hev, -, hm⟩ | ⟨-, -, hm⟩ := machine_recalls (x := ⟨w, ev, fs, u⟩) hu
  · exact hm.aged (hlast.orderly hev) (tidy hr) ha
  · dsimp only at hm
    rw [hm]
    exact ha

/-- A client that remembers a kid again only in order keeps its memory by age, and gives up the
entry closest to expiring. -/
theorem remembers (c : Client κ) (R : Runtime) (clock : Seconds) (tr : History ι κ)
    (w : World ι (Shared ι κ) Phase) (h : Run (c.machine R) (Client.start clock) tr w)
    (hall : ∀ x ∈ tr, Timely c R x) : Remembers c tr w where
  bounded := (tidy h).bounded
  aged := aged h hall
  needless := by
    rintro a x b i kid rfl ⟨⟨e, he⟩, hf⟩ hq hk
    obtain ⟨hr, hx, -⟩ := h.at
    have hlast : Timely c R x := hall x (by simp)
    obtain ⟨j, e', hev, -, hm⟩ | ⟨-, -, hm⟩ := machine_recalls hx
    · exact hm.needless (hlast.orderly hev) (tidy hr) hf hq hk
    · rw [hm]
      exact List.Subset.refl _
  oldest := by
    rintro a x b rfl hq d hd hlost
    obtain ⟨hr, hx, -⟩ := h.at
    have hlast : Timely c R x := hall x (by simp)
    have ha : Aged x.before.shared.missing :=
      aged hr fun y hy => hall y (List.mem_append_left _ hy)
    obtain ⟨j, e, hev, -, hm⟩ | ⟨-, -, hm⟩ := machine_recalls hx
    · obtain ⟨hl, ending, hend⟩ | hold :=
        hm.oldest (hlast.orderly hev) (tidy hr) ha hq hd hlost
      · exact .inl ⟨hl, j, ending, ⟨e, hev⟩, hend⟩
      · exact .inr hold
    · rw [hm] at hlost
      exact (hlost (List.mem_map_of_mem hd)).elim

section Sample

def quietCall (i : Nat) (kid : String) : List (Happening Nat Event Seconds) :=
  [.start (ofString kid), .lockAcquired, .lockResumed].map (.act i)

/-- A key set without `k2` is fetched, and half a minute later a fetch for `k2` fails. -/
def rememberedAgain (between : List (Happening Nat Event Seconds)) :
    List (Happening Nat Event Seconds) :=
  fetchingCall 0 "k2" jwksAnswer ++ .drift 1 :: between ++
    .drift 30 :: fetchingCall 2 "k2" (.raised (.other "ConnectError"))

/-- Every failed fetch of a trace finds its kid where remembering it again keeps the order. -/
def alignedThroughout (tr : History Nat Unit) : Bool :=
  tr.all fun x =>
    match x.event with
    | .act i (.answered _) =>
      match x.before.phase i with
      | .fetching kid _ => decide (Aligned kid x.before.shared.clock x.before.shared.missing)
      | _ => true
    | _ => true

theorem timely_of_aligned {tr : History Nat Unit} (h : alignedThroughout tr = true) :
    ∀ x ∈ tr, Timely sampleClient jwksRuntime x := by
  intro x hx i answer kid previous he hp _
  have hal := List.all_eq_true.mp h x hx
  simp only [he, hp] at hal
  exact of_decide_eq_true hal

end Sample

theorem remembers_sample : ∃ (tr : History Nat Unit) (w : World Nat (Shared Nat Unit) Phase),
    Run (sampleClient.machine jwksRuntime) (Client.start 0) tr w ∧ (fetchStarts tr == 2) = true ∧
      Remembers sampleClient tr w := by
  have h : ((replay (sampleClient.machine jwksRuntime) (Client.start 0) (rememberedAgain [])).any
      fun r => fetchStarts r.1 == 2 && alignedThroughout r.1) = true := by decide +kernel
  obtain ⟨tr, w, hr, hp⟩ := Run.of_replay_any
    (P := fun tr => fetchStarts tr == 2 && alignedThroughout tr) h
  obtain ⟨hsent, hal⟩ := Bool.and_eq_true_iff.mp hp
  exact ⟨tr, w, hr, hsent, remembers _ _ _ _ _ hr (timely_of_aligned hal)⟩

/-- With `k3` found absent in between, `k2` is stamped anew and keeps its place before it. -/
theorem memory_out_of_order :
    ¬ ∀ (c : Client Unit) (R : Runtime) (clock : Seconds) (tr : History Nat Unit)
      (w : World Nat (Shared Nat Unit) Phase), Run (c.machine R) (Client.start clock) tr w →
        Remembers c tr w := by
  intro hall
  have h : ((replay (sampleClient.machine jwksRuntime) (Client.start 0)
      (rememberedAgain (quietCall 1 "k3"))).any
        fun r => r.2.shared.missing == [(ofString "k2", 30), (ofString "k3", 1)]) = true := by
    decide +kernel
  obtain ⟨tr, w, hr, hm⟩ := Run.of_replay_end
    (P := fun w : World Nat (Shared Nat Unit) Phase =>
      w.shared.missing == [(ofString "k2", 30), (ofString "k3", 1)]) h
  have haged := (hall _ _ _ _ _ hr).aged
  rw [eq_of_beq hm] at haged
  have hle : (30 : Seconds) ≤ 1 := List.rel_of_pairwise_cons haged List.mem_cons_self
  exact absurd hle (by decide +kernel)

end BetterAuthBridge.JwksMemory
