import BetterAuthBridge.Library.Recency
import BetterAuthBridge.Library.Runs
import BetterAuthBridge.RemoteGates
import Mathlib.Data.Finset.Dedup
import Mathlib.Data.Finset.Card

namespace BetterAuthBridge.CacheRetention

open Library Library.Runs Library.Recency Values RemoteGates

/-- A `NegativeCache`; whoever builds one has checked that it may hold at least one entry. -/
structure NegativeCache where
  ttl : Seconds
  maxRemembered : Nat
  bounded : 1 ≤ maxRemembered

inductive Call
  | remember (material : Text)
  | holds (material : Text)
  | advance (now : Seconds)

structure State where
  clock : Seconds
  entries : Entries

def State.initial (clock : Seconds) : State := ⟨clock, []⟩

def NegativeCache.machine (R : Runtime) (cache : NegativeCache) : Machine State Call Bool
  | s, .remember material =>
    let entries := RemoteGates.remember R cache.ttl cache.maxRemembered s.clock material s.entries
    some (⟨s.clock, entries⟩, [])
  | s, .holds material =>
    let answer := RemoteGates.holds R cache.ttl s.clock material s.entries
    some (⟨s.clock, answer.2⟩, [answer.1])
  | s, .advance now => if s.clock ≤ now then some (⟨now, s.entries⟩, []) else none

abbrev Step := Transition State Call Bool

def Call.remembered : Call → Option Text
  | .remember material => some material
  | _ => none

theorem Call.remembered_eq_some {c : Call} {material : Text} :
    c.remembered = some material ↔ c = .remember material := by
  cases c <;> simp [Call.remembered]

def remembered (tr : List Step) : List Text := tr.filterMap fun x => x.event.remembered

def keys (R : Runtime) (tr : List Step) : List Digest := (remembered tr).map (key R)

/-- A value that is still held is remembered again only while nothing was remembered since. -/
def Timely (R : Runtime) (x : Step) : Prop :=
  ∀ material, x.event = .remember material → Newest x.before.entries (key R material)

instance (R : Runtime) (x : Step) : Decidable (Timely R x) :=
  decidable_of_iff (∀ material ∈ x.event.remembered, Newest x.before.entries (key R material)) <|
    forall_congr' fun _ => imp_congr_left Call.remembered_eq_some

/-- What the bound on a cache may and may not cost. -/
structure Retains (R : Runtime) (cache : NegativeCache) (tr : List Step) (s : State) : Prop where
  bounded : s.entries.length ≤ cache.maxRemembered
  oldest : ∀ a x b material, tr = a ++ x :: b → x.event = .remember material →
    ∀ d ∈ x.before.entries, d.1 ∉ x.after.entries.map Prod.fst →
    ∀ e ∈ x.before.entries, e = d ∨ PutInSince (keys R a) d.1 e.1
  retained : ∀ a y b material, tr = a ++ y :: b → y.event = .remember material →
    material ∉ remembered b → s.clock - y.before.clock < cache.ttl →
    (RemoteGates.holds R cache.ttl s.clock material s.entries).1 = true ∨
      ∃ others : Finset Text, cache.maxRemembered ≤ others.card ∧
        ∀ other ∈ others, other ≠ material ∧ other ∈ remembered b

variable {R : Runtime} {cache : NegativeCache} {tr : List Step} {s t : State} {clock : Seconds}
  {c : Call} {fs : List Bool}

theorem remembered_append (a b : List Step) : remembered (a ++ b) = remembered a ++ remembered b :=
  List.filterMap_append

theorem keys_append (a b : List Step) : keys R (a ++ b) = keys R a ++ keys R b := by
  rw [keys, remembered_append, List.map_append, keys, keys]

theorem machine_cases (h : cache.machine R s c = some (t, fs)) :
    (∃ material, c = .remember material ∧ t.clock = s.clock ∧ t.entries =
      RemoteGates.remember R cache.ttl cache.maxRemembered s.clock material s.entries) ∨
    (∃ material, c = .holds material ∧ t.clock = s.clock ∧
      t.entries = (RemoteGates.holds R cache.ttl s.clock material s.entries).2) ∨
    ∃ now, c = .advance now ∧ s.clock ≤ t.clock ∧ t.entries = s.entries := by
  cases c with
  | remember material =>
    cases h
    exact .inl ⟨material, rfl, rfl, rfl⟩
  | holds material =>
    cases h
    exact .inr (.inl ⟨material, rfl, rfl, rfl⟩)
  | advance now =>
    simp only [NegativeCache.machine] at h
    split at h
    · rename_i hle
      cases h
      exact .inr (.inr ⟨now, rfl, hle, rfl⟩)
    · cases h

def room (R : Runtime) (cache : NegativeCache) (material : Text) (entries : Entries) : Entries :=
  if (Ordered.get entries (key R material)).isSome then entries
  else Ordered.evicted cache.maxRemembered entries

variable {material : Text} {entries : Entries} {now stamp : Seconds}

theorem remember_eq (ht : 0 < cache.ttl) :
    RemoteGates.remember R cache.ttl cache.maxRemembered now material entries =
      Ordered.set (room R cache material entries) (key R material) now := by
  rw [RemoteGates.remember, if_neg (not_le.mpr ht)]
  rfl

theorem room_of_held (h : (Ordered.get entries (key R material)).isSome = true) :
    room R cache material entries = entries := if_pos h

theorem room_of_new (h : Ordered.get entries (key R material) = none) :
    room R cache material entries = Ordered.evicted cache.maxRemembered entries := by
  rw [room, h]
  rfl

theorem room_sublist : (room R cache material entries).Sublist entries := by
  unfold room
  split
  · exact List.Sublist.refl _
  · exact (Ordered.evicted_suffix _ _).sublist

theorem get_room : Ordered.get (room R cache material entries) (key R material) =
    Ordered.get entries (key R material) := by
  cases hg : Ordered.get entries (key R material) with
  | some stamp => rw [room_of_held (by rw [hg]; rfl), hg]
  | none =>
    rw [Ordered.get_eq_none_iff] at hg ⊢
    intro hm
    exact hg ((room_sublist.map Prod.fst).subset hm)

theorem newest_room (h : Newest entries (key R material)) :
    Newest (room R cache material entries) (key R material) := by
  obtain hn | hl := h
  · exact .inl (get_room.trans hn)
  · obtain ⟨u, a, rfl⟩ := hl
    rw [room_of_held]
    · exact .inr ⟨u, a, rfl⟩
    · rw [← Ordered.mem_map_fst]
      simp

theorem length_remember (ht : 0 < cache.ttl) (h : entries.length ≤ cache.maxRemembered) :
    (RemoteGates.remember R cache.ttl cache.maxRemembered now material entries).length ≤
      cache.maxRemembered := by
  rw [remember_eq ht]
  cases hg : Ordered.get entries (key R material) with
  | some stamp =>
    have hs : (Ordered.get entries (key R material)).isSome = true := by rw [hg]; rfl
    rw [room_of_held hs, Ordered.length_set_of_get hs]
    exact h
  | none =>
    rw [Ordered.set_of_get_eq_none (get_room.trans hg), List.length_append, room_of_new hg]
    exact Ordered.length_evicted_lt cache.bounded entries

theorem holds_entries (R : Runtime) (ttl now : Seconds) (material : Text) (entries : Entries) :
    (RemoteGates.holds R ttl now material entries).2 = entries ∨
      ∃ stamp, Ordered.get entries (key R material) = some stamp ∧ ttl ≤ now - stamp ∧
        (RemoteGates.holds R ttl now material entries).2 =
          Ordered.erase entries (key R material) := by
  unfold RemoteGates.holds
  split
  · exact .inl rfl
  · cases hg : Ordered.get entries (key R material) with
    | none => exact .inl rfl
    | some stamp =>
      by_cases hl : ttl ≤ now - stamp
      · exact .inr ⟨stamp, rfl, hl, by simp [hl]⟩
      · exact .inl (by simp [hl])

theorem holds_sublist (R : Runtime) (ttl now : Seconds) (material : Text) (entries : Entries) :
    (RemoteGates.holds R ttl now material entries).2.Sublist entries := by
  obtain h | ⟨-, -, -, h⟩ := holds_entries R ttl now material entries
  · rw [h]
  · rw [h]
    exact List.filter_sublist

theorem holds_of_get (ht : 0 < cache.ttl)
    (hg : Ordered.get entries (key R material) = some stamp) (hl : now - stamp < cache.ttl) :
    (RemoteGates.holds R cache.ttl now material entries).1 = true := by
  simp only [RemoteGates.holds, hg]
  rw [if_neg (not_le.mpr ht), if_neg (not_le.mpr hl)]

theorem remember_inOrder {ks : List Digest} (ht : 0 < cache.ttl) (h : InOrder ks entries)
    (hn : Newest entries (key R material)) :
    InOrder (ks ++ [key R material])
      (RemoteGates.remember R cache.ttl cache.maxRemembered now material entries) := by
  have hr : InOrder ks (room R cache material entries) := h.sublist room_sublist
  rw [remember_eq ht, set_eq_refresh hr.nodup (newest_room hn)]
  exact hr.refresh _ _

/-- What `remember` gives up is the first entry of a full table. -/
theorem gone_first {d : Digest × Seconds} (ht : 0 < cache.ttl)
    (hlen : entries.length ≤ cache.maxRemembered) (hd : d ∈ entries) (hn : d.1 ∉
      (RemoteGates.remember R cache.ttl cache.maxRemembered now material entries).map Prod.fst) :
    Ordered.get entries (key R material) = none ∧ entries.length = cache.maxRemembered ∧
      entries = d :: Ordered.evicted cache.maxRemembered entries := by
  rw [remember_eq ht] at hn
  cases hg : Ordered.get entries (key R material) with
  | some stamp =>
    have hs : (Ordered.get entries (key R material)).isSome = true := by rw [hg]; rfl
    rw [room_of_held hs, Ordered.map_fst_set hs] at hn
    exact (hn (List.mem_map_of_mem hd)).elim
  | none =>
    rw [Ordered.set_of_get_eq_none (get_room.trans hg), room_of_new hg] at hn
    have hout : d ∉ Ordered.evicted cache.maxRemembered entries := by
      intro hm
      exact hn (List.mem_map_of_mem (List.mem_append_left _ hm))
    exact ⟨rfl, Ordered.evicted_first hlen hd hout⟩

theorem clock_le (h : Run (cache.machine R) s tr t) : s.clock ≤ t.clock := by
  refine h.preserved (P := fun t => s.clock ≤ t.clock) ?_ le_rfl
  intro t c u fs ht hu
  obtain ⟨-, -, hc, -⟩ | ⟨-, -, hc, -⟩ | ⟨-, -, hc, -⟩ := machine_cases hu
  · exact ht.trans_eq hc.symm
  · exact ht.trans_eq hc.symm
  · exact ht.trans hc

theorem length_le (h : Run (cache.machine R) (.initial clock) tr s) (ht : 0 < cache.ttl) :
    s.entries.length ≤ cache.maxRemembered := by
  refine h.preserved (P := fun s => s.entries.length ≤ cache.maxRemembered) ?_ (Nat.zero_le _)
  intro s c t fs hs hu
  obtain ⟨material, -, -, he⟩ | ⟨material, -, -, he⟩ | ⟨-, -, -, he⟩ := machine_cases hu
  · rw [he]
    exact length_remember ht hs
  · rw [he]
    exact (holds_sublist R cache.ttl s.clock material s.entries).length_le.trans hs
  · rw [he]
    exact hs

theorem keys_snoc_remember (material : Text) :
    keys R (tr ++ [⟨s, .remember material, fs, t⟩]) = keys R tr ++ [key R material] :=
  keys_append tr _

theorem keys_snoc_of_none (hc : c.remembered = none) :
    keys R (tr ++ [⟨s, c, fs, t⟩]) = keys R tr := by
  rw [keys_append]
  simp [keys, remembered, hc]

theorem inOrder (h : Run (cache.machine R) (.initial clock) tr s) (ht : 0 < cache.ttl)
    (hall : ∀ x ∈ tr, Timely R x) : InOrder (keys R tr) s.entries := by
  refine h.invariant (I := fun tr s => (∀ x ∈ tr, Timely R x) → InOrder (keys R tr) s.entries)
    (fun _ => InOrder.nil _) ?_ hall
  intro tr s c t fs _ ih hu hall
  have hs : InOrder (keys R tr) s.entries := ih fun x hx => hall x (List.mem_append_left _ hx)
  have hlast : Timely R ⟨s, c, fs, t⟩ := hall _ (by simp)
  obtain ⟨material, rfl, -, he⟩ | ⟨material, rfl, -, he⟩ | ⟨now, rfl, -, he⟩ := machine_cases hu
  · rw [keys_snoc_remember, he]
    exact remember_inOrder ht hs (hlast material rfl)
  · rw [keys_snoc_of_none rfl, he]
    exact hs.sublist (holds_sublist R cache.ttl s.clock material s.entries)
  · rw [keys_snoc_of_none rfl, he]
    exact hs

/-- Of a key remembered at `stamp` before `later`: still in its place, lapsed, or pushed out. -/
def Accounted (R : Runtime) (cache : NegativeCache) (k : Digest) (stamp : Seconds)
    (later : List Step) (s : State) : Prop :=
  (k, stamp) ∈ s.entries ∨ cache.ttl ≤ s.clock - stamp ∨
    cache.maxRemembered ≤ (keys R later).toFinset.card

theorem pushed_out (now : Seconds) {ks later : List Digest} {k : Digest} (ht : 0 < cache.ttl)
    (hlen : entries.length ≤ cache.maxRemembered) (ho : InOrder (ks ++ k :: later) entries)
    (hk : k ∉ later) (hm : (k, stamp) ∈ entries) (hne : key R material ≠ k) :
    (k, stamp) ∈ RemoteGates.remember R cache.ttl cache.maxRemembered now material entries ∨
      cache.maxRemembered ≤ (later ++ [key R material]).toFinset.card := by
  by_cases hroom : (k, stamp) ∈ room R cache material entries
  · refine .inl ?_
    rw [remember_eq ht]
    exact Ordered.mem_set_of_ne hroom (Ne.symm hne) now
  refine .inr ?_
  cases hg : Ordered.get entries (key R material) with
  | some b =>
    rw [room_of_held (by rw [hg]; rfl)] at hroom
    exact (hroom hm).elim
  | none =>
    rw [room_of_new hg] at hroom
    obtain ⟨hfull, heq⟩ := Ordered.evicted_first hlen hm hroom
    -- What stood after the first entry was put in since, and the new key makes up for it.
    have hlater : InOrder later (Ordered.evicted cache.maxRemembered entries) := by
      rw [heq] at ho
      exact ho.after hk
    have hnone : Ordered.get (Ordered.evicted cache.maxRemembered entries) (key R material) =
        none := by
      rw [← room_of_new hg, get_room, hg]
    have hcount := length_le_of_inOrder (hlater.refresh (key R material) now)
    rw [refresh, erase_of_get_eq_none hnone, List.length_append] at hcount
    have htotal : (Ordered.evicted cache.maxRemembered entries).length + 1 =
        cache.maxRemembered := (congrArg List.length heq).symm.trans hfull
    rw [List.card_toFinset]
    exact htotal.symm.le.trans hcount

theorem accounted_step {ks : List Digest} {later : List Step} {k : Digest} (ht : 0 < cache.ttl)
    (hlen : s.entries.length ≤ cache.maxRemembered)
    (ho : InOrder (ks ++ k :: keys R later) s.entries)
    (hu : cache.machine R s c = some (t, fs)) (hk : k ∉ keys R (later ++ [⟨s, c, fs, t⟩]))
    (ha : Accounted R cache k stamp later s) :
    Accounted R cache k stamp (later ++ [⟨s, c, fs, t⟩]) t := by
  have hclock : s.clock ≤ t.clock := clock_le (Run.single hu)
  have hgrow : keys R later ⊆ keys R (later ++ [⟨s, c, fs, t⟩]) := by
    rw [keys_append]
    exact List.subset_append_left _ _
  obtain hin | hlapsed | hmany := ha
  · obtain ⟨material, rfl, -, he⟩ | ⟨material, rfl, hc, he⟩ | ⟨now, rfl, -, he⟩ :=
      machine_cases hu
    · rw [keys_snoc_remember, List.mem_append, not_or, List.mem_singleton] at hk
      obtain hstill | hmany := pushed_out s.clock ht hlen ho hk.1 hin (Ne.symm hk.2)
      · exact .inl (he ▸ hstill)
      · rw [Accounted, keys_snoc_remember]
        exact .inr (.inr hmany)
    · obtain hsame | ⟨b, hg, hl, herased⟩ :=
        holds_entries R cache.ttl s.clock material s.entries
      · rw [Accounted, he, hsame]
        exact .inl hin
      · by_cases hkey : k = key R material
        · have hget : Ordered.get s.entries k = some stamp := Ordered.get_of_mem ho.nodup hin
          rw [hkey, hg] at hget
          rw [Accounted, hc, ← Option.some.inj hget]
          exact .inr (.inl hl)
        · rw [Accounted, he, herased]
          exact .inl (List.mem_filter.mpr ⟨hin, decide_eq_true hkey⟩)
    · exact .inl (he ▸ hin)
  · exact .inr (.inl (hlapsed.trans (sub_le_sub_right hclock _)))
  · refine .inr (.inr (hmany.trans (Finset.card_le_card ?_)))
    intro k' hk'
    exact List.mem_toFinset.mpr (hgrow (List.mem_toFinset.mp hk'))

/-- Along a run of timely steps every key is accounted for after it was last remembered. -/
theorem accounted {a b : List Step} {y : Step} (ht : 0 < cache.ttl)
    (h : Run (cache.machine R) (.initial clock) (a ++ y :: b) s)
    (hall : ∀ x ∈ a ++ y :: b, Timely R x) (hy : y.event = .remember material)
    (hk : key R material ∉ keys R b) :
    Accounted R cache (key R material) y.before.clock b s := by
  obtain ⟨ha, hstep, hb⟩ := h.at
  have hstart : Run (cache.machine R) (.initial clock) (a ++ [y]) y.after := ha.snoc hstep
  have hkeys : ∀ later : List Step,
      keys R (a ++ [y] ++ later) = keys R a ++ key R material :: keys R later := by
    intro later
    rw [keys_append, keys_append, List.append_assoc]
    congr 1
    simp [keys, remembered, hy, Call.remembered]
  refine hb.invariant (I := fun later s => (∀ x ∈ a ++ [y] ++ later, Timely R x) →
    key R material ∉ keys R later → Accounted R cache (key R material) y.before.clock later s)
    ?_ ?_ (by simpa using hall) hk
  · intro _ _
    obtain ⟨m, hm, -, he⟩ | ⟨m, hm, -⟩ | ⟨now, hm, -⟩ := machine_cases hstep
    · obtain rfl : material = m := Call.remember.inj (hy.symm.trans hm)
      rw [Accounted, he, remember_eq ht]
      exact .inl (Ordered.mem_set_self _ _ _)
    · cases hy.symm.trans hm
    · cases hy.symm.trans hm
  · intro later s c t fs hr ih hu hall hk
    have hbefore : ∀ x ∈ a ++ [y] ++ later, Timely R x := by
      intro x hx
      exact hall x (List.append_assoc _ later _ ▸ List.mem_append_left _ hx)
    have hrun := hstart.append hr
    have ho := inOrder hrun ht hbefore
    rw [hkeys] at ho
    refine accounted_step ht (length_le hrun ht) ho hu hk (ih hbefore fun hm => hk ?_)
    rw [keys_append]
    exact List.mem_append_left _ hm

theorem last_of_key {y : Step} {b : List Step} (hy : y.event = .remember material) :
    ∃ b₁ z b₂ m, y :: b = b₁ ++ z :: b₂ ∧ z.event = .remember m ∧ key R m = key R material ∧
      key R material ∉ keys R b₂ := by
  obtain ⟨b₁, z, b₂, hb, ⟨m, hz, hm⟩, hlast⟩ := exists_last
    (p := fun z : Step => ∃ m, z.event = .remember m ∧ key R m = key R material)
    ⟨y, List.mem_cons_self (l := b), material, hy, rfl⟩
  refine ⟨b₁, z, b₂, m, hb, hz, hm, fun hk => ?_⟩
  obtain ⟨m', hm', hkey⟩ := List.mem_map.mp hk
  obtain ⟨x, hx, hxm⟩ := List.mem_filterMap.mp hm'
  exact hlast x hx ⟨m', Call.remembered_eq_some.mp hxm, hkey⟩

theorem card_keys_le (b : List Step) : (keys R b).toFinset.card ≤ (remembered b).toFinset.card := by
  have h : (keys R b).toFinset = (remembered b).toFinset.image (key R) := by
    ext k
    simp [keys]
  rw [h]
  exact Finset.card_image_le

/-- A cache that remembers a held value again only while it is the newest gives up the oldest
verdict first, and a fresh one only to as many distinct others as it may hold. -/
theorem retains (R : Runtime) (cache : NegativeCache) (clock : Seconds) (tr : List Step) (s : State)
    (ht : 0 < cache.ttl) (h : Run (cache.machine R) (.initial clock) tr s)
    (hall : ∀ x ∈ tr, Timely R x) : Retains R cache tr s where
  bounded := length_le h ht
  oldest := by
    rintro a x b material rfl hx d hd hgone e he
    obtain ⟨ha, hstep, -⟩ := h.at
    have hbefore : ∀ x ∈ a, Timely R x := fun x hx => hall x (List.mem_append_left _ hx)
    have ho := inOrder ha ht hbefore
    obtain ⟨m, hm, -, hentries⟩ | ⟨m, hm, -⟩ | ⟨now, hm, -⟩ := machine_cases hstep
    · rw [hentries] at hgone
      obtain ⟨-, -, heq⟩ := gone_first ht (length_le ha ht) hd hgone
      rw [heq] at he ho
      obtain rfl | he := List.mem_cons.mp he
      · exact .inl rfl
      · exact .inr (ho.putInSince he)
    · cases hx.symm.trans hm
    · cases hx.symm.trans hm
  retained := by
    rintro a y b material rfl hy hnot hfresh
    obtain ⟨b₁, z, b₂, m, hb, hz, hm, hk⟩ := last_of_key (R := R) (b := b) hy
    have hsub : remembered b₂ ⊆ remembered b := by
      cases b₁ with
      | nil =>
        obtain ⟨-, rfl⟩ := List.cons.inj hb
        exact List.Subset.refl _
      | cons x b₁ =>
        have htail : b = b₁ ++ [z] ++ b₂ := by
          rw [← List.append_cons]
          exact (List.cons.inj hb).2
        rw [htail, remembered_append]
        exact List.subset_append_right _ _
    obtain ⟨-, hstep, hrest⟩ := h.at
    have hlater : y.before.clock ≤ z.before.clock := by
      have hr : Run (cache.machine R) y.before (y :: b) s := (Run.single hstep).append hrest
      rw [hb] at hr
      exact clock_le hr.at.1
    have hsince : s.clock - z.before.clock ≤ s.clock - y.before.clock :=
      sub_le_sub_left hlater s.clock
    have hassoc : a ++ y :: b = (a ++ b₁) ++ z :: b₂ := by rw [hb, List.append_assoc]
    rw [hassoc] at h hall
    rw [← hm] at hk
    obtain hin | hlapsed | hmany := accounted ht h hall hz hk
    · have ho := inOrder h ht hall
      have hg : Ordered.get s.entries (key R m) = some z.before.clock :=
        Ordered.get_of_mem ho.nodup hin
      rw [hm] at hg
      exact .inl (holds_of_get ht hg (hsince.trans_lt hfresh))
    · exact (not_le.mpr hfresh (hlapsed.trans hsince)).elim
    · refine .inr ⟨(remembered b₂).toFinset, hmany.trans (card_keys_le b₂), fun other ho => ?_⟩
      have hin : other ∈ remembered b := hsub (List.mem_toFinset.mp ho)
      refine ⟨?_, hin⟩
      rintro rfl
      exact hnot hin

section Sample

def letterDigest : List Char → Digest
  | ['a'] => ⟨[202, 151, 129, 18, 202, 27, 189, 202, 250, 194, 49, 179, 154, 35, 220, 77, 167, 134,
      239, 248, 20, 124, 78, 114, 185, 128, 119, 133, 175, 238, 72, 187], rfl⟩
  | ['b'] => ⟨[62, 35, 232, 22, 0, 57, 89, 74, 51, 137, 79, 101, 100, 225, 177, 52, 139, 189, 122, 0,
      136, 212, 44, 74, 203, 115, 238, 174, 213, 156, 0, 157], rfl⟩
  | ['c'] => ⟨[46, 125, 44, 3, 169, 80, 122, 226, 101, 236, 245, 181, 53, 104, 133, 165, 51, 147,
      162, 2, 157, 36, 19, 148, 153, 114, 101, 161, 162, 90, 239, 198], rfl⟩
  | _ => default

def letterRuntime : Runtime where
  hmacSha256 _ _ := default
  sha256 message := letterDigest (message.map fun b => Char.ofNat b.toNat)
  loads _ := none
  fromisoformat _ := none
  repr t := "'" ++ String.ofList t ++ "'"

def smallCache : NegativeCache := ⟨30, 2, by decide⟩

/-- Two requests carry `a`; the later one is answered after `b` was refused, and then comes `c`. -/
def overtaken : List Call :=
  [.remember ['a'], .remember ['b'], .advance 10, .remember ['a'], .remember ['c']]

def overtakenTrace : List Step :=
  let s (clock : Seconds) (entries : List (Char × Seconds)) : State :=
    ⟨clock, entries.map fun e => (letterDigest [e.1], e.2)⟩
  [⟨s 0 [], .remember ['a'], [], s 0 [('a', 0)]⟩,
    ⟨s 0 [('a', 0)], .remember ['b'], [], s 0 [('a', 0), ('b', 0)]⟩,
    ⟨s 0 [('a', 0), ('b', 0)], .advance 10, [], s 10 [('a', 0), ('b', 0)]⟩,
    ⟨s 10 [('a', 0), ('b', 0)], .remember ['a'], [], s 10 [('a', 10), ('b', 0)]⟩,
    ⟨s 10 [('a', 10), ('b', 0)], .remember ['c'], [], s 10 [('b', 0), ('c', 10)]⟩]

def overtakenState : State := ⟨10, [(letterDigest ['b'], 0), (letterDigest ['c'], 10)]⟩

theorem overtaken_run :
    Run (smallCache.machine letterRuntime) (.initial 0) overtakenTrace overtakenState := by
  have h : replay (smallCache.machine letterRuntime) (.initial 0) overtaken =
      some (overtakenTrace, overtakenState) := rfl
  exact Run.of_replay h

end Sample

theorem retains_sample : ∃ (tr : List Step) (s : State),
    Run (smallCache.machine letterRuntime) (.initial 0) tr s ∧ keys letterRuntime tr ≠ [] ∧
      Retains letterRuntime smallCache tr s := by
  have h : ((replay (smallCache.machine letterRuntime) (.initial 0)
      [.remember ['a'], .remember ['b'], .remember ['b'], .remember ['c'], .holds ['b']]).any
        fun r => decide (keys letterRuntime r.1 ≠ [] ∧ ∀ x ∈ r.1, Timely letterRuntime x)) =
          true := by
    decide +kernel
  obtain ⟨tr, s, hr, hp⟩ := Run.of_replay_any
    (P := fun tr => decide (keys letterRuntime tr ≠ [] ∧ ∀ x ∈ tr, Timely letterRuntime x)) h
  obtain ⟨hne, hall⟩ := of_decide_eq_true hp
  exact ⟨tr, s, hr, hne, retains _ _ _ _ _ (by decide +kernel) hr hall⟩

/-- `c` drives out the verdict on `a`, which is fresh, and one other value was remembered since. -/
theorem fresh_verdict_lost :
    ¬ ∀ (R : Runtime) (cache : NegativeCache) (clock : Seconds) (tr : List Step) (s : State),
      0 < cache.ttl → Run (cache.machine R) (.initial clock) tr s → Retains R cache tr s := by
  intro hall
  have h := hall letterRuntime smallCache 0 overtakenTrace overtakenState (by decide +kernel)
    overtaken_run
  have hfresh : overtakenState.clock - 10 < smallCache.ttl := by decide +kernel
  obtain hheld | ⟨others, hcard, hsince⟩ := h.retained (overtakenTrace.take 3) _
    (overtakenTrace.drop 4) ['a'] rfl rfl (by decide) hfresh
  · have hlost : (RemoteGates.holds letterRuntime smallCache.ttl overtakenState.clock ['a']
        overtakenState.entries).1 = false := by decide +kernel
    rw [hlost] at hheld
    cases hheld
  · have hsub : others ⊆ {['c']} := by
      intro other ho
      have hlast : remembered (overtakenTrace.drop 4) = [['c']] := rfl
      simpa [hlast] using (hsince other ho).2
    exact absurd (hcard.trans (Finset.card_le_card hsub)) (by decide)

end BetterAuthBridge.CacheRetention
