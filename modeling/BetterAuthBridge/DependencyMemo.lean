import BetterAuthBridge.Library.Tasks

namespace BetterAuthBridge.DependencyMemo

open Library.Runs Library.Tasks

variable {ι μ : Type}

/-- Which of the two factories was asked: `current_session` or `optional_session`. -/
inductive Kind
  | required
  | optional
  deriving DecidableEq

inductive Callable (μ : Type)
  | resolver (userModel : μ)
  | dependency (kind : Kind) (userModel : μ) (resolver : Nat)

/-- What the threads that build dependencies share: the three memos, and the callables made so
far, each by its identity. -/
structure Bridge (μ : Type) where
  resolvers : μ → Option Nat
  dependencies : Kind → μ → Option Nat
  made : List (Callable μ)

inductive Phase (μ : Type)
  | idle
  | asked (kind : Kind) (userModel : μ)
  | resolving (kind : Kind) (userModel : μ)
  | unresolved (kind : Kind) (userModel : μ)
  | offering (kind : Kind) (userModel : μ) (resolver : Nat)
  | resolved (kind : Kind) (userModel : μ) (resolver : Nat)
  | wrapped (kind : Kind) (userModel : μ) (dependency : Nat)
  | answered (kind : Kind) (userModel : μ) (dependency : Nat)
  | done

inductive Event (μ : Type)
  | ask (kind : Kind) (userModel : μ)
  | next

inductive Effect (μ : Type)
  | returned (kind : Kind) (userModel : μ) (dependency : Nat)

abbrev Turn (μ : Type) := Bridge μ × Phase μ × List (Effect μ)

variable [DecidableEq μ]

/-- `memo.setdefault(key, value)`: the memo, and what it holds for the key now. -/
def setdefault {κ : Type} [DecidableEq κ] (memo : κ → Option Nat) (key : κ) (value : Nat) :
    (κ → Option Nat) × Nat :=
  match memo key with
  | some held => (memo, held)
  | none => (Function.update memo key (some value), value)

namespace Bridge

def new : Bridge μ := ⟨fun _ => none, fun _ _ => none, []⟩

def make (s : Bridge μ) (callable : Callable μ) : Bridge μ × Nat :=
  ({ s with made := s.made ++ [callable] }, s.made.length)

/-- A factory, from one access to what the threads share to the next. -/
def act (event : Event μ) (s : Bridge μ) (phase : Phase μ) : Option (Turn μ) :=
  match event, phase with
  | .ask kind userModel, .idle => some (s, .asked kind userModel, [])
  | .next, .asked kind userModel =>
    match s.dependencies kind userModel with
    | some cached => some (s, .answered kind userModel cached, [])
    | none => some (s, .resolving kind userModel, [])
  | .next, .resolving kind userModel =>
    match s.resolvers userModel with
    | some cached => some (s, .resolved kind userModel cached, [])
    | none => some (s, .unresolved kind userModel, [])
  | .next, .unresolved kind userModel =>
    let (s, resolver) := s.make (.resolver userModel)
    some (s, .offering kind userModel resolver, [])
  | .next, .offering kind userModel resolver =>
    let (resolvers, held) := setdefault s.resolvers userModel resolver
    some ({ s with resolvers }, .resolved kind userModel held, [])
  | .next, .resolved kind userModel resolver =>
    let (s, dependency) := s.make (.dependency kind userModel resolver)
    some (s, .wrapped kind userModel dependency, [])
  | .next, .wrapped kind userModel dependency =>
    let (memo, held) := setdefault (s.dependencies kind) userModel dependency
    some ({ s with dependencies := Function.update s.dependencies kind memo },
      .answered kind userModel held, [])
  | .next, .answered kind userModel dependency =>
    some (s, .done, [.returned kind userModel dependency])
  | _, _ => none

end Bridge

def program : Program ι (Bridge μ) (Phase μ) (Event μ) Empty (Effect μ) where
  act _ := Bridge.act
  drift := nofun

def start : World ι (Bridge μ) (Phase μ) := ⟨.new, fun _ => .idle⟩

abbrev History (ι μ : Type) := Trace ι (Bridge μ) (Phase μ) (Event μ) Empty (Effect μ)

def Bridge.kept (s : Bridge μ) (kind : Kind) (userModel : μ) (dependency : Nat) : Bridge μ :=
  let memo := Function.update (s.dependencies kind) userModel (some dependency)
  { s with dependencies := Function.update s.dependencies kind memo }

@[simp] theorem kept_same (s : Bridge μ) (kind : Kind) (userModel : μ) (dependency : Nat) :
    (s.kept kind userModel dependency).dependencies kind =
      Function.update (s.dependencies kind) userModel (some dependency) :=
  Function.update_self ..

theorem kept_other (s : Bridge μ) {kind k : Kind} (userModel : μ) (dependency : Nat)
    (h : k ≠ kind) : (s.kept kind userModel dependency).dependencies k = s.dependencies k :=
  Function.update_of_ne h ..

/-- Everything one section of a factory can do. -/
inductive Moves (s : Bridge μ) :
    Event μ → Phase μ → Bridge μ → Phase μ → List (Effect μ) → Prop
  | asked {kind userModel} : Moves s (.ask kind userModel) .idle s (.asked kind userModel) []
  | cached {kind userModel dependency} : s.dependencies kind userModel = some dependency →
      Moves s .next (.asked kind userModel) s (.answered kind userModel dependency) []
  | missed {kind userModel} : Moves s .next (.asked kind userModel) s (.resolving kind userModel) []
  | resolved {kind userModel resolver} : s.resolvers userModel = some resolver →
      Moves s .next (.resolving kind userModel) s (.resolved kind userModel resolver) []
  | unresolved {kind userModel} :
      Moves s .next (.resolving kind userModel) s (.unresolved kind userModel) []
  | resolverMade {kind userModel} : Moves s .next (.unresolved kind userModel)
      (s.make (.resolver userModel)).1 (.offering kind userModel s.made.length) []
  | resolverKept {kind userModel resolver held} : s.resolvers userModel = some held →
      Moves s .next (.offering kind userModel resolver) s (.resolved kind userModel held) []
  | resolverStored {kind userModel resolver} : s.resolvers userModel = none →
      Moves s .next (.offering kind userModel resolver)
        { s with resolvers := Function.update s.resolvers userModel (some resolver) }
        (.resolved kind userModel resolver) []
  | dependencyMade {kind userModel resolver} : Moves s .next (.resolved kind userModel resolver)
      (s.make (.dependency kind userModel resolver)).1 (.wrapped kind userModel s.made.length) []
  | dependencyKept {kind userModel dependency held} : s.dependencies kind userModel = some held →
      Moves s .next (.wrapped kind userModel dependency) s (.answered kind userModel held) []
  | dependencyStored {kind userModel dependency} : s.dependencies kind userModel = none →
      Moves s .next (.wrapped kind userModel dependency)
        (s.kept kind userModel dependency) (.answered kind userModel dependency) []
  | returned {kind userModel dependency} : Moves s .next (.answered kind userModel dependency) s
      .done [.returned kind userModel dependency]

variable {s t u : Bridge μ} {e : Event μ} {p q : Phase μ} {fs : List (Effect μ)} {i : ι}

theorem act_moves (h : Bridge.act e s p = some (t, q, fs)) : Moves s e p t q fs := by
  unfold Bridge.act at h
  split at h
  · cases h
    exact .asked
  · split at h
    · rename_i hd
      cases h
      exact .cached hd
    · cases h
      exact .missed
  · split at h
    · rename_i hr
      cases h
      exact .resolved hr
    · cases h
      exact .unresolved
  · cases h
    exact .resolverMade
  · rename_i kind userModel resolver
    unfold setdefault at h
    cases hr : s.resolvers userModel with
    | some held =>
      simp only [hr] at h
      cases h
      exact .resolverKept hr
    | none =>
      simp only [hr] at h
      cases h
      exact .resolverStored hr
  · cases h
    exact .dependencyMade
  · rename_i kind userModel dependency
    unfold setdefault at h
    cases hd : s.dependencies kind userModel with
    | some held =>
      simp only [hd, Function.update_eq_self] at h
      cases h
      exact .dependencyKept hd
    | none =>
      simp only [hd] at h
      cases h
      exact .dependencyStored hd
  · cases h
    exact .returned
  · cases h

structure Grows (s t : Bridge μ) : Prop where
  resolvers : ∀ userModel r, s.resolvers userModel = some r → t.resolvers userModel = some r
  dependencies : ∀ kind userModel d, s.dependencies kind userModel = some d →
    t.dependencies kind userModel = some d
  made : ∀ (n : Nat) callable, s.made[n]? = some callable → t.made[n]? = some callable

omit [DecidableEq μ] in
theorem Grows.refl (s : Bridge μ) : Grows s s := ⟨fun _ _ h => h, fun _ _ _ h => h, fun _ _ h => h⟩

omit [DecidableEq μ] in
theorem Grows.trans (h : Grows s t) (h' : Grows t u) : Grows s u where
  resolvers userModel r hr := h'.resolvers userModel r (h.resolvers userModel r hr)
  dependencies kind userModel d hd :=
    h'.dependencies kind userModel d (h.dependencies kind userModel d hd)
  made n callable hn := h'.made n callable (h.made n callable hn)

theorem kept_update {κ : Type} [DecidableEq κ] {memo : κ → Option Nat} {key : κ} {value : Nat}
    (h : memo key = none) (k : κ) (held : Nat) (hk : memo k = some held) :
    Function.update memo key (some value) k = some held := by
  have hne : k ≠ key := by
    rintro rfl
    cases h.symm.trans hk
  rwa [Function.update_of_ne hne]

omit [DecidableEq μ] in
theorem grows_make (s : Bridge μ) (callable : Callable μ) : Grows s (s.make callable).1 where
  resolvers _ _ h := h
  dependencies _ _ _ h := h
  made n callable' h := by
    obtain ⟨hn, -⟩ := List.getElem?_eq_some_iff.mp h
    exact (List.getElem?_append_left hn).trans h

omit [DecidableEq μ] in
theorem made_last (s : Bridge μ) (callable : Callable μ) :
    (s.make callable).1.made[s.made.length]? = some callable := List.getElem?_concat_length

theorem Moves.grows (h : Moves s e p t q fs) : Grows s t := by
  cases h with
  | resolverMade => exact grows_make ..
  | dependencyMade => exact grows_make ..
  | resolverStored hr => exact ⟨fun m r => kept_update hr m r, fun _ _ _ h => h, fun _ _ h => h⟩
  | @dependencyStored kind userModel dependency hd =>
    refine ⟨fun _ _ h => h, fun k m d hk => ?_, fun _ _ h => h⟩
    by_cases hkind : k = kind
    · subst hkind
      rw [kept_same]
      exact kept_update hd m d hk
    · rwa [kept_other s userModel dependency hkind]
  | _ => exact .refl s

def Wraps (s : Bridge μ) (kind : Kind) (userModel : μ) (dependency : Nat) : Prop :=
  ∃ resolver, s.resolvers userModel = some resolver ∧
    s.made[dependency]? = some (.dependency kind userModel resolver)

structure Stored (s : Bridge μ) : Prop where
  resolver : ∀ userModel r, s.resolvers userModel = some r → s.made[r]? = some (.resolver userModel)
  dependency : ∀ kind userModel d, s.dependencies kind userModel = some d → Wraps s kind userModel d

def Holds (s : Bridge μ) : Phase μ → Prop
  | .offering _ userModel resolver => s.made[resolver]? = some (.resolver userModel)
  | .resolved _ userModel resolver => s.resolvers userModel = some resolver
  | .wrapped kind userModel dependency => Wraps s kind userModel dependency
  | .answered kind userModel dependency => s.dependencies kind userModel = some dependency
  | _ => True

omit [DecidableEq μ] in
theorem Wraps.grows {kind : Kind} {userModel : μ} {dependency : Nat}
    (h : Wraps s kind userModel dependency) (hg : Grows s t) :
    Wraps t kind userModel dependency := by
  obtain ⟨resolver, hr, hm⟩ := h
  exact ⟨resolver, hg.resolvers _ _ hr, hg.made _ _ hm⟩

omit [DecidableEq μ] in
theorem Holds.grows (h : Holds s p) (hg : Grows s t) : Holds t p := by
  cases p with
  | offering kind userModel resolver => exact hg.made _ _ h
  | resolved kind userModel resolver => exact hg.resolvers _ _ h
  | wrapped kind userModel dependency => exact Wraps.grows h hg
  | answered kind userModel dependency => exact hg.dependencies _ _ _ h
  | _ => trivial

theorem Moves.stored (h : Moves s e p t q fs) (hs : Stored s) (hp : Holds s p) : Stored t := by
  have hg := h.grows
  cases h with
  | resolverMade => exact ⟨fun m r hr => hg.made _ _ (hs.resolver m r hr),
      fun k m d hd => (hs.dependency k m d hd).grows hg⟩
  | dependencyMade => exact ⟨fun m r hr => hg.made _ _ (hs.resolver m r hr),
      fun k m d hd => (hs.dependency k m d hd).grows hg⟩
  | @resolverStored kind userModel resolver hnone =>
    refine ⟨fun m r hr => ?_, fun k m d hd => (hs.dependency k m d hd).grows hg⟩
    by_cases hm : m = userModel
    · subst hm
      simp only [Function.update_self, Option.some.injEq] at hr
      exact hr ▸ hp
    · simp only [Function.update_of_ne hm] at hr
      exact hs.resolver m r hr
  | @dependencyStored kind userModel dependency hnone =>
    refine ⟨hs.resolver, fun k m d hd => ?_⟩
    by_cases hkind : k = kind
    · subst hkind
      rw [kept_same] at hd
      by_cases hm : m = userModel
      · subst hm
        simp only [Function.update_self, Option.some.injEq] at hd
        exact hd ▸ hp
      · simp only [Function.update_of_ne hm] at hd
        exact (hs.dependency k m d hd).grows hg
    · rw [kept_other s userModel dependency hkind] at hd
      exact (hs.dependency k m d hd).grows hg
  | _ => exact hs

theorem Moves.holds (h : Moves s e p t q fs) (hp : Holds s p) : Holds t q := by
  cases h with
  | cached hd => exact hd
  | resolved hr => exact hr
  | resolverMade => exact made_last ..
  | resolverKept hr => exact hr
  | resolverStored => exact Function.update_self ..
  | dependencyMade => exact ⟨_, hp, made_last ..⟩
  | dependencyKept hd => exact hd
  | dependencyStored => simp [Holds]
  | _ => trivial

section

variable [DecidableEq ι] {tr : History ι μ} {w : World ι (Bridge μ) (Phase μ)}

theorem machine_moves {w v : World ι (Bridge μ) (Phase μ)} {h : Happening ι (Event μ) Empty}
    (hu : program.machine w h = some (v, fs)) :
    ∃ i e, h = .act i e ∧ Moves w.shared e (w.phase i) v.shared (v.phase i) fs := by
  obtain ⟨i, e, rfl, ha, -⟩ | ⟨d, -⟩ := Program.machine_steps hu
  · exact ⟨i, e, rfl, act_moves ha⟩
  · exact d.elim

/-- In every run the memos hold what they should, and so do the threads. -/
theorem standing (h : Run program.machine start tr w) :
    Stored w.shared ∧ ∀ i, Holds w.shared (w.phase i) := by
  refine rely (I := fun _ s => Stored s) (A := fun _ _ s q => Holds s q) h ⟨nofun, nofun⟩
    (fun _ => trivial) ?_ nofun
  intro tr w i e s' q fs _ hI hA ha
  have hm := act_moves ha
  exact ⟨hm.stored hI (hA i), hm.holds (hA i), fun j _ => (hA j).grows hm.grows⟩

theorem grows_run {v : World ι (Bridge μ) (Phase μ)} (h : Run program.machine v tr w) :
    Grows v.shared w.shared := by
  refine h.invariant (I := fun _ w => Grows v.shared w.shared) (.refl _) ?_
  intro tr w ev u fs _ ih hu
  obtain ⟨i, e, -, hm⟩ := machine_moves hu
  exact ih.trans hm.grows

def Returned (tr : History ι μ) (kind : Kind) (userModel : μ) (dependency : Nat) : Prop :=
  ∃ x ∈ tr, .returned kind userModel dependency ∈ x.effects

theorem held_of_moves {kind : Kind} {userModel : μ} {dependency : Nat} (h : Moves s e p t q fs)
    (hf : .returned kind userModel dependency ∈ fs) :
    p = .answered kind userModel dependency := by
  cases h with
  | returned =>
    cases List.mem_singleton.mp hf
    rfl
  | _ => cases hf

/-- What was returned is what the memo holds from then on. -/
theorem Returned.held {kind : Kind} {userModel : μ} {dependency : Nat}
    (hr : Returned tr kind userModel dependency) (h : Run program.machine start tr w) :
    w.shared.dependencies kind userModel = some dependency := by
  obtain ⟨x, hx, hf⟩ := hr
  obtain ⟨a, b, rfl, hbefore, hstep, hafter⟩ := h.of_mem hx
  obtain ⟨i, e, -, hm⟩ := machine_moves hstep
  have hheld := (standing hbefore).2 i
  rw [held_of_moves hm hf] at hheld
  exact (hm.grows.trans (grows_run hafter)).dependencies _ _ _ hheld

end

section

variable [DecidableEq ι]

/-- Whichever threads ask, one callable answers for each factory and user model, and both
factories' callables for a user model hang off one resolver. -/
structure Memoized (tr : History ι μ) (s : Bridge μ) : Prop where
  same : ∀ kind userModel d d', Returned tr kind userModel d → Returned tr kind userModel d' → d = d'
  apart : ∀ kind kind' userModel userModel' d, Returned tr kind userModel d →
    Returned tr kind' userModel' d → kind = kind' ∧ userModel = userModel'
  anchored : ∀ userModel, (∃ kind d, Returned tr kind userModel d) →
    ∃ resolver, s.made[resolver]? = some (.resolver userModel) ∧
      ∀ kind d, Returned tr kind userModel d →
        s.made[d]? = some (.dependency kind userModel resolver)

theorem memoized {tr : History ι μ} {w : World ι (Bridge μ) (Phase μ)}
    (h : Run program.machine start tr w) : Memoized tr w.shared := by
  have hs := (standing h).1
  have hwraps : ∀ {kind userModel d}, Returned tr kind userModel d →
      Wraps w.shared kind userModel d := fun hr => hs.dependency _ _ _ (hr.held h)
  constructor
  · intro kind userModel d d' hd hd'
    exact Option.some.inj ((hd.held h).symm.trans (hd'.held h))
  · intro kind kind' userModel userModel' d hd hd'
    obtain ⟨r, -, hm⟩ := hwraps hd
    obtain ⟨r', -, hm'⟩ := hwraps hd'
    cases hm.symm.trans hm'
    exact ⟨rfl, rfl⟩
  · rintro userModel ⟨kind, d, hd⟩
    obtain ⟨r, hr, -⟩ := hwraps hd
    refine ⟨r, hs.resolver _ _ hr, fun kind' d' hd' => ?_⟩
    obtain ⟨r', hr', hm'⟩ := hwraps hd'
    cases hr.symm.trans hr'
    exact hm'

end

section Sample

def sampleThreads : List (Happening Nat (Event Unit) Empty) :=
  .act 0 (.ask .required ()) :: .act 1 (.ask .required ()) ::
    (List.replicate 7 [.act 0 .next, .act 1 .next]).flatten

def returnsRequired : Effect Unit → Bool
  | .returned .required _ _ => true
  | _ => false

def someReturned (tr : History Nat Unit) : Bool := tr.any fun x => x.effects.any returnsRequired

theorem sampleThreads_return : ∃ (tr : History Nat Unit) (w : World Nat (Bridge Unit) (Phase Unit))
    (d : Nat), Run program.machine start tr w ∧ Returned tr .required () d := by
  have h : ((replay program.machine start sampleThreads).any fun r => someReturned r.1) = true := by
    decide +kernel
  obtain ⟨tr, w, hr, hp⟩ := Run.of_replay_any h
  obtain ⟨x, hx, hf⟩ := List.any_eq_true.mp hp
  obtain ⟨f, hf, hs⟩ := List.any_eq_true.mp hf
  unfold returnsRequired at hs
  split at hs
  · exact ⟨tr, w, _, hr, x, hx, hf⟩
  · cases hs

end Sample

theorem memoized_sample : ∃ (tr : History Nat Unit) (w : World Nat (Bridge Unit) (Phase Unit))
    (d : Nat), Run program.machine start tr w ∧ Returned tr .required () d ∧
      Memoized tr w.shared := by
  obtain ⟨tr, w, d, hr, hret⟩ := sampleThreads_return
  exact ⟨tr, w, d, hr, hret, memoized hr⟩

end BetterAuthBridge.DependencyMemo
