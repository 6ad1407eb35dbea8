import BetterAuthBridge.Dispatch
import BetterAuthBridge.Legibility

namespace BetterAuthBridge.DispatchLegibility

open Library.Procedure Library.Failure Library.Spelling Errors Dispatch Legibility

variable {ρ κ σ υ : Type} {A : Alphabet} {v : Verifier ρ κ σ υ} {vs : List (Verifier ρ κ σ υ)}
  {connection : ρ} {credential : κ} {userModel : UserModel υ} {exc : Exn} {name method : String}

/-- An exception is legible as it was raised, and so is the one it stands for. -/
structure Delivered (A : Alphabet) (exc : Exn) : Prop where
  raised : Legible A exc
  leaf : Legible A (unwrapped exc)

def Described (A : Alphabet) (userModel : UserModel υ) : Answer σ υ → Prop
  | .session _ (.ok user) => A.Spells (userModel.typeName user)
  | .session _ (.error exc) => Legible A exc
  | .other typeName => A.Spells typeName
  | .unreadable exc => Legible A exc

/-- A verifier is legible in what is its own: its names, and the kinds of what it raises and
returns. -/
structure Speaking (A : Alphabet) (userModel : UserModel υ) (v : Verifier ρ κ σ υ) : Prop where
  className : A.Spells v.className
  credentialSource : A.Spells v.credentialSource
  extracts : ∀ connection exc, v.extract connection = .error exc → Delivered A exc
  presents : ∀ connection exc, v.extract connection = .ok (.unreadable exc) → Legible A exc
  verifies : ∀ credential exc, v.Raises credential userModel exc → Delivered A exc
  answers : ∀ credential answer, v.verify credential userModel = .ok (.awaitable (.ok answer)) →
    Described A userModel answer

theorem resolved_legible (h : Delivered A exc) (hn : A.Spells name) (hm : A.Spells method)
    (honoured : Exn → Bool) : Legible A (resolved exc name method honoured) := by
  unfold resolved
  split
  · exact h.leaf
  · refine invalidCredential_legible ?_
    exact .append (.append (.append (.append h.leaf.className (.literal (by decide))) hn)
      (.literal (by decide))) hm

theorem extracted_legible (h : Speaking A userModel v) (connection : ρ) :
    Legibly A (v.extracted connection) := by
  unfold Verifier.extracted
  cases he : v.extract connection with
  | ok found =>
    cases found with
    | nothing => exact .ok _
    | credential credential => exact .ok _
    | awaitable =>
      refine .error (configurationError_legible ?_)
      refine .append (.append (.append (.append h.className (.literal (by decide))) ?_) ?_) ?_ <;>
        exact .literal (by decide)
    | unreadable exc => exact .error (h.presents connection exc he)
  | error exc =>
    have hd := h.extracts connection exc he
    refine .ite (.error hd.raised) (.error (resolved_legible hd h.className ?_ _))
    exact .literal (by decide)

theorem verified_legible (h : Speaking A userModel v) (credential : κ) :
    Legibly A (v.verified credential userModel) := by
  have raised : ∀ {exc}, v.Raises credential userModel exc →
      Legibly A (v.verified credential userModel) := by
    intro exc hr
    have hd := h.verifies credential exc hr
    rw [verified_raised hr]
    unfold escaped
    split
    · exact .error hd.raised
    · refine .error (resolved_legible hd h.className ?_ _)
      exact .literal (by decide)
  cases hv : v.verify credential userModel with
  | error exc => exact raised (.inl hv)
  | ok returned =>
    cases returned with
    | plain =>
      have hplain : v.verified credential userModel = .error (configurationError
          s!"{v.className}.verify() did not return an awaitable. Declare it with `async def`.") :=
        by
        rw [Verifier.verified, Verifier.awaited, hv]
        rfl
      rw [hplain]
      exact .error (configurationError_legible (.append h.className (.literal (by decide))))
    | awaitable answer =>
      cases answer with
      | error exc => exact raised (.inr hv)
      | ok answer =>
        rw [Verifier.verified, Verifier.awaited, hv]
        exact .ok answer

theorem checked_legible (h : Speaking A userModel v) (hu : A.Spells userModel.name)
    {answer : Answer σ υ} (ha : Described A userModel answer) :
    Legibly A (v.checked userModel answer) := by
  cases answer with
  | session object user =>
    cases user with
    | error exc => exact .error ha
    | ok user =>
      refine .dite (fun _ => .ok _) fun _ => .error (configurationError_legible ?_)
      exact .append (.append (.append (.append h.className (.literal (by decide))) ha)
        (.literal (by decide))) (.framed (by decide) hu (by decide))
  | other typeName =>
    refine .error (configurationError_legible ?_)
    exact .append (.append (.append (.append h.className (.literal (by decide))) ha)
      (.literal (by decide))) (.literal (by decide))
  | unreadable exc => exact .error ha

theorem settled_legible (h : Speaking A userModel v) (hu : A.Spells userModel.name)
    (credential : κ) : Legibly A (v.settled credential userModel) := by
  refine (verified_legible h credential).bind fun answer ha => ?_
  refine checked_legible h hu (h.answers credential answer ?_)
  obtain ⟨exc, hr⟩ | ⟨message, hv⟩ | ⟨answer', hv, ha'⟩ := verified_cases v credential userModel
  · cases (verified_raised hr).symm.trans ha
  · cases hv.symm.trans ha
  · cases ha'.symm.trans ha
    exact hv

theorem named_spelled (h : Speaking A userModel v) : A.Spells v.named :=
  .append (.append (.append h.className (.literal (by decide))) h.credentialSource)
    (.literal (by decide))

theorem names_spelled (h : ∀ v ∈ vs, Speaking A userModel v) :
    ∀ t ∈ vs.map Verifier.named, A.Spells t := by
  intro t ht
  obtain ⟨v, hv, rfl⟩ := List.mem_map.mp ht
  exact named_spelled (h v hv)

theorem mem_found {p : Verifier ρ κ σ υ × κ} (h : p ∈ found connection vs) : p.1 ∈ vs := by
  obtain ⟨u, hu, he⟩ := List.mem_filterMap.mp h
  split at he
  · cases he
    exact hu
  · cases he

theorem dispatch_legible (h : ∀ v ∈ vs, Speaking A userModel v) (hu : A.Spells userModel.name)
    (connection : ρ) : Legibly A (optionalSession vs connection userModel) := by
  have hd := dispatches vs connection userModel
  unfold optionalSession
  generalize (dispatch vs connection userModel).1 = outcome at hd
  generalize (dispatch vs connection userModel).2 = calls at hd
  cases hd with
  | anonymous => exact .ok _
  | settled _ hf => exact (settled_legible (h _ (mem_of_found hf)) hu _).map some
  | ambiguous =>
    refine .error ⟨.literal (by decide), ?_⟩
    refine .append (.append (.nat _) (.literal (by decide)))
      (.intercalate (.literal (by decide)) fun t ht => ?_)
    obtain ⟨p, hp, rfl⟩ := List.mem_map.mp ht
    exact named_spelled (h p.1 (mem_found hp))
  | stopped hvs _ _ he =>
    subst hvs
    refine .error (extracted_legible (h _ ?_) connection _ he)
    exact List.mem_append_right _ List.mem_cons_self

/-- Whatever a request carries, each refusal that `current_session` comes to can be written to a
log in an alphabet of printable ASCII and the operator's own letters. -/
theorem current_legible (A : Alphabet) (vs : List (Verifier ρ κ σ υ)) (userModel : UserModel υ)
    (h : ∀ v ∈ vs, Speaking A userModel v) (hu : A.Spells userModel.name) (connection : ρ) :
    Legibly A (currentSession vs connection userModel) := by
  refine (dispatch_legible h hu connection).bind fun found _ => ?_
  cases found with
  | some session => exact .ok session
  | none =>
    refine .error ⟨.literal (by decide), .append (.literal (by decide)) ?_⟩
    exact .intercalate (.literal (by decide)) (names_spelled h)

section Sample

def grouping : Verifier Unit Unit Unit Unit :=
  presenting "cookie:a" (.error (.group "ExceptionGroup" [.other "KeyError"]))

theorem grouping_speaking : ∀ v ∈ [grouping], Speaking ascii anyUser v := by
  intro v hv
  rw [List.mem_singleton.mp hv]
  refine ⟨.literal (by decide), .literal (by decide), fun connection exc h => ?_,
    fun connection exc h => ?_, fun credential exc h => ?_, fun credential answer h => ?_⟩
  · cases h
  · cases h
  · obtain h | h := h
    · cases h
      constructor <;> exact ⟨.literal (by decide), .literal (by decide)⟩
    · cases h
  · cases h

end Sample

/-- The accident is named, and nothing more is said of it. -/
theorem current_legible_group : ∃ exc, currentSession [grouping] () anyUser = .error exc ∧
    said exc = "KeyError escaped SampleVerifier.verify" ∧ Legible ascii exc :=
  ⟨_, rfl, by decide,
    current_legible ascii [grouping] anyUser grouping_speaking (.literal (by decide)) () _ rfl⟩

end BetterAuthBridge.DispatchLegibility
