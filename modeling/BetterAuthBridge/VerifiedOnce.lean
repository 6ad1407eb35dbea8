import BetterAuthBridge.DependencyMemo
import BetterAuthBridge.Dispatch

namespace BetterAuthBridge.VerifiedOnce

open Library.Runs Library.Tasks Library.Procedure Errors DependencyMemo
open Dispatch (Verifier UserModel Session dispatch optionalSession currentSession)

variable {ι μ ρ κ σ υ γ : Type}

/-- A gate is built by `require` over a rule, or by `require_membership` over a lookup. -/
inductive Gate
  | rule (n : Nat)
  | membership (n : Nat)
  deriving DecidableEq

inductive Node
  | made (callable : Nat)
  | gate (current : Nat) (gate : Gate)
  deriving DecidableEq

/-- What a callable answers: a session dependency or a rule's gate a session, if there is one, and a
membership's gate the session, the resource and the grant. -/
inductive Answer (φ γ : Type)
  | found (session : Option φ)
  | membership (session : φ) (resourceId : String) (grant : γ)

/-- One request to a bridge with these verifiers, and what the rules and the lookups of the gates
say to it. -/
structure Request (μ ρ κ σ υ γ : Type) where
  verifiers : List (Verifier ρ κ σ υ)
  connection : ρ
  userClass : μ → UserModel υ
  permitted : Nat → (userModel : μ) × Session σ (userClass userModel) →
    Except Exn ((userModel : μ) × Session σ (userClass userModel))
  joined : Nat → (userModel : μ) × Session σ (userClass userModel) → Except Exn (String × γ)

namespace Request

variable (request : Request μ ρ κ σ υ γ)

abbrev Found := (userModel : μ) × Session σ (request.userClass userModel)

abbrev Answered := Except Exn (Answer request.Found γ)

def authenticate (userModel : μ) : Except Exn (Option request.Found) :=
  (optionalSession request.verifiers request.connection (request.userClass userModel)).map
    fun found => found.map fun session => ⟨userModel, session⟩

def gated (session : request.Found) : Gate → request.Answered
  | .rule n => (request.permitted n session).map fun session => .found (some session)
  | .membership n => (request.joined n session).map fun (resourceId, grant) =>
      .membership session resourceId grant

/-- What a callable makes of what its own dependency gave. -/
def body (s : Bridge μ) (given : Option request.Found) : Node → request.Answered
  | .made n =>
    match s.made[n]?, given with
    | some (.resolver userModel), _ => (request.authenticate userModel).map .found
    | some (.dependency .required ..), none =>
      throw (missingCredential (Dispatch.nothingPresented request.verifiers))
    | _, given => pure (.found given)
  | .gate _ gate =>
    match given with
    | some session => request.gated session gate
    | none => pure (.found none)

end Request

def Node.below (s : Bridge μ) : Node → Option Node
  | .made n =>
    match s.made[n]? with
    | some (.dependency _ _ resolver) => some (.made resolver)
    | _ => none
  | .gate current _ => some (.made current)

/-- A callable that is called for a declared one. -/
inductive Leads (s : Bridge μ) : Node → Node → Prop
  | self {node} : Leads s node node
  | step {node inner last} : node.below s = some inner → Leads s inner last → Leads s node last

abbrev Calls (request : Request μ ρ κ σ υ γ) := List (Node × request.Answered)

/-- How FastAPI solves what a route declares: each callable is called once for the request, with
what its own dependency gave. -/
structure Solved (request : Request μ ρ κ σ υ γ) (s : Bridge μ) (declared : List Node)
    (calls : Calls request) : Prop where
  once : (calls.map Prod.fst).Nodup
  called : ∀ c ∈ calls, ∃ node ∈ declared, Leads s node c.1
  fed : ∀ a c b, calls = a ++ c :: b → c.1.below s = none ∧ c.2 = request.body s none c.1 ∨
    ∃ inner given, c.1.below s = some inner ∧ (inner, .ok (.found given)) ∈ a ∧
      c.2 = request.body s given c.1

def Declares (tr : History ι μ) : Node → Prop
  | .made d => ∃ kind userModel, Returned tr kind userModel d
  | .gate current _ => ∃ userModel, Returned tr .required userModel current

def Concerns (tr : History ι μ) (userModel : μ) : Node → Prop
  | .made d => ∃ kind, Returned tr kind userModel d
  | .gate current _ => Returned tr .required userModel current

def verifiesOf (request : Request μ ρ κ σ υ γ) (s : Bridge μ) : Node → List (Dispatch.Call ρ κ σ υ)
  | .made n =>
    match s.made[n]? with
    | some (.resolver userModel) => (dispatch request.verifiers request.connection
        (request.userClass userModel)).2.filter Dispatch.Call.isVerify
    | _ => []
  | .gate .. => []

def verifies (request : Request μ ρ κ σ υ γ) (s : Bridge μ) (calls : Calls request) :
    List (Dispatch.Call ρ κ σ υ) :=
  calls.flatMap fun c => verifiesOf request s c.1

structure VerifiesOnce (request : Request μ ρ κ σ υ γ) (tr : History ι μ) (s : Bridge μ)
    (declared : List Node) (calls : Calls request) : Prop where
  single : ∀ userModel n n', .made n ∈ calls.map Prod.fst → .made n' ∈ calls.map Prod.fst →
    s.made[n]? = some (.resolver userModel) → s.made[n']? = some (.resolver userModel) → n = n'
  verified : ∀ userModel, (∀ node ∈ declared, Concerns tr userModel node) →
    (verifies request s calls).length ≤ 1
  optional : ∀ userModel d r, Returned tr .optional userModel d → (.made d, r) ∈ calls →
    r = (request.authenticate userModel).map .found
  required : ∀ userModel d r, Returned tr .required userModel d → (.made d, r) ∈ calls →
    r = (currentSession request.verifiers request.connection (request.userClass userModel)).map
      fun session => .found (some ⟨userModel, session⟩)
  gates : ∀ current gate r, (.gate current gate, r) ∈ calls → ∃ userModel session,
    Returned tr .required userModel current ∧
      currentSession request.verifiers request.connection (request.userClass userModel) =
        .ok session ∧
      r = request.gated ⟨userModel, session⟩ gate

section

variable [DecidableEq ι] [DecidableEq μ] {request : Request μ ρ κ σ υ γ} {tr : History ι μ}
  {w : World ι (Bridge μ) (Phase μ)} {s : Bridge μ} {declared : List Node} {calls : Calls request}
  {userModel : μ} {kind : Kind} {d n : Nat} {node : Node} {r : request.Answered}

def Anchors (s : Bridge μ) (userModel : μ) (n : Nat) : Prop :=
  s.resolvers userModel = some n ∧ s.made[n]? = some (.resolver userModel)

theorem wraps_of_returned (hr : Returned tr kind userModel d) (h : Run program.machine start tr w) :
    ∃ n, Anchors w.shared userModel n ∧
      w.shared.made[d]? = some (.dependency kind userModel n) := by
  obtain ⟨n, hn, hd⟩ := (standing h).1.dependency _ _ _ (hr.held h)
  exact ⟨n, ⟨hn, (standing h).1.resolver _ _ hn⟩, hd⟩

omit [DecidableEq μ] in
theorem Leads.of_none (h : Leads s node last) (hb : node.below s = none) : last = node := by
  cases h with
  | self => rfl
  | step hi => cases hb.symm.trans hi

omit [DecidableEq μ] in
theorem Leads.of_some {inner last : Node} (h : Leads s node last) (hb : node.below s = some inner) :
    last = node ∨ Leads s inner last := by
  cases h with
  | self => exact .inl rfl
  | step hi hl =>
    cases hb.symm.trans hi
    exact .inr hl

omit [DecidableEq μ] in
theorem below_resolver (h : s.made[n]? = some (.resolver userModel)) :
    (Node.made n).below s = none := by
  simp [Node.below, h]

omit [DecidableEq μ] in
theorem below_dependency (h : s.made[d]? = some (.dependency kind userModel n)) :
    (Node.made d).below s = some (.made n) := by
  simp [Node.below, h]

/-- Of the resolvers, a declared callable leads to the one of its user model. -/
theorem anchors_of_leads (h : Run program.machine start tr w) (hd : Concerns tr userModel node)
    (hl : Leads w.shared node (.made n)) {userModel' : μ}
    (hn : w.shared.made[n]? = some (.resolver userModel')) : Anchors w.shared userModel n := by
  have hmade : ∀ {kind d}, Returned tr kind userModel d → Leads w.shared (.made d) (.made n) →
      Anchors w.shared userModel n := by
    intro kind d hr hl
    obtain ⟨m, hm, hdep⟩ := wraps_of_returned hr h
    obtain he | hl := hl.of_some (below_dependency hdep)
    · cases he
      cases hn.symm.trans hdep
    · cases hl.of_none (below_resolver hm.2)
      exact hm
  cases node with
  | made d =>
    obtain ⟨kind, hr⟩ := hd
    exact hmade hr hl
  | gate current gate =>
    have hb : (Node.gate current gate).below w.shared = some (.made current) := rfl
    obtain he | hl := hl.of_some hb
    · cases he
    · exact hmade hd hl

omit [DecidableEq μ] in
theorem leads_gate {current : Nat} {gate : Gate} {last : Node} (h : Leads s node last)
    (hlast : last = .gate current gate) : node = .gate current gate := by
  induction h with
  | self => exact hlast
  | @step node inner last hb _ ih =>
    obtain rfl := ih hlast
    cases node with
    | made n =>
      simp only [Node.below] at hb
      split at hb <;> cases hb
    | gate current gate => cases hb

omit [DecidableEq ι] [DecidableEq μ] in
theorem concerned (h : Declares tr node) : ∃ userModel, Concerns tr userModel node := by
  cases node with
  | made d =>
    obtain ⟨kind, userModel, hr⟩ := h
    exact ⟨userModel, kind, hr⟩
  | gate current gate => exact h

omit [DecidableEq μ] in
theorem resolver_result (hc : Solved request s declared calls) (hm : (.made n, r) ∈ calls)
    (hn : s.made[n]? = some (.resolver userModel)) :
    r = (request.authenticate userModel).map .found := by
  obtain ⟨a, b, hab⟩ := List.append_of_mem hm
  obtain ⟨-, hr⟩ | ⟨inner, given, hb, -⟩ := hc.fed a _ b hab
  · simpa [Request.body, hn] using hr
  · cases (below_resolver hn).symm.trans hb

omit [DecidableEq μ] in
theorem dependency_result (hc : Solved request s declared calls) (hm : (.made d, r) ∈ calls)
    (hd : s.made[d]? = some (.dependency kind userModel n))
    (hn : s.made[n]? = some (.resolver userModel)) :
    ∃ given, request.authenticate userModel = .ok given ∧ r = request.body s given (.made d) := by
  obtain ⟨a, b, rfl⟩ := List.append_of_mem hm
  obtain ⟨hb, -⟩ | ⟨inner, given, hb, hi, hr⟩ := hc.fed a _ b rfl
  · cases (below_dependency hd).symm.trans hb
  · cases (below_dependency hd).symm.trans hb
    have hres := resolver_result hc (List.mem_append_left _ hi) hn
    refine ⟨given, ?_, hr⟩
    cases ha : request.authenticate userModel with
    | error exc =>
      rw [ha] at hres
      cases hres
    | ok found =>
      rw [ha] at hres
      cases hres
      rfl

omit [DecidableEq μ] in
theorem authenticate_ok {given : Option request.Found}
    (h : request.authenticate userModel = .ok given) :
    ∃ found, optionalSession request.verifiers request.connection (request.userClass userModel) =
      .ok found ∧ given = found.map fun session => ⟨userModel, session⟩ := by
  unfold Request.authenticate at h
  cases ho : optionalSession request.verifiers request.connection (request.userClass userModel) with
  | error exc =>
    rw [ho] at h
    cases h
  | ok found =>
    rw [ho] at h
    cases h
    exact ⟨found, rfl, rfl⟩

omit [DecidableEq μ] in
theorem currentSession_eq :
    currentSession request.verifiers request.connection (request.userClass userModel) =
      (optionalSession request.verifiers request.connection (request.userClass userModel)).bind
        (Dispatch.required request.verifiers) := rfl

omit [DecidableEq μ] in
theorem required_result (hc : Solved request s declared calls) (hm : (.made d, r) ∈ calls)
    (hd : s.made[d]? = some (.dependency .required userModel n))
    (hn : s.made[n]? = some (.resolver userModel)) :
    r = (currentSession request.verifiers request.connection (request.userClass userModel)).map
      fun session => .found (some ⟨userModel, session⟩) := by
  obtain ⟨given, hg, hr⟩ := dependency_result hc hm hd hn
  obtain ⟨found, ho, rfl⟩ := authenticate_ok hg
  rw [hr, currentSession_eq, ho]
  unfold Request.body
  cases found with
  | none =>
    simp only [hd]
    rfl
  | some session =>
    simp only [hd]
    rfl

omit [DecidableEq μ] in
theorem optional_result (hc : Solved request s declared calls) (hm : (.made d, r) ∈ calls)
    (hd : s.made[d]? = some (.dependency .optional userModel n))
    (hn : s.made[n]? = some (.resolver userModel)) :
    r = (request.authenticate userModel).map .found := by
  obtain ⟨given, hg, hr⟩ := dependency_result hc hm hd hn
  rw [hr, hg]
  unfold Request.body
  simp only [hd]
  rfl

omit [DecidableEq μ] in
/-- A gate is asked about the session of its own request, and about nothing else. -/
theorem gate_result {current : Nat} {gate : Gate} (hc : Solved request s declared calls)
    (hm : (.gate current gate, r) ∈ calls)
    (hd : s.made[current]? = some (.dependency .required userModel n))
    (hn : s.made[n]? = some (.resolver userModel)) :
    ∃ session, currentSession request.verifiers request.connection
        (request.userClass userModel) = .ok session ∧
      r = request.gated ⟨userModel, session⟩ gate := by
  obtain ⟨a, b, rfl⟩ := List.append_of_mem hm
  obtain ⟨hb, -⟩ | ⟨inner, given, hb, hi, hr⟩ := hc.fed a _ b rfl
  · cases hb
  · cases hb
    have hgiven := required_result hc (List.mem_append_left _ hi) hd hn
    cases hs : currentSession request.verifiers request.connection
        (request.userClass userModel) with
    | error exc =>
      rw [hs] at hgiven
      cases hgiven
    | ok session =>
      rw [hs] at hgiven
      cases hgiven
      exact ⟨session, rfl, hr⟩

omit [DecidableEq μ] in
theorem verifiesOf_le (request : Request μ ρ κ σ υ γ) (s : Bridge μ) (node : Node) :
    (verifiesOf request s node).length ≤ 1 := by
  unfold verifiesOf
  split
  · split
    · exact (Dispatch.dispatches _ _ _).single
    · simp
  · simp

omit [DecidableEq μ] in
theorem verifies_le {calls : Calls request} (hnodup : (calls.map Prod.fst).Nodup)
    (hone : ∀ c ∈ calls, ∀ c' ∈ calls, verifiesOf request s c.1 ≠ [] →
      verifiesOf request s c'.1 ≠ [] → c.1 = c'.1) : (verifies request s calls).length ≤ 1 := by
  by_cases hq : ∀ c ∈ calls, verifiesOf request s c.1 = []
  · simp [verifies, List.flatMap_eq_nil_iff.mpr hq]
  · obtain ⟨c, hc, hv⟩ : ∃ c ∈ calls, verifiesOf request s c.1 ≠ [] := by simpa using hq
    obtain ⟨a, b, rfl⟩ := List.append_of_mem hc
    rw [List.map_append, List.map_cons, List.nodup_middle, List.nodup_cons, List.mem_append]
      at hnodup
    have hquiet : ∀ l : Calls request, (∀ c' ∈ l, c' ∈ a ++ c :: b) → c.1 ∉ l.map Prod.fst →
        l.flatMap (fun c => verifiesOf request s c.1) = [] := by
      intro l hl hn
      refine List.flatMap_eq_nil_iff.mpr fun c' hc' => ?_
      by_contra hv'
      exact hn (hone c hc c' (hl c' hc') hv hv' ▸ List.mem_map_of_mem hc')
    have ha := hquiet a (fun c' h => List.mem_append_left _ h) fun h => hnodup.1 (.inl h)
    have hb := hquiet b (fun c' h => List.mem_append_right _ (List.mem_cons_of_mem _ h))
      fun h => hnodup.1 (.inr h)
    rw [verifies, List.flatMap_append, List.flatMap_cons, ha, hb, List.nil_append, List.append_nil]
    exact verifiesOf_le request s c.1

omit [DecidableEq μ] in
theorem resolver_of_verifies (h : verifiesOf request s node ≠ []) :
    ∃ n userModel, node = .made n ∧ s.made[n]? = some (.resolver userModel) := by
  unfold verifiesOf at h
  split at h
  · split at h
    · rename_i n _ userModel hn
      exact ⟨n, userModel, rfl, hn⟩
    · exact (h rfl).elim
  · exact (h rfl).elim

/-- A request is verified once for each user model its route names, whatever it declares. -/
theorem verifies_once (h : Run program.machine start tr w)
    (hd : ∀ node ∈ declared, Declares tr node) (hc : Solved request w.shared declared calls) :
    VerifiesOnce request tr w.shared declared calls := by
  have hanchors : ∀ {n userModel}, .made n ∈ calls.map Prod.fst →
      w.shared.made[n]? = some (.resolver userModel) → ∃ node ∈ declared,
        Concerns tr userModel node ∧ Anchors w.shared userModel n := by
    intro n userModel hm hn
    obtain ⟨c, hcm, hcn⟩ := List.mem_map.mp hm
    obtain ⟨node, hnode, hl⟩ := hc.called c hcm
    rw [hcn] at hl
    obtain ⟨userModel', hconcerns⟩ := concerned (hd node hnode)
    have ha := anchors_of_leads h hconcerns hl hn
    cases hn.symm.trans ha.2
    exact ⟨node, hnode, hconcerns, ha⟩
  constructor
  · intro userModel n n' hm hm' hn hn'
    obtain ⟨-, -, -, ha⟩ := hanchors hm hn
    obtain ⟨-, -, -, ha'⟩ := hanchors hm' hn'
    exact Option.some.inj (ha.1.symm.trans ha'.1)
  · intro userModel hall
    apply verifies_le hc.once
    intro c hcm c' hcm' hv hv'
    have hone : ∀ c ∈ calls, verifiesOf request w.shared c.1 ≠ [] →
        ∃ n, c.1 = .made n ∧ Anchors w.shared userModel n := by
      intro c hcm hv
      obtain ⟨n, userModel', hcn, hn⟩ := resolver_of_verifies hv
      obtain ⟨node, hnode, hl⟩ := hc.called c hcm
      rw [hcn] at hl
      exact ⟨n, hcn, anchors_of_leads h (hall node hnode) hl hn⟩
    obtain ⟨n, hcn, ha⟩ := hone c hcm hv
    obtain ⟨n', hcn', ha'⟩ := hone c' hcm' hv'
    rw [hcn, hcn', Option.some.inj (ha.1.symm.trans ha'.1)]
  · intro userModel d r hr hm
    obtain ⟨n, hn, hdep⟩ := wraps_of_returned hr h
    exact optional_result hc hm hdep hn.2
  · intro userModel d r hr hm
    obtain ⟨n, hn, hdep⟩ := wraps_of_returned hr h
    exact required_result hc hm hdep hn.2
  · intro current gate r hm
    obtain ⟨node, hnode, hl⟩ := hc.called _ hm
    obtain rfl := leads_gate hl rfl
    obtain ⟨userModel, hr⟩ := hd _ hnode
    obtain ⟨n, hn, hdep⟩ := wraps_of_returned hr h
    obtain ⟨session, hs, hres⟩ := gate_result hc hm hdep hn.2
    exact ⟨userModel, session, hr, hs, hres⟩

end

section Sample

def sampleRequest : Request Unit Unit Unit Unit Unit Unit where
  verifiers := [⟨"V", "bearer", fun _ => .ok (.credential ()),
    fun _ _ => .ok (.awaitable (.ok (.session () (.ok ()))))⟩]
  connection := ()
  userClass _ := Dispatch.anyUser
  permitted _ found := .ok found
  joined _ _ := .ok ("org_1", ())

def somebody : sampleRequest.Found := ⟨(), (), (), rfl⟩

def sampleCalls (n d : Nat) : Calls sampleRequest :=
  [(.made n, .ok (.found (some somebody))), (.made d, .ok (.found (some somebody))),
    (.gate d (.rule 0), .ok (.found (some somebody))),
    (.gate d (.membership 0), .ok (.membership somebody "org_1" ()))]

def sampleDeclared (d : Nat) : List Node := [.made d, .gate d (.rule 0), .gate d (.membership 0)]

theorem sampleCalls_solved {s : Bridge Unit} {n d : Nat} (hn : s.made[n]? = some (.resolver ()))
    (hd : s.made[d]? = some (.dependency .required () n)) :
    Solved sampleRequest s (sampleDeclared d) (sampleCalls n d) := by
  have hne : n ≠ d := by
    rintro rfl
    cases hn.symm.trans hd
  have hbelow : (Node.made d).below s = some (.made n) := below_dependency hd
  constructor
  · simp [sampleCalls, hne]
  · intro c hc
    simp only [sampleCalls, List.mem_cons, List.not_mem_nil, or_false] at hc
    obtain rfl | rfl | rfl | rfl := hc
    · exact ⟨.made d, by simp [sampleDeclared], .step hbelow .self⟩
    · exact ⟨.made d, by simp [sampleDeclared], .self⟩
    · exact ⟨.gate d (.rule 0), by simp [sampleDeclared], .self⟩
    · exact ⟨.gate d (.membership 0), by simp [sampleDeclared], .self⟩
  · intro a c b hab
    obtain _ | ⟨x, _ | ⟨y, _ | ⟨z, _ | ⟨t, a⟩⟩⟩⟩ := a
    · cases hab
      refine .inl ⟨below_resolver hn, ?_⟩
      simp only [Request.body, hn]
      rfl
    · cases hab
      exact .inr ⟨_, _, hbelow, List.mem_singleton_self _, by simp [Request.body, hd]⟩
    · cases hab
      exact .inr ⟨.made d, some somebody, rfl, by simp, rfl⟩
    · cases hab
      exact .inr ⟨.made d, some somebody, rfl, by simp, rfl⟩
    · simp [sampleCalls] at hab

end Sample

theorem verifies_once_sample : ∃ (tr : History Nat Unit) (w : World Nat (Bridge Unit) (Phase Unit))
    (n d : Nat), Run program.machine start tr w ∧
      VerifiesOnce sampleRequest tr w.shared (sampleDeclared d) (sampleCalls n d) := by
  obtain ⟨tr, w, d, hr, hret⟩ := sampleThreads_return
  obtain ⟨n, hn, hdep⟩ := wraps_of_returned hret hr
  refine ⟨tr, w, n, d, hr, verifies_once hr ?_ (sampleCalls_solved hn.2 hdep)⟩
  simp only [sampleDeclared, List.mem_cons, List.not_mem_nil, or_false, forall_eq_or_imp,
    forall_eq]
  exact ⟨⟨_, _, hret⟩, ⟨_, hret⟩, _, hret⟩

end BetterAuthBridge.VerifiedOnce
