import BetterAuthBridge.Dispatch
import BetterAuthBridge.FailClosed

namespace BetterAuthBridge.TaskGroups

open Library.Procedure Values Errors Models Refusals

variable {ρ κ σ υ γ : Type} {e exc leaf : Exn} {names : List String} {what name method : String}

def wrapped (names : List String) (e : Exn) : Exn :=
  names.foldr (fun name e => .group name [e]) e

/-- `getattr(exc, "exceptions", ())`. -/
def exceptions : Exn → List Exn
  | .betterAuth _ _ _ exceptions | .session _ _ _ exceptions | .authorizationRefused _ exceptions
  | .group _ exceptions => exceptions
  | _ => []

theorem unwrapped_eq_self (h : (exceptions e).length ≠ 1) : unwrapped e = e := by
  cases e with
  | betterAuth kind name message members | session kind name reason members
  | authorizationRefused refusal members | group name members =>
    match members with
    | [] | _ :: _ :: _ => rfl
    | [_] => exact absurd rfl h
  | _ => rfl

theorem unwrapped_wrapped (names : List String) (e : Exn) :
    unwrapped (wrapped names e) = unwrapped e := by
  induction names with
  | nil => rfl
  | cons name names ih =>
    rw [wrapped, List.foldr_cons, unwrapped]
    exact ih

/-- A place where a deployment's code is called, by what passes it as it was raised and what it
makes of everything else. -/
structure Place where
  honoured : Exn → Bool
  contained : Exn → Exn
  explained : Option (Refusal → List Exn → Exn)

namespace Place

variable (p : Place)

def judged (leaf : Exn) : Exn :=
  match p.explained, leaf with
  | some answered, .authorizationRefused refusal exceptions => answered refusal exceptions
  | _, leaf => p.contained leaf

def outcome (e : Exn) : Exn :=
  if p.honoured (delivered p.honoured e) then delivered p.honoured e
  else p.judged (delivered p.honoured e)

/-- What may come of a leaf: itself, a refusal held to its rules, or the uniform refusal. -/
inductive Answers (p : Place) : Exn → Exn → Prop
  | itself {leaf : Exn} : p.honoured leaf = true → Answers p leaf leaf
  | explained {refusal : Refusal} {exceptions : List Exn} {answered : Refusal → List Exn → Exn} :
      p.honoured (.authorizationRefused refusal exceptions) = false →
      p.explained = some answered →
      Answers p (.authorizationRefused refusal exceptions) (answered refusal exceptions)
  | uniform {leaf : Exn} : p.honoured leaf = false → Answers p leaf (p.contained leaf)

variable {p : Place}

theorem outcome_answers (e : Exn) : Answers p (delivered p.honoured e) (p.outcome e) := by
  rw [outcome]
  generalize delivered p.honoured e = leaf
  cases hl : p.honoured leaf with
  | true => exact .itself hl
  | false =>
    rw [if_neg Bool.false_ne_true]
    unfold judged
    split
    · rename_i ha
      exact .explained hl ha
    · exact .uniform hl

/-- Groups change nothing for what is not at once honoured and a group with one member. -/
theorem outcome_wrapped (hg : ∀ name exceptions, p.honoured (.group name exceptions) = false)
    (h : ¬ (p.honoured e = true ∧ (exceptions e).length = 1)) :
    p.outcome (wrapped names e) = p.outcome e := by
  cases names with
  | nil => rfl
  | cons name names =>
    have hw : delivered p.honoured (wrapped (name :: names) e) = unwrapped e := by
      rw [delivered, wrapped, List.foldr_cons, if_neg (by simp [hg]), unwrapped]
      exact unwrapped_wrapped names e
    have he : delivered p.honoured e = unwrapped e := by
      rw [delivered]
      split
      · rename_i hh
        exact (unwrapped_eq_self fun hl => h ⟨hh, hl⟩).symm
      · rfl
    rw [outcome, outcome, hw, he]

/-- A group of several is no answer, whatever its members are. -/
theorem outcome_several {members : List Exn}
    (hg : ∀ name exceptions, p.honoured (.group name exceptions) = false)
    (h : members.length ≠ 1) :
    p.outcome (wrapped names (.group name members)) = p.contained (.group name members) := by
  have hd : delivered p.honoured (.group name members) = .group name members := by
    rw [delivered, hg, if_neg Bool.false_ne_true]
    exact unwrapped_eq_self h
  rw [outcome_wrapped hg (by simp [hg]), outcome, hd, hg, if_neg Bool.false_ne_true]
  unfold judged
  cases p.explained <;> rfl

end Place

def extracting (name : String) : Place :=
  ⟨Exn.isBetterAuth, fun leaf => Dispatch.contained leaf name "extract", none⟩

def verifying (name : String) : Place :=
  ⟨Exn.isLibrary, fun leaf => Dispatch.contained leaf name "verify", none⟩

def asking (what : String) : Place :=
  ⟨Exn.isLibrary, fun leaf => Authz.contained leaf what,
    some fun refusal exceptions => Authz.answered refusal exceptions what⟩

theorem dispatch_escaped (e : Exn) (honoured : Exn → Bool) :
    Dispatch.escaped e name method honoured =
      (⟨honoured, fun leaf => Dispatch.contained leaf name method, none⟩ : Place).outcome e := by
  rw [Dispatch.escaped, Dispatch.resolved, Place.outcome, delivered]
  by_cases hh : honoured e = true
  · simp only [hh, if_true]
  · simp only [hh, Bool.false_eq_true, if_false, Place.judged]

theorem authz_escaped (e : Exn) : Authz.escaped e what = (asking what).outcome e := by
  rw [Authz.escaped, Authz.resolved, Place.outcome, delivered, asking]
  by_cases hh : e.isLibrary = true
  · simp only [hh, if_true]
  · simp only [hh, Bool.false_eq_true, if_false, Place.judged]
    split
    · rfl
    · cases unwrapped e <;> rfl

section Raised

variable {v : Dispatch.Verifier ρ κ σ υ} {connection : ρ} {credential : κ}
  {userModel : Dispatch.UserModel υ} {session : Session υ} {predicate : Authz.Predicate υ}
  {member : Authz.Member υ γ} {resourceId : Str}

theorem extracted_raised (h : v.extract connection = .error e) :
    v.extracted connection = .error ((extracting v.className).outcome e) := by
  rw [Dispatch.Verifier.extracted, h, extracting, ← dispatch_escaped, Dispatch.escaped]
  by_cases hb : e.isBetterAuth = true
  · simp only [hb, if_true, throw_eq_error]
  · simp only [hb, Bool.false_eq_true, if_false, throw_eq_error]

theorem verified_raised (h : v.Raises credential userModel e) :
    v.verified credential userModel = .error ((verifying v.className).outcome e) := by
  rw [Dispatch.verified_raised h, dispatch_escaped, verifying]

theorem permitted_raised (h : predicate session = .error e) :
    Authz.permitted predicate session = .error ((asking Authz.predicateName).outcome e) := by
  have hh : Authz.held Authz.predicateName (predicate session) =
      .error (Authz.escaped e Authz.predicateName) := Authz.held_error.mpr ⟨e, h, rfl⟩
  rw [Authz.permitted, hh, authz_escaped]
  rfl

theorem granted_raised (h : Authz.LookupRaises member resourceId session e)
    (calls : List (Authz.Lookup υ)) : exec (Authz.granted member resourceId session) calls =
      (.error ((asking Authz.lookupName).outcome e), calls ++ [⟨resourceId, session⟩]) := by
  have ha : Authz.asked member resourceId session = .error e := Authz.asked_raises h
  have hh : Authz.held Authz.lookupName (Authz.asked member resourceId session) =
      .error (Authz.escaped e Authz.lookupName) := Authz.held_error.mpr ⟨e, ha, rfl⟩
  rw [authz_escaped] at hh
  rw [← hh]
  rfl

end Raised

/-- An exception that a place lets pass, though groups that delivered it would be seen through. -/
def Twofold (honoured : Exn → Bool) (e : Exn) : Prop :=
  honoured e = true ∧ (exceptions e).length = 1

def EndsIn {α : Type} (p : Place) (e : Exn) (ending : Except Exn α) : Prop :=
  ∃ exc, ending = .error exc ∧ p.Answers (delivered p.honoured e) exc

/-- Raising an exception inside groups comes to what raising it comes to, wherever it is raised. -/
structure SeenThrough (ρ κ σ υ γ : Type) (names : List String) (e : Exn) : Prop where
  extract : ¬ Twofold Exn.isBetterAuth e →
    ∀ (v u : Dispatch.Verifier ρ κ σ υ) (connection : ρ), v.className = u.className →
      v.extract connection = .error (wrapped names e) → u.extract connection = .error e →
      v.extracted connection = u.extracted connection ∧
        EndsIn (extracting u.className) e (u.extracted connection)
  verify : ¬ Twofold Exn.isLibrary e →
    ∀ (v u : Dispatch.Verifier ρ κ σ υ) (credential : κ) (userModel : Dispatch.UserModel υ),
      v.className = u.className → v.Raises credential userModel (wrapped names e) →
      u.Raises credential userModel e →
      v.verified credential userModel = u.verified credential userModel ∧
        EndsIn (verifying u.className) e (u.verified credential userModel)
  predicate : ¬ Twofold Exn.isLibrary e →
    ∀ (rule bare : Authz.Predicate υ) (session : Session υ),
      rule session = .error (wrapped names e) → bare session = .error e →
      Authz.permitted rule session = Authz.permitted bare session ∧
        EndsIn (asking Authz.predicateName) e (Authz.permitted bare session)
  lookup : ¬ Twofold Exn.isLibrary e →
    ∀ (member bare : Authz.Member υ γ) (resourceId : Str) (session : Session υ)
      (calls : List (Authz.Lookup υ)),
      Authz.LookupRaises member resourceId session (wrapped names e) →
      Authz.LookupRaises bare resourceId session e →
      exec (Authz.granted member resourceId session) calls =
          exec (Authz.granted bare resourceId session) calls ∧
        EndsIn (asking Authz.lookupName) e (exec (Authz.granted bare resourceId session) calls).1

structure Refused (ρ κ σ υ γ : Type) (names : List String) (group : Exn) : Prop where
  extract : ∀ (v : Dispatch.Verifier ρ κ σ υ) (connection : ρ),
    v.extract connection = .error (wrapped names group) →
    v.extracted connection = .error (Dispatch.contained group v.className "extract")
  verify : ∀ (v : Dispatch.Verifier ρ κ σ υ) (credential : κ) (userModel : Dispatch.UserModel υ),
    v.Raises credential userModel (wrapped names group) →
    v.verified credential userModel = .error (Dispatch.contained group v.className "verify")
  predicate : ∀ (rule : Authz.Predicate υ) (session : Session υ),
    rule session = .error (wrapped names group) →
    Authz.permitted rule session = .error (Authz.contained group Authz.predicateName)
  lookup : ∀ (member : Authz.Member υ γ) (resourceId : Str) (session : Session υ)
    (calls : List (Authz.Lookup υ)),
    Authz.LookupRaises member resourceId session (wrapped names group) →
    (exec (Authz.granted member resourceId session) calls).1 =
      .error (Authz.contained group Authz.lookupName)

theorem seenThrough (names : List String) (e : Exn) : SeenThrough ρ κ σ υ γ names e := by
  have plain : ∀ name exceptions, Exn.isLibrary (.group name exceptions) = false := fun _ _ => rfl
  constructor
  · intro hn v u connection hname hv hu
    have ho : (extracting u.className).outcome (wrapped names e) =
        (extracting u.className).outcome e := Place.outcome_wrapped (fun _ _ => rfl) hn
    rw [extracted_raised hv, extracted_raised hu, hname, ho]
    exact ⟨rfl, _, rfl, Place.outcome_answers e⟩
  · intro hn v u credential userModel hname hv hu
    have ho : (verifying u.className).outcome (wrapped names e) =
        (verifying u.className).outcome e := Place.outcome_wrapped plain hn
    rw [verified_raised hv, verified_raised hu, hname, ho]
    exact ⟨rfl, _, rfl, Place.outcome_answers e⟩
  · intro hn rule bare session hr hb
    have ho : (asking Authz.predicateName).outcome (wrapped names e) =
        (asking Authz.predicateName).outcome e := Place.outcome_wrapped plain hn
    rw [permitted_raised hr, permitted_raised hb, ho]
    exact ⟨rfl, _, rfl, Place.outcome_answers e⟩
  · intro hn member bare resourceId session calls hm hb
    have ho : (asking Authz.lookupName).outcome (wrapped names e) =
        (asking Authz.lookupName).outcome e := Place.outcome_wrapped plain hn
    rw [granted_raised hm, granted_raised hb, ho]
    exact ⟨rfl, _, rfl, Place.outcome_answers e⟩

theorem refused (names : List String) (name : String) {members : List Exn}
    (h : members.length ≠ 1) : Refused ρ κ σ υ γ names (.group name members) := by
  have plain : ∀ name exceptions, Exn.isLibrary (.group name exceptions) = false := fun _ _ => rfl
  constructor
  · intro v connection hv
    rw [extracted_raised hv, Place.outcome_several (fun _ _ => rfl) h, extracting]
  · intro v credential userModel hv
    rw [verified_raised hv, Place.outcome_several plain h, verifying]
  · intro rule session hr
    rw [permitted_raised hr, Place.outcome_several plain h, asking]
  · intro member resourceId session calls hm
    rw [granted_raised hm, Place.outcome_several plain h, asking]

/-- Groups with one member each are seen through, and a group of several is nobody's answer. -/
theorem groups_transparent (ρ κ σ υ γ : Type) (names : List String) :
    (∀ e, SeenThrough ρ κ σ υ γ names e) ∧
      ∀ name members, 2 ≤ members.length → Refused ρ κ σ υ γ names (.group name members) := by
  refine ⟨seenThrough names, fun name members hm => refused names name ?_⟩
  omega

section Sample

def configurationGroup (exceptions : List Exn) : Exn :=
  .betterAuth .configuration "ConfigurationGroup" "unusable" exceptions

def raising (e : Exn) : Authz.Predicate Payload := fun _ => .error e

end Sample

/-- An error that is a group too passes bare, and is seen through or kept under one more group. -/
theorem groups_of_errors :
    (¬ ∀ (names : List String) (e : Exn) (rule bare : Authz.Predicate Payload)
        (session : Session Payload), rule session = .error (wrapped names e) →
        bare session = .error e → Authz.permitted rule session = Authz.permitted bare session) ∧
      ∀ reason, Authz.permitted (raising (wrapped ["ExceptionGroup"]
          (configurationGroup [.other "ValueError", .other "KeyError"]))) FailClosed.sampleSession ≠
        .error (notAuthorized reason) := by
  constructor
  · intro h
    have he := h ["ExceptionGroup"] (configurationGroup [.other "ValueError"]) (raising _)
      (raising _) FailClosed.sampleSession rfl rfl
    rw [permitted_raised rfl, permitted_raised rfl] at he
    cases he
  · intro reason h
    rw [permitted_raised rfl] at h
    cases h

end BetterAuthBridge.TaskGroups
