import BetterAuthBridge.Library.Words
import BetterAuthBridge.Signing

namespace BetterAuthBridge.SharedSecrets

open Library.Text Library.Words Values Errors Models Signing

def betterAuthDefaultSecret : String := "better-auth-secret-12345678901234567890"

def minSecretLength : Nat := 32

def placeholderSecrets : List Text :=
  [betterAuthDefaultSecret, "change-me", "changeme", "credential", "default", "example", "password",
    "placeholder", "secret", "supersecret", "test", "todo", "your-secret",
    "your-secret-here"].map String.toList

def isSpacePoint : CodePoint → Bool
  | .char c => isSpace c
  | .surrogate _ => false

def stripped (value : Str) : Str := trim isSpacePoint value

def repeatingUnit (value : Str) : Str :=
  let period := find (value ++ value) value 1
  if value.length ≤ period then value else slice value period

def refusal (value : Str) : Option String :=
  if stripped value = [] then some "is empty. Set it to your Better Auth server's `secret`."
  else if value ≠ stripped value then some
    ("has leading or trailing whitespace. Strip it: the Node side does not, so the two would compute"
      ++ " different HMACs over the same request and every session would fail to verify with nothing"
      ++ " to see.")
  else match encodable value with
    | none => some
      ("cannot be encoded as UTF-8, so it has no bytes to HMAC with and could never match what the"
        ++ " Node side computes. A lone surrogate is what an undecodable byte in the environment looks"
        ++ " like by the time os.environ hands it over; read the secret from a source whose encoding"
        ++ " you control.")
    | some text =>
      let unit := (repeatingUnit value).length
      if casefold text ∈ placeholderSecrets then some
        ("is a known placeholder secret, so anyone can forge a session for this deployment. Generate"
          ++ " a real one with `openssl rand -base64 32` and set it on both sides.")
      else if value.length < minSecretLength then some
        (s!"is {value.length} characters; at least {minSecretLength} are required. Upstream only"
          ++ " warns below that; a bridge that cannot vouch for a secret does not carry it.")
      else if unit < minSecretLength then some
        (s!"repeats a {unit}-character unit, so its strength is that unit's however long the whole"
          ++ s!" value is. Use {minSecretLength} or more characters that are not a repetition.")
      else none

/-- `str.encode("utf-8", "replace")` sends a question mark for what it cannot encode. -/
def replaced (value : Str) : Text :=
  value.map fun
    | .char c => c
    | .surrogate _ => '?'

def typeName : Value → String
  | .none => "NoneType"
  | .bool _ => "bool"
  | .int _ => "int"
  | .float _ => "float"
  | .str _ => "str"
  | .datetime _ => "datetime"
  | .list _ => "list"
  | .dict _ => "dict"
  | .object className => className

def accepted (R : Runtime) : Value → Except Exn Str
  | .str value =>
    match refusal value with
    | none => pure value
    | some refusal =>
      throw (configurationError s!"SharedSecret({fingerprint R (replaced value)}) {refusal}")
  | value => throw (configurationError
      ("SharedSecret must be a str holding the same value your Better Auth server's `secret` is set"
        ++ s!" to; got {typeName value}."))

def init (R : Runtime) (value : Value) : Except Exn SharedSecret := do
  let accepted ← accepted R value
  return ⟨(encodable accepted).getD []⟩

variable {R : Runtime} {value : Str} {text : Text} {secret : SharedSecret}

/-- The shortest period of a value is where it first stands again in its double. -/
theorem repeatingUnit_isRoot (h : value ≠ []) : IsRoot (repeatingUnit value) value := by
  have hlen := List.length_pos_of_ne_nil h
  have hself : value <+: (value ++ value).drop value.length :=
    (prefix_drop_double le_rfl).mpr value.rotate_length
  have hstands : ∃ i, 1 ≤ i ∧ i ≤ (value ++ value).length ∧ value <+: (value ++ value).drop i := by
    refine ⟨value.length, hlen, ?_, hself⟩
    rw [List.length_append]
    exact Nat.le_add_left _ _
  obtain ⟨period, hf, hp, hpre, hmin⟩ := find_of_exists hstands
  have hle : period ≤ value.length := hmin _ hlen hself
  have hroot : IsRoot (value.take period) value := by
    apply isRoot_of_least h hp ((prefix_drop_double hle).mp hpre)
    intro i hi hr
    by_cases hil : i ≤ value.length
    · exact hmin i hi ((prefix_drop_double hil).mpr hr)
    · omega
  rw [repeatingUnit, hf]
  split
  · rename_i hge
    rwa [List.take_of_length_le (by omega)] at hroot
  · rwa [slice_of_nonneg (Int.natCast_nonneg _), Int.toNat_natCast]

structure Strong (value : Str) : Prop where
  nonblank : Str.blank value = false
  unpadded : stripped value = value
  named : ∃ text, value = ofText text ∧
    ∀ placeholder ∈ placeholderSecrets, casefold text ≠ casefold placeholder
  long : minSecretLength ≤ value.length
  unrepeated : ∀ unit n, 0 < n → value = power unit n → minSecretLength ≤ unit.length

theorem stripped_eq_nil : stripped value = [] ↔ Str.blank value = true := by
  rw [stripped, trim_eq_nil_iff, Str.blank, List.all_eq_true]
  apply forall₂_congr
  intro c _
  cases c <;> rfl

theorem casefold_placeholder {placeholder : Text} (h : placeholder ∈ placeholderSecrets) :
    casefold placeholder = placeholder := by
  have hfolded : (placeholderSecrets.all fun p => casefold p == p) = true := by decide
  exact beq_iff_eq.mp (List.all_eq_true.mp hfolded placeholder h)

theorem not_placeholder_iff : casefold text ∉ placeholderSecrets ↔
    ∀ placeholder ∈ placeholderSecrets, casefold text ≠ casefold placeholder := by
  constructor
  · intro h placeholder hp he
    rw [casefold_placeholder hp] at he
    exact h (he ▸ hp)
  · intro h hp
    exact h _ hp (casefold_placeholder hp).symm

/-- No unit that makes up the value is short exactly if the shortest is not. -/
theorem unrepeated_iff (h : value ≠ []) :
    (∀ unit n, 0 < n → value = power unit n → minSecretLength ≤ unit.length) ↔
      minSecretLength ≤ (repeatingUnit value).length := by
  have hroot := repeatingUnit_isRoot h
  constructor
  · intro hall
    obtain ⟨n, hn, he⟩ := hroot.repeats
    exact hall _ n hn he
  · intro hle unit n hn he
    exact hle.trans (hroot.least unit n hn he)

theorem refusal_eq_none : refusal value = none ↔ Strong value := by
  rw [refusal]
  by_cases hblank : stripped value = []
  · rw [if_pos hblank]
    refine iff_of_false nofun fun h => ?_
    have hb := h.nonblank
    rw [stripped_eq_nil.mp hblank] at hb
    cases hb
  have hne : value ≠ [] := by
    rintro rfl
    exact hblank rfl
  rw [if_neg hblank]
  by_cases hpadded : value = stripped value
  · rw [if_neg (not_not.mpr hpadded)]
    cases he : encodable value with
    | none =>
      refine iff_of_false nofun fun h => ?_
      obtain ⟨text, rfl, -⟩ := h.named
      rw [encodable_ofText] at he
      cases he
    | some text =>
      have hv := encodable_eq_some.mp he
      dsimp only
      split_ifs with hnamed hshort hunit
      · refine iff_of_false nofun fun h => ?_
        obtain ⟨text', ht, hn⟩ := h.named
        rw [ht, encodable_ofText] at he
        obtain rfl := Option.some.inj he
        exact not_placeholder_iff.mpr hn hnamed
      · exact iff_of_false nofun fun h => absurd h.long (not_le.mpr hshort)
      · refine iff_of_false nofun fun h => ?_
        exact absurd ((unrepeated_iff hne).mp h.unrepeated) (not_le.mpr hunit)
      · refine iff_of_true rfl ⟨?_, hpadded.symm, ⟨text, hv, not_placeholder_iff.mp hnamed⟩,
          not_lt.mp hshort, (unrepeated_iff hne).mpr (not_lt.mp hunit)⟩
        rw [Bool.eq_false_iff]
        exact fun hb => hblank (stripped_eq_nil.mpr hb)
  · rw [if_pos hpadded]
    exact iff_of_false nofun fun h => hpadded h.unpadded.symm

theorem accepted_ok {given : Value} :
    accepted R given = .ok value ↔ given = .str value ∧ Strong value := by
  rw [← refusal_eq_none]
  cases given with
  | str s =>
    rw [accepted, Value.str.injEq]
    cases hr : refusal s with
    | none =>
      constructor
      · intro h
        obtain rfl := Except.ok.inj h
        exact ⟨rfl, hr⟩
      · rintro ⟨rfl, -⟩
        rfl
    | some reason =>
      refine iff_of_false nofun ?_
      rintro ⟨rfl, h⟩
      cases hr.symm.trans h
  | _ => exact iff_of_false nofun nofun

theorem init_ok {given : Value} :
    init R given = .ok secret ↔ given = .str (ofText secret.value) ∧ Strong (ofText secret.value) := by
  rw [init, bind_eq_ok]
  constructor
  · rintro ⟨value, ha, hs⟩
    obtain ⟨rfl, hstrong⟩ := accepted_ok.mp ha
    obtain ⟨text, rfl, -⟩ := hstrong.named
    rw [encodable_ofText] at hs
    obtain rfl := Except.ok.inj hs
    exact ⟨rfl, hstrong⟩
  · rintro ⟨rfl, hstrong⟩
    refine ⟨_, accepted_ok.mpr ⟨rfl, hstrong⟩, ?_⟩
    rw [encodable_ofText]
    rfl

theorem accepted_error {given : Value} {exc : Exn} (h : accepted R given = .error exc) :
    ∃ message, exc = configurationError message := by
  cases given with
  | str s =>
    rw [accepted] at h
    cases hr : refusal s with
    | none =>
      rw [hr] at h
      cases h
    | some reason =>
      rw [hr] at h
      exact ⟨_, (Except.error.inj h).symm⟩
  | _ => exact ⟨_, (Except.error.inj h).symm⟩

theorem init_error {given : Value} {exc : Exn} (h : init R given = .error exc) :
    ∃ message, exc = configurationError message := by
  rw [init, bind_eq_error] at h
  obtain ha | ⟨_, _, h⟩ := h
  · exact accepted_error ha
  · cases h

/-- A value becomes a secret exactly if it is strong, and then the secret is that value. -/
structure Judged (R : Runtime) : Prop where
  unit : ∀ value : Str, value ≠ [] → IsRoot (repeatingUnit value) value
  constructed : ∀ value : Str, (∃ secret, init R (.str value) = .ok secret) ↔ Strong value
  carried : ∀ given secret, init R given = .ok secret → given = .str (ofText secret.value)
  refused : ∀ given exc, init R given = .error exc → ∃ message, exc = configurationError message

theorem secrets_judged (R : Runtime) : Judged R := by
  constructor
  · intro value h
    exact repeatingUnit_isRoot h
  · intro value
    constructor
    · rintro ⟨secret, h⟩
      obtain ⟨hv, hstrong⟩ := init_ok.mp h
      obtain rfl := Value.str.inj hv
      exact hstrong
    · intro h
      obtain ⟨text, rfl, -⟩ := h.named
      exact ⟨⟨text⟩, init_ok.mpr ⟨rfl, h⟩⟩
  · intro given secret h
    exact (init_ok.mp h).1
  · intro given exc h
    exact init_error h

end BetterAuthBridge.SharedSecrets
