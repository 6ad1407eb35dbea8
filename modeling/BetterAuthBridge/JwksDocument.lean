import BetterAuthBridge.Library.Failure
import BetterAuthBridge.Library.Ordered
import BetterAuthBridge.RemoteResponse

namespace BetterAuthBridge.JwksDocument

open Library Library.Text Values Errors Models RemoteResponse

variable {κ : Type}

inductive Loader
  | okp
  | ec
  | rsa
  deriving DecidableEq

def loaders : List (String × Loader) :=
  [("EdDSA", .okp), ("ES256", .ec), ("ES512", .ec), ("PS256", .rsa), ("RS256", .rsa)]

def minRsaKeyBits : Int := 2048

/-- PyJWT's key classes: what `from_jwk` loads (`none` where it raises), and the `key_size` of a
loaded key, 0 where it has none. -/
structure KeyLibrary (κ : Type) where
  fromJwk : Loader → Payload → Option κ
  keySize : κ → Int

structure Jwk (κ : Type) where
  kid : Str
  algorithm : Str
  key : κ
  jwk : Payload

abbrev KeySet (κ : Type) := Ordered.Table Str (Jwk κ)

structure Reader (κ : Type) where
  uri : String
  algorithms : List Str
  maxKeys : Nat
  library : KeyLibrary κ

def jwksMediaTypes : List Text := [jsonMediaType, "application/jwk-set+json".toList]

def notForVerifying (published : Payload) : Option String :=
  let isText (text : String) : Value → Bool
    | .str s => s = ofString text
    | _ => false
  let usable := (published.lookup (ofString "use")).all (isText "sig")
  let operable := (published.lookup (ofString "key_ops")).all fun
    | .list operations => operations.any (isText "verify")
    | _ => false
  if !usable then some "use" else if !operable then some "key_ops" else none

namespace Reader

variable (r : Reader κ)

def unusable (why : String) : Exn :=
  authServiceUnavailable s!"jwks at {r.uri} is unusable: {why}"

def loaded (loader : Loader) (published : Payload) (kid : Str) : Except Exn κ :=
  match r.library.fromJwk loader published with
  | some key => pure key
  | none => throw (r.unusable s!"key {safeLabel kid} did not load")

/-- One entry of a key set; keys that are not ours, repeat a kid, are not for signatures or are too
short are left out. -/
def collect (keys : KeySet κ) (entry : Value) : Except Exn (KeySet κ) :=
  match entry with
  | .dict published =>
    match Payload.get published "kid", Payload.get published "alg" with
    | .str kid, algorithm =>
      if kid.blank then throw (r.unusable "one of its keys has no usable 'kid'")
      else
        match algorithm with
        | .str algorithm =>
          if algorithm = [] then throw (r.unusable s!"key {safeLabel kid} declares no 'alg'")
          else
            match loaders.find? fun l => ofString l.1 = algorithm with
            | none => pure keys
            | some (_, loader) =>
              if algorithm ∉ r.algorithms then pure keys
              else if (Ordered.get keys kid).isSome then pure keys
              else if (notForVerifying published).isSome then pure keys
              else do
                let key ← r.loaded loader published kid
                if loader = .rsa ∧ r.library.keySize key < minRsaKeyBits then pure keys
                else pure (Ordered.set keys kid ⟨kid, algorithm, key, published⟩)
        | _ => throw (r.unusable s!"key {safeLabel kid} declares no 'alg'")
    | _, _ => throw (r.unusable "one of its keys has no usable 'kid'")
  | _ => throw (r.unusable "one of its keys is not an object")

def checkAnswer (response : TransportResponse) : Except Exn Unit :=
  if response.statusCode ≠ 200 then
    throw (authServiceUnavailable s!"jwks answered {response.statusCode} from {r.uri}")
  else if mediaType response ∉ jwksMediaTypes then
    throw (r.unusable s!"it is served as {safeLabel (ofText (mediaType response))}, not JSON")
  else pure ()

variable (R : Runtime)

def document (response : TransportResponse) : Except Exn Payload :=
  match R.loads (.bytes response.content) with
  | none => throw (r.unusable "it is not JSON")
  | some (.dict parsed) => pure parsed
  | some _ => throw (r.unusable "it is not a JSON object")

def parsed (response : TransportResponse) : Except Exn (KeySet κ) := do
  r.checkAnswer response
  let document ← r.document R response
  match Payload.get document "keys" with
  | .list entries =>
    if r.maxKeys < entries.length then throw (r.unusable
      s!"it carries {entries.length} keys, over the {r.maxKeys} cap")
    else entries.foldlM r.collect []
  | _ => throw (r.unusable "its 'keys' member is not a list")

/-- The key set of a fetch. A failure that is not the library's own becomes a reachability
failure. -/
def fetched : Answer → Except Exn (KeySet κ)
  | .response response => r.parsed R response
  | .raised exc =>
    if exc.isLibrary then throw exc
    else throw (authServiceUnavailable s!"jwks fetch failed [{exc.className}] {r.uri}")

end Reader

def FailsUnavailable {α : Type} (x : Except Exn α) : Prop :=
  ∀ exc, x = .error exc → exc.isUnavailable = true

section

variable {α β : Type} {x y : Except Exn α}

theorem FailsUnavailable.ok (a : α) : FailsUnavailable (.ok a) := Failure.Fails.ok a

theorem FailsUnavailable.unavailable (reason : String) :
    FailsUnavailable (.error (authServiceUnavailable reason) : Except Exn α) :=
  Failure.Fails.error rfl

theorem FailsUnavailable.ite {p : Prop} [Decidable p] (hx : FailsUnavailable x)
    (hy : FailsUnavailable y) : FailsUnavailable (if p then x else y) :=
  Failure.Fails.ite hx hy

theorem FailsUnavailable.bind {f : α → Except Exn β} (hx : FailsUnavailable x)
    (hf : ∀ a, FailsUnavailable (f a)) : FailsUnavailable (x >>= f) :=
  Failure.Fails.bind hx fun a _ => hf a

theorem FailsUnavailable.foldlM {γ : Type} {f : α → γ → Except Exn α}
    (hf : ∀ a c, FailsUnavailable (f a c)) (l : List γ) (a : α) :
    FailsUnavailable (l.foldlM f a) :=
  Failure.Fails.foldlM hf l a

end

variable {r : Reader κ} {R : Runtime}

theorem collect_fails (keys : KeySet κ) (entry : Value) :
    FailsUnavailable (r.collect keys entry) := by
  cases entry with
  | dict published =>
    cases hk : Payload.get published "kid" with
    | str kid =>
      cases ha : Payload.get published "alg" with
      | str algorithm =>
        simp only [Reader.collect, hk, ha]
        refine .ite (.unavailable _) (.ite (.unavailable _) ?_)
        cases loaders.find? fun l => ofString l.1 = algorithm with
        | none => exact .ok _
        | some l =>
          refine .ite (.ok _) (.ite (.ok _) (.ite (.ok _) (.bind ?_ fun key => ?_)))
          on_goal 2 => exact .ite (.ok _) (.ok _)
          rw [Reader.loaded]
          cases r.library.fromJwk l.2 published with
          | none => exact .unavailable _
          | some key => exact .ok _
      | _ =>
        simp only [Reader.collect, hk, ha]
        exact .ite (.unavailable _) (.unavailable _)
    | _ =>
      simp only [Reader.collect, hk]
      exact .unavailable _
  | _ => exact .unavailable _

theorem parsed_fails (response : TransportResponse) : FailsUnavailable (r.parsed R response) := by
  rw [Reader.parsed]
  refine .bind (.ite (.unavailable _) (.ite (.unavailable _) (.ok _))) fun _ => ?_
  refine .bind ?_ fun document => ?_
  · rw [Reader.document]
    cases R.loads (.bytes response.content) with
    | none => exact .unavailable _
    | some value =>
      cases value with
      | dict parsed => exact .ok _
      | _ => exact .unavailable _
  · cases Payload.get document "keys" with
    | list entries => exact .ite (.unavailable _) (.foldlM collect_fails entries [])
    | _ => exact .unavailable _

/-- A transport that raises nothing of the library's own leaves only one way to fail. -/
theorem fetched_fails {answer : Answer} (h : ∀ exc, answer = .raised exc → exc.isLibrary = false) :
    FailsUnavailable (r.fetched R answer) := by
  cases answer with
  | response response => exact parsed_fails response
  | raised exc =>
    rw [Reader.fetched, h exc rfl]
    exact .unavailable _

theorem fetched_ok {answer : Answer} {keys : KeySet κ} (h : r.fetched R answer = .ok keys) :
    ∃ response, answer = .response response ∧ r.parsed R response = .ok keys := by
  cases answer with
  | response response => exact ⟨response, rfl, h⟩
  | raised exc =>
    rw [Reader.fetched] at h
    by_cases hl : exc.isLibrary = true
    · simp [hl] at h
    · simp [hl] at h

theorem loaded_ok {loader : Loader} {published : Payload} {kid : Str} {key : κ} :
    r.loaded loader published kid = .ok key ↔ r.library.fromJwk loader published = some key := by
  rw [Reader.loaded]
  cases r.library.fromJwk loader published <;> simp

structure Published (r : Reader κ) (entry : Value) (kid : Str) (jwk : Jwk κ) : Prop where
  entry : entry = .dict jwk.jwk
  same : jwk.kid = kid
  named : Payload.get jwk.jwk "kid" = .str kid
  declared : Payload.get jwk.jwk "alg" = .str jwk.algorithm
  allowed : jwk.algorithm ∈ r.algorithms
  loaded : ∃ loader, r.library.fromJwk loader jwk.jwk = some jwk.key

theorem collect_ok {keys keys' : KeySet κ} {entry : Value} (h : r.collect keys entry = .ok keys') :
    keys' = keys ∨ ∃ kid jwk, keys' = Ordered.set keys kid jwk ∧ Published r entry kid jwk := by
  have leftOut : (.ok keys : Except Exn (KeySet κ)) = .ok keys' → keys' = keys := by
    rintro ⟨⟩
    rfl
  unfold Reader.collect at h
  split at h
  · rename_i published
    split at h
    · rename_i hk
      split at h
      · cases h
      · split at h
        · rename_i algorithm ha
          split at h
          · cases h
          · split at h
            · exact .inl (leftOut h)
            · rename_i loader _
              split at h
              · exact .inl (leftOut h)
              · rename_i hmem
                split at h
                · exact .inl (leftOut h)
                · split at h
                  · exact .inl (leftOut h)
                  · obtain ⟨key, hl, hset⟩ := bind_eq_ok.mp h
                    split at hset
                    · exact .inl (leftOut hset)
                    · cases hset
                      exact .inr ⟨_, _, rfl, rfl, rfl, hk, ha, not_not.mp hmem, loader,
                        loaded_ok.mp hl⟩
        · cases h
    · cases h
  · cases h

theorem foldlM_published {entries : List Value} {keys keys' : KeySet κ}
    (h : entries.foldlM r.collect keys = .ok keys') :
    ∀ e ∈ keys', e ∈ keys ∨ ∃ entry ∈ entries, Published r entry e.1 e.2 := by
  induction entries generalizing keys with
  | nil =>
    cases h
    exact fun e he => .inl he
  | cons entry entries ih =>
    rw [List.foldlM_cons] at h
    obtain ⟨mid, hc, hrest⟩ := bind_eq_ok.mp h
    intro e he
    obtain hm | ⟨entry', hmem, hp⟩ := ih hrest e he
    · obtain rfl | ⟨kid, jwk, rfl, hp⟩ := collect_ok hc
      · exact .inl hm
      · obtain rfl | hm := Ordered.mem_of_mem_set hm
        · exact .inr ⟨entry, List.mem_cons_self, hp⟩
        · exact .inl hm
    · exact .inr ⟨entry', List.mem_cons_of_mem entry hmem, hp⟩

/-- The keys of a key set are entries of the document it was read from, under their own kids. -/
theorem parsed_published {response : TransportResponse} {keys : KeySet κ}
    (h : r.parsed R response = .ok keys) :
    ∃ document entries, r.document R response = .ok document ∧
      Payload.get document "keys" = .list entries ∧
      ∀ kid jwk, Ordered.get keys kid = some jwk →
        ∃ entry ∈ entries, Published r entry kid jwk := by
  obtain ⟨-, -, hread⟩ := bind_eq_ok.mp h
  obtain ⟨document, hd, hkeys⟩ := bind_eq_ok.mp hread
  split at hkeys
  · rename_i entries he
    split at hkeys
    · cases hkeys
    · refine ⟨document, entries, hd, he, fun kid jwk hg => ?_⟩
      obtain hn | hp := foldlM_published hkeys _ (Ordered.mem_of_get hg)
      · cases hn
      · exact hp
  · cases hkeys

end BetterAuthBridge.JwksDocument
