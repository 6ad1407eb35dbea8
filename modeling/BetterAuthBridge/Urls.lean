import BetterAuthBridge.Models

namespace BetterAuthBridge.Urls

open Values Errors

/-- What an operator passes for a setting: a string, or an object of another type. -/
inductive Setting
  | text (t : Text)
  | other (typeName rendered : String)

def Setting.rendered (R : Runtime) : Setting → String
  | text t => R.repr t
  | other _ rendered => rendered

structure SplitResult where
  scheme : Text
  username : Option Text
  password : Option Text
  hostname : Option Text
  port : Option Nat
  path : Text
  query : Text
  fragment : Text

structure IpAddress where
  compressed : Text
  isLoopback : Bool
  ipv4Mapped : Option Text

/-- `urllib.parse.urlsplit` and `ipaddress.ip_address`, `none` where they, or the port of a split
result, raise `ValueError`. -/
structure UrlLibrary where
  urlsplit : Text → Option SplitResult
  ipAddress : Text → Option IpAddress

def allowedSchemes : List Text := ["https".toList, "http".toList]

def defaultPort (scheme : Text) : Nat := if scheme = "https".toList then 443 else 80

def maxHostLength : Nat := 253

def hostChar (c : Char) : Bool := c.isDigit || ('a' ≤ c && c ≤ 'z') || c == '-'

def isLabel (label : Text) : Bool :=
  Models.fullmatch hostChar 63 label && label.head? != some '-' && label.getLast? != some '-'

def isHostname (host : Text) : Bool := (host.splitOn '.').all isLabel

def removeDot (host : Text) : Text := if host.getLast? = some '.' then host.dropLast else host

def isControl (c : Char) : Bool := isSpace c || c.toNat < 32 || c.toNat == 127

variable (R : Runtime) (U : UrlLibrary)

def shownExample : String := R.repr "https://auth.example.com".toList

def asText (value : Setting) (field : String) : Except Exn Text :=
  match value with
  | .other typeName _ => throw (configurationError (s!"{field} must be a string; got {typeName}."
      ++ s!" Pass an origin such as {shownExample R}."))
  | .text value =>
    let text := strip value
    if text.any isControl then throw (configurationError
      (s!"{field} must not contain whitespace or control characters."
        ++ s!" Pass an origin such as {shownExample R}."))
    else pure text

def splitted (text : Text) (field : String) : Except Exn SplitResult :=
  match U.urlsplit text with
  | some split => pure split
  | none => throw (configurationError
      s!"{field} is not a usable URL. Pass an origin such as {shownExample R}.")

def schemeOf (split : SplitResult) (field : String) : Except Exn Text :=
  if split.scheme = [] then throw (configurationError
    (s!"{field} must include a scheme. Pass an origin such as {shownExample R}, not a bare"
      ++ " host."))
  else if split.scheme ∉ allowedSchemes then throw (configurationError
    (s!"{field} must use the https or http scheme; got {R.repr split.scheme}."
      ++ s!" Pass an origin such as {shownExample R}."))
  else pure split.scheme

def rejectUserinfo (split : SplitResult) (field : String) : Except Exn Unit :=
  if split.username ≠ none ∨ split.password ≠ none then throw (configurationError
    s!"{field} must not carry credentials in the URL. Pass an origin such as {shownExample R}.")
  else pure ()

def ipLiteral (raw : Text) (field : String) : Except Exn IpAddress :=
  let unusable := configurationError (s!"{field} has an unusable IPv6 host. Pass a bracketed"
    ++ " literal such as 'https://[::1]', with no zone identifier.")
  if '%' ∈ raw then throw unusable
  else
    match U.ipAddress raw with
    | none => throw unusable
    | some address =>
      match address.ipv4Mapped with
      | some mapped => throw (configurationError (s!"{field} must not use an IPv4-mapped IPv6 host:"
          ++ " CPython renders it - and answers is_loopback for it - differently before and after"
          ++ " 3.13, so the canonical origin would change under a Python upgrade and stop matching"
          ++ s!" the issuer it is compared against. Pass 'https://{String.ofList mapped}' instead."))
      | none => pure address

def canonicalHost (split : SplitResult) (field : String) : Except Exn (Text × Bool) :=
  match split.hostname.getD [] with
  | [] => throw (configurationError
      s!"{field} must include a host. Pass an origin such as {shownExample R}.")
  | raw =>
    if ':' ∈ raw then do
      let address ← ipLiteral U raw field
      return ('[' :: address.compressed ++ [']'], address.isLoopback)
    else if raw.all isAscii = false then throw (configurationError
      (s!"{field} must have an ASCII host. Several Unicode characters are IDNA label"
        ++ " separators, so a non-ASCII host can be fetched from a different domain than"
        ++ " the one it reads as. Pass the punycode ('xn--') form."))
    else
      let host := removeDot raw
      match U.ipAddress host with
      | some address => pure (address.compressed, address.isLoopback)
      | none =>
        if isHostname host = false ∨ maxHostLength < host.length then throw (configurationError
          (s!"{field} has an unusable host {R.repr host}. A host is letters, digits, hyphens"
            ++ s!" and dots, or an IP literal. Pass an origin such as {shownExample R}."))
        else pure (host, host = "localhost".toList)

def portOf (split : SplitResult) (scheme : Text) (field : String) : Except Exn Text :=
  match split.port with
  | none => pure []
  | some port =>
    if port = defaultPort scheme then pure []
    else if port = 0 then throw (configurationError
      s!"{field} must not use port 0, which is not a port anything can be reached on.")
    else pure (':' :: Nat.toDigits 10 port)

def rejectExtras (split : SplitResult) (origin : Text) (field : String) : Except Exn Unit :=
  if split.path ≠ [] ∧ split.path ≠ ['/'] then throw (configurationError
    (s!"{field} must be an origin with no path; got the path {R.repr split.path}."
      ++ s!" Pass {R.repr origin}."))
  else if split.query ≠ [] then throw (configurationError
    s!"{field} must be an origin with no query string. Pass {R.repr origin}.")
  else if split.fragment ≠ [] then throw (configurationError
    s!"{field} must be an origin with no fragment. Pass {R.repr origin}.")
  else pure ()

def normalizeBaseUrl (value : Setting) (field : String) : Except Exn Text := do
  let text ← asText R value field
  let split ← splitted R U text field
  let scheme ← schemeOf R split field
  rejectUserinfo R split field
  let (host, loopback) ← canonicalHost R U split field
  if scheme = "http".toList ∧ loopback = false then
    throw (configurationError (s!"{field} uses http for {R.repr host}. A key set or session fetched"
      ++ " over cleartext can be replaced by anyone on the network path, and a substituted key set"
      ++ " is a complete authentication bypass. http is accepted only for a loopback host"
      ++ " (localhost, 127.0.0.0/8, ::1); use https for anything else."))
  let port ← portOf split scheme field
  let origin := scheme ++ "://".toList ++ host ++ port
  rejectExtras R split origin field
  return origin

variable {R U} {value : Setting} {field : String} {split : SplitResult} {origin raw host : Text}
  {loopback : Bool}

theorem asText_ok {text : Text} : asText R value field = .ok text ↔
    ∃ given, value = .text given ∧ strip given = text ∧ text.any isControl = false := by
  cases value with
  | other typeName rendered =>
    refine ⟨nofun, ?_⟩
    rintro ⟨given, he, -⟩
    cases he
  | text given =>
    simp only [asText, Setting.text.injEq, exists_eq_left']
    by_cases hc : (strip given).any isControl = true
    · rw [if_pos hc]
      refine ⟨nofun, ?_⟩
      rintro ⟨rfl, hn⟩
      rw [hc] at hn
      cases hn
    · rw [if_neg hc, pure_eq_ok, Except.ok.injEq]
      refine ⟨fun h => ⟨h, h ▸ eq_false_of_ne_true hc⟩, fun h => h.1⟩

theorem splitted_ok {text : Text} :
    splitted R U text field = .ok split ↔ U.urlsplit text = some split := by
  rw [splitted]
  cases U.urlsplit text with
  | none => exact ⟨nofun, nofun⟩
  | some found => simp

theorem schemeOf_ok {scheme : Text} :
    schemeOf R split field = .ok scheme ↔ split.scheme = scheme ∧ scheme ∈ allowedSchemes := by
  by_cases he : split.scheme = []
  · rw [schemeOf, if_pos he]
    refine ⟨nofun, ?_⟩
    rintro ⟨rfl, hm⟩
    rw [he] at hm
    exact absurd hm (by decide)
  · by_cases hm : split.scheme ∈ allowedSchemes
    · rw [schemeOf, if_neg he, if_neg (not_not.mpr hm), pure_eq_ok, Except.ok.injEq]
      exact ⟨fun h => ⟨h, h ▸ hm⟩, fun h => h.1⟩
    · rw [schemeOf, if_neg he, if_pos hm]
      refine ⟨nofun, ?_⟩
      rintro ⟨rfl, h⟩
      exact (hm h).elim

theorem rejectUserinfo_ok {u : Unit} :
    rejectUserinfo R split field = .ok u ↔ split.username = none ∧ split.password = none := by
  rw [rejectUserinfo]
  split
  · rename_i h
    exact ⟨nofun, fun hn => (h.elim (· hn.1) (· hn.2)).elim⟩
  · rename_i h
    rw [not_or, not_not, not_not] at h
    exact ⟨fun _ => h, fun _ => rfl⟩

theorem ipLiteral_ok {address : IpAddress} : ipLiteral U raw field = .ok address ↔
    '%' ∉ raw ∧ U.ipAddress raw = some address ∧ address.ipv4Mapped = none := by
  rw [ipLiteral]
  by_cases hp : '%' ∈ raw
  · simp [hp]
  · cases ha : U.ipAddress raw with
    | none => simp [hp]
    | some found =>
      cases hm : found.ipv4Mapped with
      | none =>
        simp only [hp, if_false, hm, pure_eq_ok, Except.ok.injEq, Option.some.injEq,
          not_false_eq_true, true_and]
        exact ⟨fun h => ⟨h, h ▸ hm⟩, fun h => h.1⟩
      | some mapped =>
        simp only [hp, if_false, hm]
        refine ⟨nofun, ?_⟩
        rintro ⟨-, he, hn⟩
        cases he
        rw [hm] at hn
        cases hn

inductive HostOf (U : UrlLibrary) (raw : Text) : Text → Bool → Prop
  | literal {address : IpAddress} : ':' ∈ raw → '%' ∉ raw → U.ipAddress raw = some address →
      address.ipv4Mapped = none →
      HostOf U raw ('[' :: address.compressed ++ [']']) address.isLoopback
  | address {address : IpAddress} : ':' ∉ raw → raw.all isAscii = true →
      U.ipAddress (removeDot raw) = some address → HostOf U raw address.compressed address.isLoopback
  | name : ':' ∉ raw → raw.all isAscii = true → U.ipAddress (removeDot raw) = none →
      isHostname (removeDot raw) = true → (removeDot raw).length ≤ maxHostLength →
      HostOf U raw (removeDot raw) (removeDot raw = "localhost".toList)

theorem hostOf_literal_iff (hc : ':' ∈ raw) : HostOf U raw host loopback ↔
    ∃ address, ('%' ∉ raw ∧ U.ipAddress raw = some address ∧ address.ipv4Mapped = none) ∧
      '[' :: address.compressed ++ [']'] = host ∧ address.isLoopback = loopback := by
  constructor
  · intro h
    cases h with
    | literal _ hp ha hm => exact ⟨_, ⟨hp, ha, hm⟩, rfl, rfl⟩
    | address hn | name hn => exact (hn hc).elim
  · rintro ⟨address, ⟨hp, ha, hm⟩, rfl, rfl⟩
    exact .literal hc hp ha hm

theorem HostOf.ascii (h : HostOf U raw host loopback) (hc : ':' ∉ raw) :
    raw.all isAscii = true := by
  cases h with
  | literal hn => exact (hc hn).elim
  | address _ ha | name _ ha => exact ha

theorem hostOf_address_iff {address : IpAddress} (hc : ':' ∉ raw) (ha : raw.all isAscii = true)
    (hi : U.ipAddress (removeDot raw) = some address) : HostOf U raw host loopback ↔
      address.compressed = host ∧ address.isLoopback = loopback := by
  constructor
  · intro h
    cases h with
    | literal hn => exact (hc hn).elim
    | address _ _ hi' =>
      cases hi.symm.trans hi'
      exact ⟨rfl, rfl⟩
    | name _ _ hi' => cases hi.symm.trans hi'
  · rintro ⟨rfl, rfl⟩
    exact .address hc ha hi

theorem hostOf_name_iff (hc : ':' ∉ raw) (ha : raw.all isAscii = true)
    (hi : U.ipAddress (removeDot raw) = none) : HostOf U raw host loopback ↔
      (isHostname (removeDot raw) = true ∧ (removeDot raw).length ≤ maxHostLength) ∧
        removeDot raw = host ∧ decide (removeDot raw = "localhost".toList) = loopback := by
  constructor
  · intro h
    cases h with
    | literal hn => exact (hc hn).elim
    | address _ _ hi' => cases hi.symm.trans hi'
    | name _ _ _ hn hlen => exact ⟨⟨hn, hlen⟩, rfl, rfl⟩
  · rintro ⟨⟨hn, hlen⟩, rfl, rfl⟩
    exact .name hc ha hi hn hlen

theorem canonicalHost_ok : canonicalHost R U split field = .ok (host, loopback) ↔
    split.hostname.getD [] ≠ [] ∧ HostOf U (split.hostname.getD []) host loopback := by
  rw [canonicalHost]
  cases hraw : split.hostname.getD [] with
  | nil => exact ⟨nofun, fun h => (h.1 rfl).elim⟩
  | cons c rest =>
    dsimp only
    have hne : c :: rest ≠ [] := List.cons_ne_nil c rest
    generalize c :: rest = raw at hne
    rw [and_iff_right hne]
    by_cases hc : ':' ∈ raw
    · rw [if_pos hc, hostOf_literal_iff hc]
      simp only [bind_eq_ok, ipLiteral_ok, pure_eq_ok, Except.ok.injEq, Prod.mk.injEq]
    · by_cases ha : raw.all isAscii = true
      · rw [if_neg hc, if_neg (by rw [ha]; decide)]
        cases hi : U.ipAddress (removeDot raw) with
        | some address =>
          rw [hostOf_address_iff hc ha hi]
          simp only [pure_eq_ok, Except.ok.injEq, Prod.mk.injEq]
        | none =>
          rw [hostOf_name_iff hc ha hi]
          dsimp only
          by_cases hu : isHostname (removeDot raw) = false ∨ maxHostLength < (removeDot raw).length
          · rw [if_pos hu]
            refine ⟨nofun, fun ⟨⟨hn, hlen⟩, _⟩ => ?_⟩
            obtain hu | hu := hu
            · rw [hn] at hu
              cases hu
            · exact (hu.not_ge hlen).elim
          · rw [if_neg hu, pure_eq_ok, Except.ok.injEq, Prod.mk.injEq]
            rw [not_or, Bool.not_eq_false, not_lt] at hu
            rw [and_iff_right hu]
      · simp only [hc, ha, if_false, if_true]
        exact ⟨nofun, fun h => (ha (h.ascii hc)).elim⟩

def PortOf (port : Option Nat) (scheme shown : Text) : Prop :=
  (port.getD (defaultPort scheme) = defaultPort scheme ∧ shown = []) ∨
    ∃ n, port = some n ∧ n ≠ defaultPort scheme ∧ n ≠ 0 ∧ shown = ':' :: Nat.toDigits 10 n

theorem portOf_ok {scheme shown : Text} :
    portOf split scheme field = .ok shown ↔ PortOf split.port scheme shown := by
  rw [portOf, PortOf]
  cases split.port with
  | none => simp [eq_comm]
  | some n =>
    by_cases hd : n = defaultPort scheme
    · simp [hd, eq_comm]
    · by_cases hz : n = 0
      · subst hz
        simp [hd]
      · simp [hd, hz, eq_comm]

theorem rejectExtras_ok {u : Unit} : rejectExtras R split origin field = .ok u ↔
    (split.path = [] ∨ split.path = ['/']) ∧ split.query = [] ∧ split.fragment = [] := by
  rw [rejectExtras]
  by_cases hp : split.path = [] ∨ split.path = ['/']
  · rw [if_neg (by rw [← not_or]; exact not_not.mpr hp)]
    by_cases hq : split.query = []
    · by_cases hf : split.fragment = []
      · simp [hp, hq, hf]
      · simp [hp, hq, hf]
    · simp [hq]
  · rw [if_pos (not_or.mp hp)]
    exact ⟨nofun, fun h => (hp h.1).elim⟩

structure Normalizes (U : UrlLibrary) (given origin : Text) (split : SplitResult) (host : Text)
    (loopback : Bool) (port : Text) : Prop where
  printable : (strip given).any isControl = false
  parsed : U.urlsplit (strip given) = some split
  allowed : split.scheme ∈ allowedSchemes
  anonymous : split.username = none ∧ split.password = none
  hosted : split.hostname.getD [] ≠ [] ∧ HostOf U (split.hostname.getD []) host loopback
  sealed : split.scheme = "http".toList → loopback = true
  reached : PortOf split.port split.scheme port
  bare : (split.path = [] ∨ split.path = ['/']) ∧ split.query = [] ∧ split.fragment = []
  spelled : origin = split.scheme ++ "://".toList ++ host ++ port

theorem normalizeBaseUrl_ok : normalizeBaseUrl R U value field = .ok origin ↔
    ∃ given split host loopback port, value = .text given ∧
      Normalizes U given origin split host loopback port := by
  simp only [normalizeBaseUrl, bind_eq_ok, asText_ok, splitted_ok, schemeOf_ok, rejectUserinfo_ok,
    Prod.exists, canonicalHost_ok]
  constructor
  · rintro ⟨text, ⟨given, rfl, rfl, hc⟩, split, hs, scheme, ⟨rfl, hm⟩, ⟨⟩, hu, host, loopback, hh, h⟩
    split at h
    · cases h
    · rename_i hl
      simp only [pure_eq_ok, bind_eq_ok, portOf_ok, rejectExtras_ok, Except.ok.injEq] at h
      obtain ⟨port, hp, -, hb, rfl⟩ := h
      refine ⟨given, split, host, loopback, port, rfl, hc, hs, hm, hu, hh, ?_, hp, hb, rfl⟩
      intro he
      by_contra hn
      exact hl ⟨he, eq_false_of_ne_true hn⟩
  · rintro ⟨given, split, host, loopback, port, rfl, h⟩
    refine ⟨_, ⟨given, rfl, rfl, h.printable⟩, split, h.parsed, _, ⟨rfl, h.allowed⟩, (), h.anonymous,
      host, loopback, h.hosted, ?_⟩
    rw [if_neg (fun hn => by rw [h.sealed hn.1] at hn; cases hn.2)]
    simp only [pure_eq_ok, bind_eq_ok, portOf_ok, rejectExtras_ok, Except.ok.injEq]
    exact ⟨port, h.reached, (), h.bare, h.spelled.symm⟩

theorem normalizeBaseUrl_field (h : normalizeBaseUrl R U value field = .ok origin) (field' : String) :
    normalizeBaseUrl R U value field' = .ok origin :=
  normalizeBaseUrl_ok.mpr (normalizeBaseUrl_ok.mp h)

theorem not_blank_of_normalizeBaseUrl (h : normalizeBaseUrl R U value field = .ok origin) :
    blank origin = false := by
  obtain ⟨given, split, host, loopback, port, -, hn⟩ := normalizeBaseUrl_ok.mp h
  have hall : ∀ scheme ∈ allowedSchemes, blank scheme = false := by decide
  have hs := hall split.scheme hn.allowed
  simp only [hn.spelled, blank, List.all_append] at hs ⊢
  rw [hs]
  simp only [Bool.false_and]

end BetterAuthBridge.Urls
