import BetterAuthBridge.Library.Text
import BetterAuthBridge.Urls

namespace BetterAuthBridge.Origins

open Library Values Errors Urls

variable {R : Runtime} {U : UrlLibrary} {given origin raw host shown scheme : Text}
  {split : SplitResult} {field : String} {loopback : Bool} {port : Option Nat}

def nameChar (c : Char) : Bool := hostChar c || c == '.'

/-- A character of an IPv6 address in its compressed form. -/
def literalChar (c : Char) : Bool := c.isDigit || ('a' ≤ c && c ≤ 'f') || c == ':'

def dotted (a b c d : Nat) : Text :=
  Nat.toDigits 10 a ++ '.' :: Nat.toDigits 10 b ++ '.' :: Nat.toDigits 10 c ++
    '.' :: Nat.toDigits 10 d

/-- A host as it stands between `//` and the port. -/
inductive Spells (U : UrlLibrary) : Text → Text → Prop
  | name {host : Text} : host ≠ [] → (∀ c ∈ host, nameChar c = true) → Spells U host host
  | literal {host : Text} {address : IpAddress} : U.ipAddress host = some address → ':' ∈ host →
      (∀ c ∈ host, literalChar c = true) → Spells U host ('[' :: host ++ [']'])

inductive Shows : Option Nat → Text → Prop
  | implied : Shows none []
  | number {n : Nat} : n ≤ 65535 → Shows (some n) (':' :: Nat.toDigits 10 n)

/-- What is documented of `urlsplit` and `ip_address`: `hostname` is lower case but for a zone, a
port is a 16-bit number, a scheme with a host and a port is read as these and nothing else; the
compressed form of an address reads as that address, and is four octets, or groups of lower case
hexadecimal digits for what has a colon, is no mapped address and has no zone. -/
structure UrlLaws (U : UrlLibrary) : Prop where
  lowered : ∀ {t split host}, U.urlsplit t = some split → split.hostname = some host →
    '%' ∉ host → lower host = host
  ported : ∀ {t split n}, U.urlsplit t = some split → split.port = some n → n ≤ 65535
  read : ∀ {scheme host spelled port shown}, scheme ∈ allowedSchemes → Spells U host spelled →
    Shows port shown → U.urlsplit (scheme ++ "://".toList ++ spelled ++ shown) =
      some ⟨scheme, none, none, some host, port, [], [], []⟩
  reread : ∀ {t address}, U.ipAddress t = some address →
    U.ipAddress address.compressed = some address
  octets : ∀ {t address}, U.ipAddress t = some address → ':' ∉ t → ∃ a b c d, a ≤ 255 ∧ b ≤ 255 ∧
    c ≤ 255 ∧ d ≤ 255 ∧ address.compressed = dotted a b c d ∧
      (address.isLoopback = true ↔ a = 127)
  groups : ∀ {t address}, U.ipAddress t = some address → ':' ∈ t → '%' ∉ t →
    address.ipv4Mapped = none → ':' ∈ address.compressed ∧
      (∀ c ∈ address.compressed, literalChar c = true) ∧
      (address.isLoopback = true ↔ address.compressed = "::1".toList)

/-- A host by what it denotes: an address, or a name without regard to case and to one dot at its
end. -/
inductive Host
  | address (address : IpAddress)
  | name (name : Text)

def Host.of (U : UrlLibrary) (raw : Text) : Host :=
  match U.ipAddress (if ':' ∈ raw then raw else removeDot raw) with
  | some found => .address found
  | none => .name (removeDot (lower raw))

structure Origin where
  scheme : Text
  host : Host
  port : Nat

def Origin.of (U : UrlLibrary) (split : SplitResult) : Origin :=
  ⟨split.scheme, Host.of U (split.hostname.getD []),
    split.port.getD (defaultPort split.scheme)⟩

def Host.spelled : Host → Text
  | .address found =>
    if ':' ∈ found.compressed then '[' :: found.compressed ++ [']'] else found.compressed
  | .name text => text

def Origin.spelled (o : Origin) : Text :=
  o.scheme ++ "://".toList ++ o.host.spelled ++
    if o.port = defaultPort o.scheme then [] else ':' :: Nat.toDigits 10 o.port

def Plain (c : Char) : Prop := isControl c = false ∧ c ∉ "/?#@".toList

theorem plain_of_nameChar {c : Char} (hc : nameChar c = true) :
    Plain c ∧ c ≠ ':' ∧ c ≠ '%' ∧ c ≠ '[' ∧ isAscii c = true := by
  have ha : isAscii c = true := by
    simp only [nameChar, hostChar, Char.isDigit, Bool.or_eq_true, Bool.and_eq_true,
      decide_eq_true_eq, beq_iff_eq, UInt32.le_iff_toNat_le, ge_iff_le] at hc
    obtain ((⟨-, h⟩ | ⟨-, h⟩) | rfl) | rfl := hc
    · change c.toNat ≤ 57 at h
      rw [isAscii, decide_eq_true_eq]
      omega
    · change c.toNat ≤ 122 at h
      rw [isAscii, decide_eq_true_eq]
      omega
    · rfl
    · rfl
  have hall : ∀ c, isAscii c = true → nameChar c = true →
      Plain c ∧ c ≠ ':' ∧ c ≠ '%' ∧ c ≠ '[' := by
    intro c ha
    exact forall_ascii (P := fun c => nameChar c = true →
      (isControl c = false ∧ c ∉ "/?#@".toList) ∧ c ≠ ':' ∧ c ≠ '%' ∧ c ≠ '[') (by decide) ha
  obtain ⟨hp, h1, h2, h3⟩ := hall c ha hc
  exact ⟨hp, h1, h2, h3, ha⟩

theorem plain_of_literalChar {c : Char} (hc : literalChar c = true) : Plain c ∧ c ≠ '%' := by
  have ha : isAscii c = true := by
    simp only [literalChar, Char.isDigit, Bool.or_eq_true, Bool.and_eq_true,
      decide_eq_true_eq, beq_iff_eq, UInt32.le_iff_toNat_le, ge_iff_le] at hc
    obtain (⟨-, h⟩ | ⟨-, h⟩) | rfl := hc
    · change c.toNat ≤ 57 at h
      rw [isAscii, decide_eq_true_eq]
      omega
    · change c.toNat ≤ 102 at h
      rw [isAscii, decide_eq_true_eq]
      omega
    · rfl
  exact forall_ascii (P := fun c => literalChar c = true →
    (isControl c = false ∧ c ∉ "/?#@".toList) ∧ c ≠ '%') (by decide) ha hc

theorem nameChar_of_isHostname (h : isHostname host = true) :
    host ≠ [] ∧ (∀ c ∈ host, nameChar c = true) ∧ removeDot host = host := by
  rw [isHostname, List.all_eq_true] at h
  have hlabel : ∀ label ∈ host.splitOn '.', label ≠ [] ∧ ∀ c ∈ label, hostChar c = true := by
    intro label hl
    have hw := h label hl
    simp only [isLabel, Models.fullmatch, Bool.and_eq_true, decide_eq_true_eq,
      List.all_eq_true] at hw
    exact ⟨List.ne_nil_of_length_pos hw.1.1.1.1, hw.1.1.2⟩
  refine ⟨?_, fun c hc => ?_, ?_⟩
  · rintro rfl
    exact (hlabel [] (by simp)).1 rfl
  · rw [nameChar, Bool.or_eq_true]
    by_cases hd : c = '.'
    · exact .inr (beq_iff_eq.mpr hd)
    · obtain ⟨label, hl, hm⟩ := Text.mem_piece hc hd
      exact .inl ((hlabel label hl).2 c hm)
  · rw [removeDot, if_neg]
    intro hlast
    obtain ⟨front, rfl⟩ := List.getLast?_eq_some_iff.mp hlast
    rw [List.splitOn_append_cons_self] at hlabel
    exact (hlabel [] (by simp)).1 rfl

theorem plain_of_digits {n : Nat} {c : Char} (hc : c ∈ Nat.toDigits 10 n) : nameChar c = true := by
  have hd := Nat.isDigit_of_mem_toDigits (by decide) (by decide) hc
  simp only [nameChar, hostChar, hd, Bool.true_or]

theorem dotted_facts (a b c d : Nat) : dotted a b c d ≠ [] ∧
    (∀ x ∈ dotted a b c d, nameChar x = true) ∧ removeDot (dotted a b c d) = dotted a b c d := by
  refine ⟨by simp [dotted], ?_, ?_⟩
  · intro x hx
    simp only [dotted, List.append_assoc, List.cons_append, List.mem_append, List.mem_cons] at hx
    obtain hx | rfl | hx | rfl | hx | rfl | hx := hx
    · exact plain_of_digits hx
    · rfl
    · exact plain_of_digits hx
    · rfl
    · exact plain_of_digits hx
    · rfl
    · exact plain_of_digits hx
  · rw [removeDot, if_neg]
    intro hlast
    have hne : Nat.toDigits 10 d ≠ [] := Nat.toDigits_ne_nil
    rw [dotted, List.getLast?_append_cons, List.getLast?_cons_of_ne_nil hne] at hlast
    have hm := Nat.isDigit_of_mem_toDigits (by decide) (by decide) (List.mem_of_getLast? hlast)
    exact absurd hm (by decide)

theorem not_colon_of_names (h : ∀ c ∈ host, nameChar c = true) : ':' ∉ host :=
  fun hm => (plain_of_nameChar (h _ hm)).2.1 rfl

theorem ascii_of_names (h : ∀ c ∈ host, nameChar c = true) : host.all isAscii = true :=
  List.all_eq_true.mpr fun c hc => (plain_of_nameChar (h c hc)).2.2.2.2

structure Fixed (U : UrlLibrary) (raw host : Text) (loopback : Bool) (inner : Text) : Prop where
  spelled : (Host.of U raw).spelled = host
  spells : Spells U inner host
  same : Host.of U inner = Host.of U raw
  again : inner ≠ [] ∧ HostOf U inner host loopback

theorem removeDot_subset (raw : Text) : removeDot raw ⊆ raw := by
  rw [removeDot]
  split
  · exact List.dropLast_subset raw
  · exact List.Subset.refl raw

theorem lower_removeDot (h : lower raw = raw) : lower (removeDot raw) = removeDot raw := by
  rw [removeDot]
  split
  · rw [lower, List.map_dropLast]
    exact congrArg List.dropLast h
  · exact h

theorem not_percent_of_names (h : ∀ c ∈ removeDot raw, nameChar c = true) : '%' ∉ raw := by
  intro hmem
  rw [removeDot] at h
  split at h
  · rename_i hlast
    obtain ⟨front, rfl⟩ := List.getLast?_eq_some_iff.mp hlast
    rw [List.dropLast_concat] at h
    obtain hm | hm := List.mem_append.mp hmem
    · exact (plain_of_nameChar (h _ hm)).2.2.1 rfl
    · exact absurd hm (by decide)
  · exact (plain_of_nameChar (h _ hmem)).2.2.1 rfl

theorem fixed_of_hostOf (laws : UrlLaws U)
    (hlow : '%' ∉ raw → lower raw = raw) (h : HostOf U raw host loopback) :
    ∃ inner, Fixed U raw host loopback inner := by
  cases h with
  | @literal address hc hp ha hm =>
    obtain ⟨hcc, hchars, -⟩ := laws.groups ha hc hp hm
    have hre := laws.reread ha
    have hpc : '%' ∉ address.compressed :=
      fun hmem => (plain_of_literalChar (hchars _ hmem)).2 rfl
    refine ⟨address.compressed, ?_, .literal hre hcc hchars, ?_, ?_, .literal hcc hpc hre hm⟩
    · rw [Host.of, if_pos hc, ha]
      exact if_pos hcc
    · rw [Host.of, Host.of, if_pos hc, if_pos hcc, ha, hre]
    · exact List.ne_nil_of_mem hcc
  | @address address hc hascii ha =>
    have hcd : ':' ∉ removeDot raw := fun hmem => hc (removeDot_subset raw hmem)
    obtain ⟨a, b, c, d, -, -, -, -, hd, -⟩ := laws.octets ha hcd
    obtain ⟨hne, hchars, hdot⟩ := dotted_facts a b c d
    have hcolon := not_colon_of_names hchars
    have hre := laws.reread ha
    rw [← hd] at hne hchars hdot hcolon
    refine ⟨address.compressed, ?_, .name hne hchars, ?_, hne, ?_⟩
    · rw [Host.of, if_neg hc, ha]
      exact if_neg hcolon
    · rw [Host.of, Host.of, if_neg hc, if_neg hcolon, ha, hdot, hre]
    · exact .address hcolon (ascii_of_names hchars) (by rw [hdot]; exact hre)
  | name hc hascii hn hh hlen =>
    obtain ⟨hne, hchars, hdot⟩ := nameChar_of_isHostname hh
    have hcolon := not_colon_of_names hchars
    have hl := hlow (not_percent_of_names hchars)
    have hof : Host.of U raw = .name (removeDot raw) := by
      rw [Host.of, if_neg hc, hn, hl]
    refine ⟨removeDot raw, by rw [hof]; rfl, .name hne hchars, ?_, hne, ?_⟩
    · rw [hof, Host.of, if_neg hcolon, hdot, hn, lower_removeDot hl, hdot]
    · have ha : HostOf U (removeDot raw) (removeDot (removeDot raw))
          (removeDot (removeDot raw) = "localhost".toList) :=
        .name hcolon (ascii_of_names hchars) (by rw [hdot]; exact hn) (by rw [hdot]; exact hh)
          (by rw [hdot]; exact hlen)
      rw [hdot] at ha
      exact ha

theorem shows_of_portOf {split : SplitResult} (hle : ∀ n, split.port = some n → n ≤ 65535)
    (h : PortOf split.port scheme shown) : ∃ port, Shows port shown ∧ PortOf port scheme shown ∧
      port.getD (defaultPort scheme) = split.port.getD (defaultPort scheme) ∧
      shown = if split.port.getD (defaultPort scheme) = defaultPort scheme then []
        else ':' :: Nat.toDigits 10 (split.port.getD (defaultPort scheme)) := by
  obtain ⟨hd, rfl⟩ | ⟨n, hp, hn, hz, rfl⟩ := h
  · exact ⟨none, .implied, .inl ⟨rfl, rfl⟩, hd.symm, (if_pos hd).symm⟩
  · refine ⟨some n, .number (hle n hp), .inr ⟨n, rfl, hn, hz, rfl⟩, by rw [hp], ?_⟩
    rw [hp, Option.getD_some, if_neg hn]

theorem Spells.plain {inner : Text} (h : Spells U inner host) : ∀ c ∈ host, Plain c := by
  intro c hc
  cases h with
  | name _ hchars => exact (plain_of_nameChar (hchars c hc)).1
  | literal _ _ hchars =>
    obtain rfl | hc := List.mem_cons.mp hc
    · exact ⟨by decide, by decide⟩
    · obtain hc | hc := List.mem_append.mp hc
      · exact (plain_of_literalChar (hchars c hc)).1
      · obtain rfl := List.mem_singleton.mp hc
        exact ⟨by decide, by decide⟩

theorem Shows.plain (h : Shows port shown) : ∀ c ∈ shown, Plain c := by
  intro c hc
  cases h with
  | implied => cases hc
  | number _ =>
    obtain rfl | hc := List.mem_cons.mp hc
    · exact ⟨by decide, by decide⟩
    · exact (plain_of_nameChar (plain_of_digits hc)).1

theorem printable_of_parts {inner : Text} (hs : scheme ∈ allowedSchemes) (hh : Spells U inner host)
    (hp : Shows port shown) :
    strip (scheme ++ "://".toList ++ host ++ shown) = scheme ++ "://".toList ++ host ++ shown ∧
      (scheme ++ "://".toList ++ host ++ shown).any isControl = false := by
  have hschemes : (allowedSchemes.all fun s => s.all fun c => !isControl c) = true := by decide
  have hscheme := List.all_eq_true.mp hschemes scheme hs
  have hslashes : ("://".toList.all fun c => !isControl c) = true := by decide
  have hall : ∀ c ∈ scheme ++ "://".toList ++ host ++ shown, isControl c = false := by
    intro c hc
    simp only [List.mem_append] at hc
    obtain ((hc | hc) | hc) | hc := hc
    · simpa using List.all_eq_true.mp hscheme c hc
    · simpa using List.all_eq_true.mp hslashes c hc
    · exact (hh.plain c hc).1
    · exact (hp.plain c hc).1
  constructor
  · apply Text.trim_eq_self
    intro c hc hspace
    have hcontrol := hall c hc
    rw [isControl, hspace] at hcontrol
    cases hcontrol
  · rw [List.any_eq_false]
    intro c hc
    rw [hall c hc]
    exact Bool.false_ne_true

theorem fixed_of_normalizes (laws : UrlLaws U)
    (h : Normalizes U given origin split host loopback shown) :
    ∃ inner, Fixed U (split.hostname.getD []) host loopback inner := by
  apply fixed_of_hostOf laws _ h.hosted.2
  cases hs : split.hostname with
  | none => exact fun _ => rfl
  | some name => exact fun hp => laws.lowered h.parsed hs hp

/-- What `normalize_base_url` makes of a string is the spelling of what it denotes, and a fixed
point. -/
theorem canonical_of_normalizes (laws : UrlLaws U)
    (h : Normalizes U given origin split host loopback shown) :
    origin = (Origin.of U split).spelled ∧ ∃ again,
      Origin.of U again = Origin.of U split ∧
        Normalizes U origin origin again host loopback shown := by
  obtain ⟨inner, hfix⟩ := fixed_of_normalizes laws h
  obtain ⟨port, hshows, hport, hsame, heff⟩ :=
    shows_of_portOf (fun n hn => laws.ported h.parsed hn) h.reached
  obtain ⟨hstrip, hprint⟩ := printable_of_parts h.allowed hfix.spells hshows
  refine ⟨?_, ⟨split.scheme, none, none, some inner, port, [], [], []⟩, ?_, ?_⟩
  · rw [h.spelled, Origin.spelled, Origin.of, hfix.spelled, heff]
  · simp only [Origin.of, Option.getD_some, hfix.same, hsame]
  · have hread := laws.read h.allowed hfix.spells hshows
    rw [← h.spelled] at hstrip hprint hread
    exact ⟨by rw [hstrip]; exact hprint, by rw [hstrip]; exact hread, h.allowed, ⟨rfl, rfl⟩,
      hfix.again, h.sealed, hport, ⟨.inl rfl, rfl, rfl⟩, h.spelled⟩

def Loopback (host : Text) : Prop :=
  host = "localhost".toList ∨
    (∃ b c d, b ≤ 255 ∧ c ≤ 255 ∧ d ≤ 255 ∧ host = dotted 127 b c d) ∨ host = "[::1]".toList

theorem loopback_of_hostOf (laws : UrlLaws U) (h : HostOf U raw host true) : Loopback host := by
  generalize hb : true = b at h
  cases h with
  | @literal address hc hp ha hm =>
    have hone := (laws.groups ha hc hp hm).2.2.mp hb.symm
    rw [hone]
    exact .inr (.inr rfl)
  | @address address hc hascii ha =>
    have hcd : ':' ∉ removeDot raw := by
      intro hmem
      rw [removeDot] at hmem
      split at hmem
      · exact hc (List.dropLast_subset _ hmem)
      · exact hc hmem
    obtain ⟨a, b, c, d, -, hb', hc', hd', hd, hl⟩ := laws.octets ha hcd
    obtain rfl := hl.mp hb.symm
    exact .inr (.inl ⟨b, c, d, hb', hc', hd', hd⟩)
  | name => exact .inl (of_decide_eq_true hb.symm)

structure Shaped (origin scheme host shown : Text) : Prop where
  spelled : origin = scheme ++ "://".toList ++ host ++ shown
  allowed : scheme ∈ allowedSchemes
  plain : host ≠ [] ∧ ∀ c ∈ host, Plain c
  unported : ':' ∈ host → ∃ inner, host = '[' :: inner ++ [']'] ∧
    ∀ c ∈ inner, literalChar c = true
  explicit : shown = [] ∨ ∃ n, n ≠ 0 ∧ n ≤ 65535 ∧ n ≠ defaultPort scheme ∧
    shown = ':' :: Nat.toDigits 10 n
  loopback : scheme = "http".toList → Loopback host

theorem shaped_of_normalizes (laws : UrlLaws U)
    (h : Normalizes U given origin split host loopback shown) :
    Shaped origin split.scheme host shown := by
  obtain ⟨inner, hfix⟩ := fixed_of_normalizes laws h
  refine ⟨h.spelled, h.allowed, ⟨?_, hfix.spells.plain⟩, ?_, ?_, ?_⟩
  · cases hfix.spells with
    | name hne => exact hne
    | literal => exact List.cons_ne_nil _ _
  · intro hc
    cases hfix.spells with
    | name _ hchars => exact (not_colon_of_names hchars hc).elim
    | literal _ _ hchars => exact ⟨inner, rfl, hchars⟩
  · obtain ⟨-, hs⟩ | ⟨n, hp, hn, hz, hs⟩ := h.reached
    · exact .inl hs
    · exact .inr ⟨n, hz, laws.ported h.parsed hp, hn, hs⟩
  · intro hhttp
    have hof := h.hosted.2
    rw [h.sealed hhttp] at hof
    exact loopback_of_hostOf laws hof

/-- `normalize_base_url` picks one spelling of every origin it accepts. -/
structure Canonicalizes (R : Runtime) (U : UrlLibrary) : Prop where
  idempotent : ∀ value field origin, normalizeBaseUrl R U value field = .ok origin →
    ∀ field', normalizeBaseUrl R U (.text origin) field' = .ok origin
  same : ∀ given given' field field' origin origin' split split',
    normalizeBaseUrl R U (.text given) field = .ok origin →
    normalizeBaseUrl R U (.text given') field' = .ok origin' →
    U.urlsplit (strip given) = some split → U.urlsplit (strip given') = some split' →
    (origin = origin' ↔ Origin.of U split = Origin.of U split')
  shaped : ∀ value field origin, normalizeBaseUrl R U value field = .ok origin →
    ∃ scheme host shown, Shaped origin scheme host shown

theorem origins_canonical (R : Runtime) (U : UrlLibrary) (laws : UrlLaws U) :
    Canonicalizes R U := by
  constructor
  · intro value field origin h field'
    obtain ⟨given, split, host, loopback, shown, rfl, hn⟩ := normalizeBaseUrl_ok.mp h
    obtain ⟨-, again, -, hagain⟩ := canonical_of_normalizes laws hn
    exact normalizeBaseUrl_ok.mpr ⟨origin, again, host, loopback, shown, rfl, hagain⟩
  · intro given given' field field' origin origin' split split' h h' hs hs'
    obtain ⟨_, found, _, _, _, ⟨⟩, hn⟩ := normalizeBaseUrl_ok.mp h
    obtain ⟨_, found', _, _, _, ⟨⟩, hn'⟩ := normalizeBaseUrl_ok.mp h'
    obtain rfl : found = split := Option.some.inj (hn.parsed.symm.trans hs)
    obtain rfl : found' = split' := Option.some.inj (hn'.parsed.symm.trans hs')
    obtain ⟨hspell, again, hsame, hagain⟩ := canonical_of_normalizes laws hn
    obtain ⟨hspell', again', hsame', hagain'⟩ := canonical_of_normalizes laws hn'
    constructor
    · rintro rfl
      have hboth := Option.some.inj (hagain.parsed.symm.trans hagain'.parsed)
      rw [← hsame, ← hsame', hboth]
    · intro he
      rw [hspell, hspell', he]
  · intro value field origin h
    obtain ⟨given, split, host, loopback, shown, rfl, hn⟩ := normalizeBaseUrl_ok.mp h
    exact ⟨_, _, _, shaped_of_normalizes laws hn⟩

section Sample

def sampleIpAddress (t : Text) : Option IpAddress :=
  if t = "::1".toList ∨ t = "127.0.0.1".toList then some ⟨t, true, none⟩ else none

def sampleHostAndPort (authority : Text) : Text × Text :=
  if authority.head? = some '[' then
    match Text.cut ']' authority.tail with
    | some (host, port) => (host, port.drop 1)
    | none => (authority, [])
  else
    match Text.cut ':' authority with
    | some (host, port) => (host, port)
    | none => (authority, [])

def sampleUrlsplit (t : Text) : Option SplitResult :=
  match Text.cut ':' t with
  | some (scheme, '/' :: '/' :: rest) =>
    let (host, digits) := sampleHostAndPort (rest.takeWhile (· != '/'))
    let port := Nat.ofDigitChars 10 digits 0
    let found : SplitResult := ⟨lower scheme, none, none, some (lower host),
      if digits = [] then none else some port, rest.dropWhile (· != '/'), [], []⟩
    if digits.all Char.isDigit && port ≤ 65535 then some found else none
  | _ => some ⟨[], none, none, none, none, t, [], []⟩

def sampleLibrary : UrlLibrary := ⟨sampleUrlsplit, sampleIpAddress⟩

def sampleRuntime : Runtime :=
  ⟨fun _ _ => default, fun _ => default, fun _ => none, fun _ => none, String.ofList⟩

theorem lower_lower (t : Text) : lower (lower t) = lower t := by
  have hchar : ∀ c : Char, (if (if c = '\u212a' then 'k' else c.toLower) = '\u212a' then 'k'
      else (if c = '\u212a' then 'k' else c.toLower).toLower) =
      if c = '\u212a' then 'k' else c.toLower := by
    intro c
    by_cases ha : isAscii c = true
    · exact forall_ascii (P := fun c => (if (if c = '\u212a' then 'k' else c.toLower) = '\u212a'
        then 'k' else (if c = '\u212a' then 'k' else c.toLower).toLower) =
        if c = '\u212a' then 'k' else c.toLower) (by decide) ha
    · have hc : c.toLower = c := toLower_of_not_ascii (Bool.not_eq_true _ ▸ ha)
      by_cases hk : c = '\u212a'
      · rw [if_pos hk]
        rfl
      · rw [if_neg hk, hc, if_neg hk, hc]
  rw [lower, lower, List.map_map]
  exact List.map_congr_left fun c _ => hchar c

theorem lower_of_names (h : ∀ c ∈ host, nameChar c = true) : lower host = host := by
  rw [lower]
  conv_rhs => rw [← List.map_id host]
  apply List.map_congr_left
  intro c hc
  exact forall_ascii (P := fun c => nameChar c = true →
    (if c = '\u212a' then 'k' else c.toLower) = id c) (by decide)
    (plain_of_nameChar (h c hc)).2.2.2.2 (h c hc)

theorem sampleIpAddress_eq {t : Text} {address : IpAddress}
    (h : sampleLibrary.ipAddress t = some address) :
    (t = "::1".toList ∨ t = "127.0.0.1".toList) ∧ address = ⟨t, true, none⟩ := by
  change sampleIpAddress t = some address at h
  rw [sampleIpAddress] at h
  split at h
  · rename_i ht
    exact ⟨ht, (Option.some.inj h).symm⟩
  · cases h

theorem sample_found {t : Text} {split : SplitResult}
    (h : sampleLibrary.urlsplit t = some split) :
    (∀ host, split.hostname = some host → lower host = host) ∧
      ∀ n, split.port = some n → n ≤ 65535 := by
  change sampleUrlsplit t = some split at h
  unfold sampleUrlsplit at h
  split at h
  · dsimp only at h
    split at h
    · rename_i hc
      cases h
      rw [Bool.and_eq_true, decide_eq_true_eq] at hc
      refine ⟨fun host hh => ?_, fun n hn => ?_⟩
      · cases hh
        exact lower_lower _
      · split at hn
        · cases hn
        · cases hn
          exact hc.2
    · cases h
  · cases h
    exact ⟨nofun, nofun⟩

theorem sampleHostAndPort_spelled {spelled : Text} (hh : Spells sampleLibrary host spelled)
    (hp : Shows port shown) :
    ∃ digits, sampleHostAndPort (spelled ++ shown) = (host, digits) ∧
      digits.all Char.isDigit = true ∧ Nat.ofDigitChars 10 digits 0 = port.getD 0 ∧
      (if digits = [] then none else some (Nat.ofDigitChars 10 digits 0)) = port := by
  have hdigits : shown = [] ∧ port = none ∨ ∃ n, shown = ':' :: Nat.toDigits 10 n ∧ port = some n := by
    cases hp with
    | implied => exact .inl ⟨rfl, rfl⟩
    | number => exact .inr ⟨_, rfl, rfl⟩
  have hnumber : ∀ n, (Nat.toDigits 10 n).all Char.isDigit = true ∧
      Nat.ofDigitChars 10 (Nat.toDigits 10 n) 0 = n ∧ Nat.toDigits 10 n ≠ [] := by
    intro n
    refine ⟨?_, Nat.ofDigitChars_ten_toDigits, Nat.toDigits_ne_nil⟩
    exact List.all_eq_true.mpr fun c hc => Nat.isDigit_of_mem_toDigits (by decide) (by decide) hc
  rw [sampleHostAndPort]
  cases hh with
  | name hne hchars =>
    have hcolon := not_colon_of_names hchars
    obtain ⟨c, rest, rfl⟩ := List.exists_cons_of_ne_nil hne
    have hhead : (c :: rest ++ shown).head? ≠ some '[' := by
      intro hb
      exact (plain_of_nameChar (hchars c List.mem_cons_self)).2.2.2.1 (Option.some.inj hb)
    rw [if_neg hhead]
    obtain ⟨rfl, rfl⟩ | ⟨n, rfl, rfl⟩ := hdigits
    · rw [List.append_nil, Text.cut_eq_none.mpr hcolon]
      exact ⟨[], rfl, rfl, rfl, rfl⟩
    · rw [Text.cut_append hcolon]
      obtain ⟨hd, hv, hn⟩ := hnumber n
      exact ⟨_, rfl, hd, hv, by rw [if_neg hn, hv]⟩
  | literal ha hc hchars =>
    have hclose : ']' ∉ host := by
      intro hm
      have := hchars _ hm
      exact absurd this (by decide)
    have hhead : ('[' :: host ++ [']'] ++ shown).head? = some '[' := rfl
    rw [if_pos hhead]
    have hcut : Text.cut ']' ('[' :: host ++ [']'] ++ shown).tail = some (host, shown) := by
      rw [List.cons_append, List.cons_append, List.tail_cons, List.append_assoc,
        List.singleton_append]
      exact Text.cut_append hclose _
    rw [hcut]
    obtain ⟨rfl, rfl⟩ | ⟨n, rfl, rfl⟩ := hdigits
    · exact ⟨[], rfl, rfl, rfl, rfl⟩
    · obtain ⟨hd, hv, hn⟩ := hnumber n
      exact ⟨_, rfl, hd, hv, by rw [List.drop_one, List.tail_cons, if_neg hn, hv]⟩

theorem sample_read {spelled : Text} (hs : scheme ∈ allowedSchemes)
    (hh : Spells sampleLibrary host spelled) (hp : Shows port shown) :
    sampleLibrary.urlsplit (scheme ++ "://".toList ++ spelled ++ shown) =
      some ⟨scheme, none, none, some host, port, [], [], []⟩ := by
  have hschemes : (allowedSchemes.all fun s => lower s == s && !s.contains ':') = true := by decide
  have hscheme := List.all_eq_true.mp hschemes scheme hs
  rw [Bool.and_eq_true, beq_iff_eq, Bool.not_eq_true', List.contains_eq_mem,
    decide_eq_false_iff_not] at hscheme
  have hlower : lower host = host := by
    cases hh with
    | name _ hchars => exact lower_of_names hchars
    | literal ha =>
      obtain ⟨rfl | rfl, -⟩ := sampleIpAddress_eq ha <;> decide
  have hplain : ∀ c ∈ spelled ++ shown, (c != '/') = true := by
    intro c hc
    have hcp : Plain c := (List.mem_append.mp hc).elim (hh.plain c) (hp.plain c)
    rw [bne_iff_ne]
    rintro rfl
    exact hcp.2 (by decide)
  have hcut : Text.cut ':' (scheme ++ "://".toList ++ spelled ++ shown) =
      some (scheme, '/' :: '/' :: (spelled ++ shown)) := by
    rw [List.append_assoc, List.append_assoc]
    exact Text.cut_append hscheme.2 _
  obtain ⟨digits, hhost, hd, hv, hport⟩ := sampleHostAndPort_spelled hh hp
  have hle : port.getD 0 ≤ 65535 := by
    cases hp with
    | implied => exact Nat.zero_le _
    | number hn => exact hn
  change sampleUrlsplit _ = _
  simp only [sampleUrlsplit, hcut]
  rw [List.takeWhile_eq_self_iff.mpr hplain, List.dropWhile_eq_nil_iff.mpr hplain, hhost]
  dsimp only
  rw [hport, hd, hv, hscheme.1, hlower, decide_eq_true hle]
  rfl

theorem sample_laws : UrlLaws sampleLibrary where
  lowered h hh _ := (sample_found h).1 _ hh
  ported h hn := (sample_found h).2 _ hn
  read := sample_read
  reread h := by
    obtain ⟨ht, rfl⟩ := sampleIpAddress_eq h
    exact h
  octets h hc := by
    obtain ⟨rfl | rfl, rfl⟩ := sampleIpAddress_eq h
    · exact (hc (by decide)).elim
    · exact ⟨127, 0, 0, 1, by decide, by decide, by decide, by decide, by decide, by decide⟩
  groups h hc _ _ := by
    obtain ⟨rfl | rfl, rfl⟩ := sampleIpAddress_eq h
    · refine ⟨by decide, ?_, by decide⟩
      exact List.all_eq_true.mp (by decide)
    · exact absurd hc (by decide)

end Sample

theorem origins_canonical_sample : Canonicalizes sampleRuntime sampleLibrary ∧
    normalizeBaseUrl sampleRuntime sampleLibrary
      (.text " HTTPS://Auth.Example.COM.:443/".toList) "base_url" =
        .ok "https://auth.example.com".toList ∧
    normalizeBaseUrl sampleRuntime sampleLibrary (.text "http://[::1]:8080".toList) "base_url" =
      .ok "http://[::1]:8080".toList :=
  ⟨origins_canonical sampleRuntime sampleLibrary sample_laws, by rfl, by rfl⟩

end BetterAuthBridge.Origins
