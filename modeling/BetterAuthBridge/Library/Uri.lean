import BetterAuthBridge.Library.Text

namespace BetterAuthBridge.Library

@[ext] structure Uri where
  scheme : List Char
  authority : List Char
  path : List Char
  query : Option (List Char)
  fragment : Option (List Char)

namespace Uri

variable {u v : Uri} {c : Char} {l : List Char}

def introduced (c : Char) : Option (List Char) → List Char
  | none => []
  | some component => c :: component

def text (u : Uri) : List Char :=
  u.scheme ++ "://".toList ++ u.authority ++ u.path ++ introduced '?' u.query ++
    introduced '#' u.fragment

def parted (c : Char) (l : List Char) : List Char × Option (List Char) :=
  match Text.cut c l with
  | some (a, b) => (a, some b)
  | none => (l, none)

/-- Decomposition: the fragment is behind the first `#`, the query behind the first `?` before it,
and the authority ends at the first slash behind it. -/
def read (t : List Char) : Option Uri :=
  let (rest, fragment) := parted '#' t
  let (rest, query) := parted '?' rest
  match Text.cut ':' rest with
  | some (scheme, '/' :: '/' :: rest) =>
    if scheme = [] ∨ '/' ∈ scheme then none
    else some ⟨scheme, rest.takeWhile (· != '/'), rest.dropWhile (· != '/'), query, fragment⟩
  | _ => none

structure Proper (u : Uri) : Prop where
  scheme : u.scheme ≠ [] ∧ ∀ c ∈ u.scheme, c ∉ ":/?#".toList
  authority : ∀ c ∈ u.authority, c ∉ "/?#".toList
  path : ∀ c ∈ u.path, c ∉ "?#".toList
  rooted : u.path = [] ∨ u.path.head? = some '/'
  query : ∀ q, u.query = some q → '#' ∉ q

theorem parted_introduced (hl : c ∉ l) (o : Option (List Char)) :
    parted c (l ++ introduced c o) = (l, o) := by
  cases o with
  | none =>
    rw [introduced, List.append_nil, parted, Text.cut_eq_none.mpr hl]
  | some component => rw [introduced, parted, Text.cut_append hl]

theorem takeWhile_authority {a p : List Char} (ha : '/' ∉ a) (hp : p = [] ∨ p.head? = some '/') :
    (a ++ p).takeWhile (· != '/') = a ∧ (a ++ p).dropWhile (· != '/') = p := by
  have hall : ∀ c ∈ a, (c != '/') = true := by
    intro c hc
    rw [bne_iff_ne]
    rintro rfl
    exact ha hc
  rw [List.takeWhile_append_of_pos hall, List.dropWhile_append_of_pos hall]
  obtain rfl | hp := hp
  · simp
  · obtain ⟨rest, rfl⟩ : ∃ rest, p = '/' :: rest := by
      cases p with
      | nil => cases hp
      | cons c rest => exact ⟨rest, by rw [Option.some.inj hp]⟩
    simp

/-- A URI put together is taken apart again. -/
theorem read_text (h : u.Proper) : read u.text = some u := by
  obtain ⟨scheme, authority, path, query, fragment⟩ := u
  obtain ⟨⟨hne, hs⟩, ha, hp, hr, hq⟩ := h
  dsimp only at hne hs ha hp hr hq
  have hsep : ∀ c ∈ "://".toList, c ∉ "?#".toList := by simp
  have hpath : ∀ c ∈ scheme ++ "://".toList ++ authority ++ path, c ∉ "?#".toList := by
    intro c hc hm
    simp only [List.mem_append] at hc
    obtain ((hc | hc) | hc) | hc := hc
    · exact hs c hc (List.mem_of_mem_drop (i := 2) hm)
    · exact hsep c hc hm
    · exact ha c hc (List.mem_of_mem_drop (i := 1) hm)
    · exact hp c hc hm
  have hfrag : '#' ∉ scheme ++ "://".toList ++ authority ++ path ++ introduced '?' query := by
    rw [List.mem_append, not_or]
    refine ⟨fun hm => hpath _ hm (by decide), ?_⟩
    cases query with
    | none => exact List.not_mem_nil
    | some q => simpa [introduced] using hq q rfl
  have hquery : '?' ∉ scheme ++ "://".toList ++ authority ++ path :=
    fun hm => hpath _ hm (by decide)
  have hcolon : ':' ∉ scheme := fun hm => hs _ hm (by decide)
  have hslash : '/' ∉ scheme := fun hm => hs _ hm (by decide)
  have hauth : '/' ∉ authority := fun hm => ha _ hm (by decide)
  obtain ⟨htake, hdrop⟩ := takeWhile_authority hauth hr
  rw [text, read, parted_introduced hfrag]
  dsimp only
  rw [parted_introduced hquery]
  dsimp only
  have hcut : scheme ++ "://".toList ++ authority ++ path =
      scheme ++ ':' :: ('/' :: '/' :: (authority ++ path)) := by simp
  rw [hcut, Text.cut_append hcolon]
  change (if scheme = [] ∨ '/' ∈ scheme then none else some (Uri.mk scheme
    ((authority ++ path).takeWhile (· != '/')) ((authority ++ path).dropWhile (· != '/')) query
    fragment)) = _
  rw [if_neg (not_or.mpr ⟨hne, hslash⟩), htake, hdrop]

theorem text_injective (hu : u.Proper) (hv : v.Proper) (h : u.text = v.text) : u = v := by
  have hread := read_text hu
  rw [h, read_text hv] at hread
  exact (Option.some.inj hread).symm

end Uri

end BetterAuthBridge.Library
