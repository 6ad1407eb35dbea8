import Mathlib.Data.List.Basic
import Mathlib.Data.Fin.Basic
import Mathlib.Tactic.Have

namespace BetterAuthBridge.Library.Base64

/-- The standard alphabet of RFC 4648, section 4. -/
def symbol (n : Nat) : Char :=
  if n < 26 then Char.ofNat (65 + n)
  else if n < 52 then Char.ofNat (71 + n)
  else if n < 62 then Char.ofNat (n - 4)
  else if n = 62 then '+' else '/'

def index (c : Char) : Option Nat :=
  if 65 ≤ c.toNat ∧ c.toNat ≤ 90 then some (c.toNat - 65)
  else if 97 ≤ c.toNat ∧ c.toNat ≤ 122 then some (c.toNat - 71)
  else if 48 ≤ c.toNat ∧ c.toNat ≤ 57 then some (c.toNat + 4)
  else if c = '+' then some 62
  else if c = '/' then some 63
  else none

def encode : List UInt8 → List Char
  | [] => []
  | [a] => [symbol (a.toNat / 4), symbol (a.toNat % 4 * 16), '=', '=']
  | [a, b] =>
    [symbol (a.toNat / 4), symbol (a.toNat % 4 * 16 + b.toNat / 16), symbol (b.toNat % 16 * 4), '=']
  | a :: b :: c :: rest =>
    symbol (a.toNat / 4) :: symbol (a.toNat % 4 * 16 + b.toNat / 16) ::
      symbol (b.toNat % 16 * 4 + c.toNat / 64) :: symbol (c.toNat % 64) :: encode rest

/-- Four symbols at a time; padding only closes the last four. The bits a padded group leaves over
are not looked at. -/
def decode : List Char → Option (List UInt8)
  | [] => some []
  | w :: x :: y :: z :: rest =>
    match index w, index x, index y, index z with
    | some i, some j, some k, some l => (decode rest).map fun bs =>
        UInt8.ofNat (i * 4 + j / 16) :: UInt8.ofNat (j % 16 * 16 + k / 4) ::
          UInt8.ofNat (k % 4 * 64 + l) :: bs
    | some i, some j, some k, none =>
      if z = '=' ∧ rest = [] then
        some [UInt8.ofNat (i * 4 + j / 16), UInt8.ofNat (j % 16 * 16 + k / 4)]
      else none
    | some i, some j, none, none =>
      if y = '=' ∧ z = '=' ∧ rest = [] then some [UInt8.ofNat (i * 4 + j / 16)] else none
    | _, _, _, _ => none
  | _ => none

theorem index_symbol {n : Nat} (h : n < 64) : index (symbol n) = some n := by
  have hall : ∀ n : Fin 64, index (symbol n) = some n.val := by decide
  exact hall ⟨n, h⟩

theorem index_pad : index '=' = none := by decide

theorem byte_eq {b : UInt8} {n : Nat} (h : n = b.toNat) : UInt8.ofNat n = b := by
  rw [h, UInt8.ofNat_toNat]

theorem decode_encode (bs : List UInt8) : decode (encode bs) = some bs := by
  induction bs using encode.induct with
  | case1 => rfl
  | case2 a =>
    have ha := a.toNat_lt
    have hi : index (symbol (a.toNat / 4)) = some (a.toNat / 4) := index_symbol (by omega)
    have hj : index (symbol (a.toNat % 4 * 16)) = some (a.toNat % 4 * 16) := index_symbol (by omega)
    simp only [encode, decode, hi, hj, index_pad, and_self, if_true, Option.some.injEq,
      List.cons.injEq, and_true]
    exact byte_eq (by omega)
  | case3 a b =>
    have ha := a.toNat_lt
    have hb := b.toNat_lt
    have hi : index (symbol (a.toNat / 4)) = some (a.toNat / 4) := index_symbol (by omega)
    have hj : index (symbol (a.toNat % 4 * 16 + b.toNat / 16)) =
      some (a.toNat % 4 * 16 + b.toNat / 16) := index_symbol (by omega)
    have hk : index (symbol (b.toNat % 16 * 4)) = some (b.toNat % 16 * 4) := index_symbol (by omega)
    simp only [encode, decode, hi, hj, hk, index_pad, and_self, if_true, Option.some.injEq,
      List.cons.injEq, and_true]
    exact ⟨byte_eq (by omega), byte_eq (by omega)⟩
  | case4 a b c rest ih =>
    have ha := a.toNat_lt
    have hb := b.toNat_lt
    have hc := c.toNat_lt
    have hi : index (symbol (a.toNat / 4)) = some (a.toNat / 4) := index_symbol (by omega)
    have hj : index (symbol (a.toNat % 4 * 16 + b.toNat / 16)) =
      some (a.toNat % 4 * 16 + b.toNat / 16) := index_symbol (by omega)
    have hk : index (symbol (b.toNat % 16 * 4 + c.toNat / 64)) =
      some (b.toNat % 16 * 4 + c.toNat / 64) := index_symbol (by omega)
    have hl : index (symbol (c.toNat % 64)) = some (c.toNat % 64) := index_symbol (by omega)
    simp only [encode, decode, hi, hj, hk, hl, ih, Option.map_some, Option.some.injEq,
      List.cons.injEq, and_true]
    exact ⟨byte_eq (by omega), byte_eq (by omega), byte_eq (by omega)⟩

theorem length_encode (bs : List UInt8) : (encode bs).length = 4 * ((bs.length + 2) / 3) := by
  induction bs using encode.induct with
  | case1 | case2 | case3 => simp [encode]
  | case4 a b c rest ih =>
    simp only [encode, List.length_cons, ih]
    omega

theorem mem_encode {bs : List UInt8} {c : Char} (h : c ∈ encode bs) :
    c = '=' ∨ ∃ n < 64, c = symbol n := by
  induction bs using encode.induct with
  | case1 => simp [encode] at h
  | case2 a =>
    have ha := a.toNat_lt
    simp only [encode, List.mem_cons, List.not_mem_nil, or_false] at h
    rcases h with rfl | rfl | rfl | rfl
    · exact Or.inr ⟨_, by omega, rfl⟩
    · exact Or.inr ⟨_, by omega, rfl⟩
    · exact Or.inl rfl
    · exact Or.inl rfl
  | case3 a b =>
    have ha := a.toNat_lt
    have hb := b.toNat_lt
    simp only [encode, List.mem_cons, List.not_mem_nil, or_false] at h
    rcases h with rfl | rfl | rfl | rfl
    · exact Or.inr ⟨_, by omega, rfl⟩
    · exact Or.inr ⟨_, by omega, rfl⟩
    · exact Or.inr ⟨_, by omega, rfl⟩
    · exact Or.inl rfl
  | case4 a b c rest ih =>
    have ha := a.toNat_lt
    have hb := b.toNat_lt
    have hc := c.toNat_lt
    simp only [encode, List.mem_cons] at h
    rcases h with rfl | rfl | rfl | rfl | h
    · exact Or.inr ⟨_, by omega, rfl⟩
    · exact Or.inr ⟨_, by omega, rfl⟩
    · exact Or.inr ⟨_, by omega, rfl⟩
    · exact Or.inr ⟨_, by omega, rfl⟩
    · exact ih h

theorem symbol_ne_dot {n : Nat} (h : n < 64) : symbol n ≠ '.' := by
  have hall : ∀ n : Fin 64, symbol n ≠ '.' := by decide
  exact hall ⟨n, h⟩

theorem dot_not_mem_encode (bs : List UInt8) : '.' ∉ encode bs := by
  intro h
  rcases mem_encode h with h | ⟨n, hn, h⟩
  · exact absurd h (by decide)
  · exact symbol_ne_dot hn h.symm

theorem symbol_ascii {n : Nat} (h : n < 64) : (symbol n).toNat < 128 := by
  have hall : ∀ n : Fin 64, (symbol n).toNat < 128 := by decide
  exact hall ⟨n, h⟩

theorem ascii_of_mem_encode {bs : List UInt8} {c : Char} (h : c ∈ encode bs) : c.toNat < 128 := by
  rcases mem_encode h with rfl | ⟨n, hn, rfl⟩
  · decide
  · exact symbol_ascii hn

theorem ascii_of_index {c : Char} {n : Nat} (h : index c = some n) : c.toNat < 128 := by
  unfold index at h
  split at h
  · omega
  · split at h
    · omega
    · split at h
      · omega
      · split at h
        · rename_i hc
          rw [hc]
          decide
        · split at h
          · rename_i hc
            rw [hc]
            decide
          · cases h

theorem ascii_of_decode {cs : List Char} {bs : List UInt8} (h : decode cs = some bs) :
    ∀ c ∈ cs, c.toNat < 128 := by
  induction cs using decode.induct generalizing bs with
  | case1 => simp
  | case2 w x y z rest i j k l hz hy hx hw ih =>
    simp only [decode, hw, hx, hy, hz, Option.map_eq_some_iff] at h
    obtain ⟨bs', hrest, -⟩ := h
    simpa [ascii_of_index hw, ascii_of_index hx, ascii_of_index hy, ascii_of_index hz]
      using ih hrest
  | case3 w x y z rest i j k hz hy hx hw hend =>
    obtain ⟨rfl, rfl⟩ := hend
    simp [ascii_of_index hw, ascii_of_index hx, ascii_of_index hy]
  | case4 w x y z rest i j k hz hy hx hw hend => simp [decode, hw, hx, hy, hz, hend] at h
  | case5 w x y z rest i j hz hy hx hw hend =>
    obtain ⟨rfl, rfl, rfl⟩ := hend
    simp [ascii_of_index hw, ascii_of_index hx]
  | case6 w x y z rest i j hz hy hx hw hend => simp [decode, hw, hx, hy, hz, hend] at h
  | case7 w x y z rest h4 h3 h2 =>
    rw [decode] at h
    split at h
    · exact (h4 _ _ _ _ ‹_› ‹_› ‹_› ‹_›).elim
    · exact (h3 _ _ _ ‹_› ‹_› ‹_› ‹_›).elim
    · exact (h2 _ _ ‹_› ‹_› ‹_› ‹_›).elim
    · cases h
  | case8 cs hnil hcons =>
    rw [decode] at h
    · cases h
    · exact hnil
    · exact hcons

end BetterAuthBridge.Library.Base64
