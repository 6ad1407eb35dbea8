import Mathlib.Data.List.Basic
import Mathlib.Data.Set.Defs

namespace BetterAuthBridge.Library.Spelling

def printable (c : Char) : Bool := 0x20 ≤ c.toNat && c.toNat ≤ 0x7e

structure Alphabet where
  letters : Set Char
  plain : ∀ c, printable c = true → c ∈ letters

def ascii : Alphabet := ⟨{c | printable c = true}, fun _ h => h⟩

structure Alphabet.Spells (A : Alphabet) (s : String) : Prop where
  letters : ∀ c ∈ s.toList, c ∈ A.letters

namespace Alphabet.Spells

variable {A : Alphabet} {s t : String} {l r : List Char}

theorem ofList (h : ∀ c ∈ l, c ∈ A.letters) : A.Spells (String.ofList l) := by
  refine ⟨fun c hc => h c ?_⟩
  rwa [String.toList_ofList] at hc

theorem literal (h : l.all printable = true) : A.Spells (String.ofList l) :=
  ofList fun c hc => A.plain c (List.all_eq_true.mp h c hc)

theorem append (hs : A.Spells s) (ht : A.Spells t) : A.Spells (s ++ t) := by
  refine ⟨fun c hc => ?_⟩
  rw [String.toList_append] at hc
  exact (List.mem_append.mp hc).elim (hs.letters c) (ht.letters c)

theorem framed (hl : l.all printable = true) (hs : A.Spells s) (hr : r.all printable = true) :
    A.Spells (String.ofList l ++ s ++ String.ofList r) :=
  ((literal hl).append hs).append (literal hr)

theorem take (hs : A.Spells s) (n : Nat) : A.Spells (String.ofList (s.toList.take n)) :=
  ofList fun c hc => hs.letters c (List.mem_of_mem_take hc)

theorem intercalate {texts : List String} (hs : A.Spells s) (h : ∀ t ∈ texts, A.Spells t) :
    A.Spells (s.intercalate texts) := by
  induction texts with
  | nil =>
    rw [String.intercalate_nil]
    exact .literal rfl
  | cons t texts ih =>
    obtain ⟨ht, hrest⟩ := List.forall_mem_cons.mp h
    by_cases hn : texts = []
    · rw [hn, String.intercalate_singleton]
      exact ht
    · rw [String.intercalate_cons_of_ne_nil hn]
      exact (ht.append hs).append (ih hrest)

theorem nat (n : Nat) : A.Spells (toString n) := by
  rw [Nat.toString_eq_ofList_toDigits]
  refine ofList fun c hc => A.plain c ?_
  have hd := Nat.isDigit_of_mem_toDigits (by decide) (by decide) hc
  rw [Char.isDigit, Bool.and_eq_true, decide_eq_true_eq, decide_eq_true_eq] at hd
  have hlow : 48 ≤ c.toNat := UInt32.le_iff_toNat_le.mp hd.1
  have hhigh : c.toNat ≤ 57 := UInt32.le_iff_toNat_le.mp hd.2
  rw [printable, Bool.and_eq_true, decide_eq_true_eq, decide_eq_true_eq]
  omega

theorem int (n : Int) : A.Spells (toString n) := by
  cases n with
  | ofNat n => exact nat n
  | negSucc n => exact .append (.literal rfl) (nat (n + 1))

end Alphabet.Spells

end BetterAuthBridge.Library.Spelling
