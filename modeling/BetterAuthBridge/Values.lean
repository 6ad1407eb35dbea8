import BetterAuthBridge.Library.Text
import Mathlib.Algebra.Order.Ring.Rat
import Mathlib.Data.List.FinRange
import Mathlib.Data.Option.Basic

namespace BetterAuthBridge.Values

open Library.Text

/-- A Python `str` that has a UTF-8 encoding. -/
abbrev Text := List Char

instance : LawfulBEq Text := inferInstance

abbrev Bytes := List UInt8

/-- One code point of a Python `str`, which may also be an unpaired surrogate. -/
inductive CodePoint
  | char (c : Char)
  | surrogate (n : Fin 2048)
  deriving DecidableEq

abbrev Str := List CodePoint

instance : LawfulBEq Str := inferInstance

def ofText (t : Text) : Str := t.map .char

def ofString (s : String) : Str := ofText s.toList

/-- The text of a string that can be encoded, `none` where `str.encode("utf-8")` raises. -/
def encodable : Str → Option Text
  | [] => some []
  | .char c :: s => (encodable s).map (c :: ·)
  | .surrogate _ :: _ => none

@[simp] theorem encodable_ofText (t : Text) : encodable (ofText t) = some t := by
  induction t with
  | nil => rfl
  | cons c t ih =>
    change (encodable (ofText t)).map (c :: ·) = _
    rw [ih]
    rfl

theorem encodable_eq_some {s : Str} {t : Text} : encodable s = some t ↔ s = ofText t := by
  constructor
  · induction s generalizing t with
    | nil =>
      intro h
      cases h
      rfl
    | cons x s ih =>
      cases x with
      | char c =>
        intro h
        obtain ⟨t', ht, rfl⟩ := Option.map_eq_some_iff.mp h
        rw [ih ht]
        rfl
      | surrogate n => intro h; cases h
  · rintro rfl
    exact encodable_ofText t

/-- The characters `str.strip()` removes: the bidirectional types WS, B and S and the category
Zs. -/
def isSpace (c : Char) : Bool :=
  let n := c.toNat
  (9 ≤ n && n ≤ 13) || (28 ≤ n && n ≤ 32) || n == 0x85 || n == 0xA0 || n == 0x1680 ||
    (0x2000 ≤ n && n ≤ 0x200A) || n == 0x2028 || n == 0x2029 || n == 0x202F || n == 0x205F ||
    n == 0x3000

def strip (t : Text) : Text := trim isSpace t

def blank (t : Text) : Bool := t.all isSpace

theorem blank_iff {t : Text} : blank t = true ↔ strip t = [] := by
  rw [strip, trim_eq_nil_iff, blank, List.all_eq_true]

def Str.blank (s : Str) : Bool := s.all fun | .char c => isSpace c | .surrogate _ => false

@[simp] theorem Str.blank_ofText (t : Text) : Str.blank (ofText t) = Values.blank t := by
  simp [Str.blank, ofText, Values.blank, Function.comp_def]

/-- `str.lower()` as far as a comparison with an ASCII name can tell. -/
def lower (t : Text) : Text := t.map fun c => if c = '\u212a' then 'k' else c.toLower

/-- What a character becomes by `str.upper()`, as far as a comparison with an ASCII name can
tell. -/
def upperChar : Char → Text
  | 'ß' => ['S', 'S']
  | 'ı' => ['I']
  | 'ſ' => ['S']
  | 'ﬀ' => ['F', 'F']
  | 'ﬁ' => ['F', 'I']
  | 'ﬂ' => ['F', 'L']
  | 'ﬃ' => ['F', 'F', 'I']
  | 'ﬄ' => ['F', 'F', 'L']
  | 'ﬅ' | 'ﬆ' => ['S', 'T']
  | c => [c.toUpper]

def upper (t : Text) : Text := t.flatMap upperChar

/-- The same for `str.casefold()`. -/
def casefoldChar : Char → Text
  | 'ß' | 'ẞ' => ['s', 's']
  | 'ſ' => ['s']
  | '\u212a' => ['k']
  | 'ﬀ' => ['f', 'f']
  | 'ﬁ' => ['f', 'i']
  | 'ﬂ' => ['f', 'l']
  | 'ﬃ' => ['f', 'f', 'i']
  | 'ﬄ' => ['f', 'f', 'l']
  | 'ﬅ' | 'ﬆ' => ['s', 't']
  | c => [c.toLower]

def casefold (t : Text) : Text := t.flatMap casefoldChar

def isAscii (c : Char) : Bool := c.toNat < 128

/-- What can be said of every ASCII character can be said of the first 128. -/
theorem forall_ascii {P : Char → Prop} (h : ∀ n : Fin 128, P (Char.ofNat n)) {c : Char}
    (hc : isAscii c = true) : P c := by
  have hn := h ⟨c.toNat, of_decide_eq_true hc⟩
  rwa [Char.ofNat_toNat] at hn

theorem toLower_of_not_ascii {c : Char} (h : isAscii c = false) : c.toLower = c := by
  rw [isAscii, decide_eq_false_iff_not] at h
  unfold Char.toLower
  rw [dif_neg]
  rintro ⟨-, hz⟩
  have hz' : c.toNat ≤ 90 := UInt32.le_iff_toNat_le.mp hz
  omega

def encodeUtf8 (t : Text) : Bytes := t.flatMap String.utf8EncodeChar

/-- `bytes.decode("utf-8", errors="strict")`. -/
def decodeUtf8 (bs : Bytes) : Option Text := bs.toByteArray.utf8Decode?.map (·.toList)

theorem decodeUtf8_encodeUtf8 (t : Text) : decodeUtf8 (encodeUtf8 t) = some t := by
  have h : (encodeUtf8 t).toByteArray = t.utf8Encode := rfl
  rw [decodeUtf8, h, List.utf8Decode?_utf8Encode]
  rfl

theorem encodeUtf8_injective : Function.Injective encodeUtf8 := by
  intro a b h
  have h' := congrArg decodeUtf8 h
  simpa only [decodeUtf8_encodeUtf8, Option.some.injEq] using h'

/-- A `datetime`: microseconds on its own clock face, and the offset from UTC when it is aware. -/
structure DateTime where
  wall : Int
  utcoffset : Option Int
  deriving DecidableEq, Repr

inductive Value
  | none
  | bool (b : Bool)
  | int (n : Int)
  | float (bits : UInt64)
  | str (s : Str)
  | datetime (d : DateTime)
  | list (xs : List Value)
  | dict (fields : List (Str × Value))
  | object (className : String)

abbrev Payload := List (Str × Value)

def Payload.get (p : Payload) (key : String) : Value := (p.lookup (ofString key)).getD .none

def Value.isNone : Value → Bool
  | .none => true
  | _ => false

/-- What `json.loads` is handed. -/
inductive JsonText
  | bytes (b : Bytes)
  | str (s : Str)

abbrev Digest := { d : Bytes // d.length = 32 }

instance : Inhabited Digest := ⟨⟨List.replicate 32 0, rfl⟩⟩

/-- The primitives the package takes from Python's standard library: HMAC-SHA256 of a key and a
message, SHA-256, `json.loads` (`none` where it raises), `datetime.fromisoformat` and `repr`. -/
structure Runtime where
  hmacSha256 : Bytes → Bytes → Digest
  sha256 : Bytes → Digest
  loads : JsonText → Option Value
  fromisoformat : Str → Option DateTime
  repr : Text → String

/-- A loop that looks at every candidate decides as a search for one does. -/
theorem foldl_or {α : Type} (p : α → Bool) (xs : List α) (b : Bool) :
    xs.foldl (fun matched x => matched || p x) b = (b || xs.any p) := by
  induction xs generalizing b with
  | nil => simp
  | cons x xs ih => simp [ih, Bool.or_assoc]

/-- A monotonic clock reading, in seconds. -/
abbrev Seconds := Rat

end BetterAuthBridge.Values
