import BetterAuthBridge.Values

namespace BetterAuthBridge.Labels

open Values

/-- `str.casefold()`, character by character; of the table only its ASCII part is fixed. -/
structure CaseFolding where
  fold : Char → Text
  ascii : ∀ c, isAscii c = true → fold c = [c.toLower]

def CaseFolding.casefold (F : CaseFolding) (t : Text) : Text := t.flatMap F.fold

def bearerSource : Text := "header:authorization-bearer".toList

def cookiePrefix : Text := "cookie:".toList

def browserCookiePrefixes : List Text := ["__secure-".toList, "__host-".toList]

def cookieSource (cookie : Text) : Text := cookiePrefix ++ cookie

variable (F : CaseFolding)

def cookieNamed (source : Text) : Option Text :=
  let stripped := strip source
  if cookiePrefix.isPrefixOf (F.casefold stripped) then
    let name := strip (stripped.drop cookiePrefix.length)
    if name = [] then none else some name
  else none

def browserPrefix (folded : Text) : Option Text :=
  browserCookiePrefixes.find? fun p => p.isPrefixOf folded

/-- The loop of `_base`, for at most so many rounds. -/
def baseWithin : Nat → Text → Text
  | 0, folded => folded
  | rounds + 1, folded =>
    match browserPrefix folded with
    | none => folded
    | some p => baseWithin rounds (folded.drop p.length)

def base (folded : Text) : Text := baseWithin folded.length folded

/-- What two labels share when their verifiers would find one credential. -/
def collisionKey (source : Text) : Text :=
  match cookieNamed F source with
  | none => F.casefold (strip source)
  | some cookie => cookieSource (base (F.casefold cookie))

theorem browserPrefix_shortens {folded p : Text} (h : browserPrefix folded = some p) :
    (folded.drop p.length).length < folded.length := by
  have hlong : ∀ p ∈ browserCookiePrefixes, 0 < p.length := by decide
  have hp := hlong p (List.mem_of_find?_eq_some h)
  have hpre := List.find?_some h
  have hle := (List.isPrefixOf_iff_prefix.mp hpre).length_le
  rw [List.length_drop]
  omega

/-- As many rounds as the name is long are enough for the loop to come to its end. -/
theorem browserPrefix_base (folded : Text) : browserPrefix (base folded) = none := by
  have hend : ∀ rounds folded, folded.length ≤ rounds →
      browserPrefix (baseWithin rounds folded) = none := by
    intro rounds
    induction rounds with
    | zero =>
      intro folded hlen
      rw [List.length_eq_zero_iff.mp (Nat.le_zero.mp hlen)]
      decide
    | succ rounds ih =>
      intro folded hlen
      rw [baseWithin]
      cases hp : browserPrefix folded with
      | none => exact hp
      | some p =>
        have hlt := browserPrefix_shortens hp
        exact ih _ (by omega)
  exact hend _ _ le_rfl

end BetterAuthBridge.Labels
