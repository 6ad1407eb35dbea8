import BetterAuthBridge.CookieVerifier

namespace BetterAuthBridge.CookieAcceptance

open Library.Procedure Values Errors SessionDocument Models Csrf CookieParsing CookieResolution
open Signing CookieVerifier

variable {υ : Type} {R : Runtime} {v : Verifier} {connection : Connection}

theorem extract_eq_some {credential : Credential} :
    v.extract connection = some credential ↔
      ∃ matched, presented v.names.base (joinedCookieHeader connection) = some matched ∧
        .cookie ⟨matched, CsrfFacts.fromConnection connection v.csrf⟩ = credential := by
  simp only [Verifier.extract, snapshotOf, Option.map_map, Option.map_eq_some_iff,
    Function.comp_apply]

/-- Exact acceptance of Mode A: extraction followed by verification answers a session if and only
if the header is within its caps, the pairs it presents carry one value, a secret of the keyring
signed that value, the policy lets the request through and the store vouches for the token. -/
theorem session_iff (R : Runtime) (v : Verifier) (connection : Connection)
    (userModel : UserModel υ) (now : Readings) (found : Session υ) :
    (∃ credential, v.extract connection = some credential ∧
      (exec (v.verify R credential userModel now) []).1 = .ok found) ↔
    (joinedCookieHeader connection).length ≤ maxCookieHeaderBytes ∧
      (cookiePairs (joinedCookieHeader connection)).length ≤ maxCookiePairs ∧
      ∃ material token,
        Carries v.names.base
          (matchedPairs v.names.base (cookiePairs (joinedCookieHeader connection))) material ∧
        Signed R v.secrets material token ∧
        v.csrf.check (CsrfFacts.fromConnection connection v.csrf) token = .none ∧
        Vouched v.store userModel token now found := by
  have hres : ∀ {pairs material},
      resolveCookieValue R (matchedPairs v.names.base pairs) v.names.base = .ok material ↔
        Carries v.names.base (matchedPairs v.names.base pairs) material :=
    resolveCookieValue_ok fun p hp => acceptable_of_mem_matchedPairs hp
  simp only [extract_eq_some]
  constructor
  · rintro ⟨-, ⟨matched, hp, rfl⟩, hv⟩
    obtain ⟨hh, hn, rfl, -⟩ := presented_eq_some.mp hp
    obtain ⟨material, token, hm, hrest⟩ := verify_ok.mp hv
    exact ⟨hh, hn, material, token, hres.mp hm, hrest⟩
  · rintro ⟨hh, hn, material, token, hc, hrest⟩
    exact ⟨_, ⟨_, presented_eq_some.mpr ⟨hh, hn, rfl, hc.ne_nil⟩, rfl⟩,
      verify_ok.mpr ⟨material, token, hres.mpr hc, hrest⟩⟩

end BetterAuthBridge.CookieAcceptance
