import BetterAuthBridge.CookieOrder
import BetterAuthBridge.RemoteSoundness

namespace BetterAuthBridge.OutboundCookie

open Library Library.Text Library.Runs Library.Tasks Values Csrf CookieParsing CookieResolution
open CookieNames CookieOrder RemoteVerifier RemoteSections RemoteSteps RemoteInvariants

variable {R : Runtime} {v : Verifier} {connection : Connection} {base value : Text}
  {pairs : List Pair} {p : Pair}

/-- What a request forwards of an incoming connection: one cookie, under the base name, and
nothing that a receiver could read as another. -/
structure Forwards (v : Verifier) (connection : Connection) (headers : List (String × Text)) :
    Prop where
  exact : ∃ value,
    headers = [("cookie", v.names.base ++ '=' :: value), ("accept", "application/json".toList)] ∧
    cookiePairs (v.names.base ++ '=' :: value) = [(v.names.base, value)] ∧
    Carries v.names.base (matchedPairs v.names.base (linePairs connection)) value ∧
    ∀ c ∈ value, c ≠ ';' ∧ ∃ line ∈ connection.getlist "cookie", c ∈ line

/-- A name and a value that were split out of a header are put together again. -/
theorem cookiePairs_rejoined (hb : Token base) (hs : ';' ∉ value) (ht : strip value = value) :
    cookiePairs (base ++ '=' :: value) = [(base, value)] := by
  have hvis : ∀ c ∈ base, Visible c := fun c hc => visible_of_tokenChar (hb.2 c hc)
  have heq : '=' ∉ base := fun hm => (hvis _ hm).2.2 rfl
  have hsemi : ';' ∉ base ++ '=' :: value := by
    have hbase : ';' ∉ base := fun hm => absurd (hb.2 _ hm) (by decide)
    simp [hbase, hs]
  have hname : strip base = base := trim_eq_self fun c hc => (hvis c hc).not_isSpace
  have hpair : cookiePair (base ++ '=' :: value) = some (base, value) := by
    rw [cookiePair_eq, cut_append heq, Option.map_some, hname, ht]
  rw [cookiePairs, List.splitOn_eq_singleton hsemi, List.filterMap_cons_some hpair,
    List.filterMap_nil]

theorem value_of_mem {header : Text} (h : p ∈ cookiePairs header) :
    strip p.2 = p.2 ∧ ∀ c ∈ p.2, c ≠ ';' ∧ c ∈ header := by
  obtain ⟨fragment, hf, hp⟩ := List.mem_filterMap.mp h
  obtain ⟨hn, hsub⟩ := mem_splitOn hf
  rw [cookiePair_eq] at hp
  obtain ⟨⟨a, b⟩, hc, rfl⟩ := Option.map_eq_some_iff.mp hp
  obtain ⟨rfl, -⟩ := cut_eq_some.mp hc
  refine ⟨trim_trim isSpace b, fun c hm => ?_⟩
  have hmem : c ∈ a ++ '=' :: b :=
    List.mem_append_right a (List.mem_cons_of_mem _ (mem_of_mem_trim hm))
  refine ⟨?_, hsub hmem⟩
  rintro rfl
  exact hn hmem

theorem carried_pieces (h : Carries base pairs value) :
    ∃ values : List Text, value = values.flatten ∧ ∀ piece ∈ values, ∃ p ∈ pairs, p.2 = piece := by
  cases h with
  | whole value he =>
    refine ⟨[value], by simp, fun piece hm => ?_⟩
    rw [he]
    exact ⟨_, List.mem_singleton_self _, (List.mem_singleton.mp hm).symm⟩
  | chunked values hne hperm hlen =>
    refine ⟨values, rfl, fun piece hm => ?_⟩
    rw [← map_snd_numbered values] at hm
    obtain ⟨q, hq, rfl⟩ := List.mem_map.mp hm
    exact ⟨_, hperm.symm.subset (List.mem_map_of_mem hq), rfl⟩

theorem carried_trimmed {header : Text}
    (h : Carries base (matchedPairs base (cookiePairs header)) value) : strip value = value := by
  obtain ⟨values, rfl, hp⟩ := carried_pieces h
  refine trim_flatten fun piece hm => ?_
  obtain ⟨p, hmatched, rfl⟩ := hp piece hm
  obtain ⟨hmem, hkeep⟩ := List.mem_filter.mp hmatched
  refine ⟨?_, (value_of_mem hmem).1⟩
  intro hn
  rw [hn] at hkeep
  simp [blank] at hkeep

theorem carried_drawn
    (h : Carries base (matchedPairs base (linePairs connection)) value) :
    ∀ c ∈ value, c ≠ ';' ∧ ∃ line ∈ connection.getlist "cookie", c ∈ line := by
  obtain ⟨values, rfl, hp⟩ := carried_pieces h
  intro c hc
  obtain ⟨piece, hm, hc⟩ := List.mem_flatten.mp hc
  obtain ⟨p, hmatched, rfl⟩ := hp piece hm
  obtain ⟨line, hline, hpair⟩ := List.mem_flatMap.mp (List.mem_filter.mp hmatched).1
  obtain ⟨hne, hmem⟩ := (value_of_mem hpair).2 c hc
  exact ⟨hne, line, hline, hmem⟩

/-- Material that `extract` found and that resolves is forwarded as it is. -/
theorem forwards_of_resolved {snapshot : Snapshot} {name : Text} (hb : Token v.names.base)
    (hx : v.extract connection = some (.remote snapshot))
    (hr : resolveNamedCookie R snapshot.pairs v.names.base = .ok (name, value)) :
    Forwards v connection (Verifier.outbound name value) := by
  obtain ⟨snapshot', hs, he⟩ := Option.map_eq_some_iff.mp hx
  cases he
  obtain ⟨matched, hp, rfl⟩ := Option.map_eq_some_iff.mp hs
  obtain ⟨-, -, rfl, -⟩ := presented_eq_some.mp hp
  obtain ⟨rfl, hv⟩ := resolveNamedCookie_ok.mp hr
  have hcarries := (resolveCookieValue_ok fun p hp => acceptable_of_mem_matchedPairs hp).mp hv
  have htrim := carried_trimmed hcarries
  rw [joinedCookieHeader, cookiePairs_intercalate] at hcarries
  have hdrawn := carried_drawn hcarries
  have hrejoined := cookiePairs_rejoined hb (fun hm => (hdrawn _ hm).1 rfl) htrim
  exact ⟨value, rfl, hrejoined, hcarries, hdrawn⟩

variable {ι υ : Type} [DecidableEq ι] {tr : History ι υ} {w : World ι (Shared ι) (Phase υ)}
  {clock : Seconds}

/-- Whatever is sent to the auth service is the cookie its call was started with, and nothing else
of that connection. -/
structure OnlyForwards (R : Runtime) (v : Verifier) (tr : History ι υ) : Prop where
  resolved : ∀ connection snapshot name value, v.extract connection = some (.remote snapshot) →
    resolveNamedCookie R snapshot.pairs v.names.base = .ok (name, value) →
    Forwards v connection (Verifier.outbound name value)
  sent : ∀ a x b i uri headers, tr = a ++ x :: b → Did i (.getSessionSent uri headers) x →
    ∃ y ∈ a, ∃ credential userModel, y.event = .act i (.start (.verify credential userModel)) ∧
      ∀ connection, v.extract connection = some credential → Forwards v connection headers

theorem only_forwards (hb : Token v.names.base)
    (h : Run (v.machine R) (Verifier.start clock) tr w) : OnlyForwards R v tr := by
  refine ⟨fun connection snapshot name value hx hr => forwards_of_resolved hb hx hr, ?_⟩
  rintro a x b i uri headers rfl ⟨⟨e, he⟩, hf⟩
  obtain ⟨hr, hx, -⟩ := h.at
  obtain ⟨pending, hp, -, rfl⟩ := (moves_of_event hx he).requested hf
  have hi := (stands hr).2 i
  rw [hp] at hi
  obtain ⟨y, hy, credential, userModel, hstart, hadm⟩ := hi.began pending rfl
  refine ⟨y, hy, credential, userModel, hstart, fun connection hc => ?_⟩
  obtain ⟨snapshot, rfl, hmat, -⟩ := hadm.snapshot
  rw [hadm.name]
  exact forwards_of_resolved hb hc (resolveNamedCookie_ok.mpr ⟨rfl, hmat⟩)

theorem sampleNames_token : Token RemoteSoundness.sampleVerifier.names.base := by
  constructor
  · decide
  · exact List.all_eq_true.mp (by decide)

def sendsRequest : Effect Payload → Bool
  | .getSessionSent .. => true
  | _ => false

theorem only_forwards_sample : ∃ (tr : History Nat Payload)
    (w : World Nat (Shared Nat) (Phase Payload)),
    Run (RemoteSoundness.sampleVerifier.machine RemoteSoundness.sampleRuntime) (Verifier.start 0)
      tr w ∧ (tr.any fun x => x.effects.any sendsRequest) = true ∧
      OnlyForwards RemoteSoundness.sampleRuntime RemoteSoundness.sampleVerifier tr := by
  have h : ((replay (RemoteSoundness.sampleVerifier.machine RemoteSoundness.sampleRuntime)
      (Verifier.start 0) (RemoteSoundness.sampleEvents 0)).any
      fun r => r.1.any fun x => x.effects.any sendsRequest) = true := by decide +kernel
  obtain ⟨tr, w, hr, hs⟩ :=
    Run.of_replay_any (P := fun tr => tr.any fun x => x.effects.any sendsRequest) h
  exact ⟨tr, w, hr, hs, only_forwards sampleNames_token hr⟩

end BetterAuthBridge.OutboundCookie
