import Zentalk.Network.Circuits
import Zentalk.Network.GuardChoice

/-!
# Building a path with a guard

Nothing takes the guard out of the relays that are discovered (`path_exact_iff`).
-/

namespace Zentalk

open Wire Sampling Decimal List Option GuardRelayManager Outcome

/-! ## The code -/

/-- The fields of `Client` that a path is built from. The guard manager is made from the client's
own `relayDiscovery`, and the pointers stay the same. -/
structure PathClient where
  relayDiscovery : Option RelayDiscovery
  guardRelayManager : Option GuardRelayManager
  shared : ∀ grm, guardRelayManager = some grm → grm.discovery = relayDiscovery

/-- What `BuildSecureRelayPath` gets from outside. -/
structure PathRun where
  guard : GuardRun
  choices : Choices
  /-- The choices of a selection when a failure of the guard is recorded. -/
  record : SelectRun

/-- The guard manager, which is made when there is none. -/
def PathClient.manager (c : PathClient) (now : ℤ) : Option GuardRelayManager :=
  match c.guardRelayManager, c.relayDiscovery with
  | some grm, _ => some grm
  | none, some rd => some (newGuardRelayManager (some rd) now)
  | none, none => none

section

variable {S : OnionSuite} (importPublicKeyPEM : Bytes → Except Bytes S.PublicKey)

/-- The relays as hops, without those whose key cannot be parsed. -/
def hopsOf (relays : List RelayMetadata) : List (RelayInfo S) :=
  relays.filterMap fun m => (relayInfo importPublicKeyPEM m).toOption

/-- The check at the end. -/
def checkLength (numRelays : ℤ) (path : List (RelayInfo S)) : Except Bytes (List (RelayInfo S)) :=
  if path.length < numRelays then
    .error (asciiBytes "not enough relays available (need " ++ decimal numRelays ++
      asciiBytes ", found " ++ decimal path.length ++ asciiBytes ")")
  else .ok path

/-- The part that discovers the remaining hops. -/
def GuardRelayManager.completePath (grm : GuardRelayManager) (now : ℤ) (choices : Choices)
    (numRelays : ℤ) (path : List (RelayInfo S)) :
    GuardRelayManager × Outcome (Except Bytes (List (RelayInfo S))) :=
  let remainingHops := numRelays - path.length
  match grm.discovery with
  | none => (grm, .returns (checkLength numRelays path))
  | some rd =>
    if 0 < remainingHops then
      let (rd', discovered) := rd.discoverRelays now choices remainingHops
      Outcome.andThen ({ grm with discovery := some rd' }, discovered) fun
        | grm, .error err =>
          (grm, .returns (.error (asciiBytes "failed to discover relays: " ++ err)))
        | grm, .ok additionalRelays =>
          let hops := hopsOf importPublicKeyPEM (additionalRelays.take remainingHops.toNat)
          (grm, .returns (checkLength numRelays (path ++ hops)))
    else (grm, .returns (checkLength numRelays path))

/-- `BuildSecureRelayPath`, once there is a guard manager. -/
def GuardRelayManager.buildPath (grm : GuardRelayManager) (now : ℤ) (run : PathRun)
    (numRelays : ℤ) : GuardRelayManager × Outcome (Except Bytes (List (RelayInfo S))) :=
  Outcome.andThen (grm.getGuardRelay now run.guard) fun
    | grm, .error _ => grm.completePath importPublicKeyPEM now run.choices numRelays []
    | grm, .ok guardRelay =>
      match relayInfo importPublicKeyPEM guardRelay with
      | .ok guardInfo =>
        Outcome.andThen (grm.completePath importPublicKeyPEM now run.choices numRelays [guardInfo])
          fun grm result => (grm.recordSuccess now guardRelay.address, .returns result)
      | .error _ =>
        Outcome.andThen (grm.completePath importPublicKeyPEM now run.choices numRelays [])
          fun grm result =>
            Outcome.andThen (grm.recordFailure now run.record guardRelay.address)
              fun grm _ => (grm, .returns result)

def PathClient.buildSecureRelayPath (c : PathClient) (now : ℤ) (run : PathRun) (numRelays : ℤ) :
    PathClient × Outcome (Except Bytes (List (RelayInfo S))) :=
  if numRelays < 3 then
    (c, .returns (.error (asciiBytes "relay path must have at least 3 hops")))
  else
    match c.manager now with
    | none => (c, .returns (checkLength numRelays []))
    | some grm =>
      let (grm, outcome) := grm.buildPath importPublicKeyPEM now run numRelays
      (⟨grm.discovery, some grm, fun _ h => some.inj h ▸ rfl⟩, outcome)

/-! ## The result -/

/-- The guard that is obtained, if its key can be parsed. -/
def GuardRelayManager.guardHop (grm : GuardRelayManager) (now : ℤ) (run : GuardRun) :
    Option (RelayInfo S) :=
  match (grm.getGuardRelay now run).2 with
  | .returns (.ok guardRelay) => (relayInfo importPublicKeyPEM guardRelay).toOption
  | _ => none

def PathClient.guardHop (c : PathClient) (now : ℤ) (run : GuardRun) : Option (RelayInfo S) :=
  (c.manager now).bind fun grm => grm.guardHop importPublicKeyPEM now run

end

/-- An error, or a path with the hops that were asked for, at different relays. The guard is the
first hop, and no other. -/
def ErrorOrPath {S : OnionSuite} (numRelays : ℤ) (guard : Option (RelayInfo S)) :
    Outcome (Except Bytes (List (RelayInfo S))) → Prop
  | .returns (.error _) => True
  | .returns (.ok path) =>
    path.length = numRelays ∧ (path.map RelayInfo.address).Nodup ∧
      ∀ hop, guard = some hop → ∃ rest, path = hop :: rest ∧ ∀ h ∈ rest, h.address ≠ hop.address
  | .panics => False
  | .draws => False

def PathClient.available (c : PathClient) (now : ℤ) : List RelayMetadata :=
  (c.relayDiscovery.map fun rd => rd.available now).getD []

/-- Enough indices are drawn for every selection, and for the remaining hops. -/
structure PathRun.Suffice (run : PathRun) (available : List RelayMetadata) (numRelays : ℤ) :
    Prop where
  guard : run.guard.Suffice available
  rest : run.choices.Suffice available (numRelays - 1)
  all : run.choices.Suffice available numRelays
  record : run.record.Suffice available

section

variable {S : OnionSuite} {importPublicKeyPEM : Bytes → Except Bytes S.PublicKey}
  {now numRelays : ℤ} {m : RelayMetadata} {relays : List RelayMetadata} {hop : RelayInfo S}
  {c : PathClient} {grm : GuardRelayManager}

def parses (importPublicKeyPEM : Bytes → Except Bytes S.PublicKey) (m : RelayMetadata) : Bool :=
  (relayInfo importPublicKeyPEM m).toOption.isSome

theorem relayInfo_address (h : (relayInfo importPublicKeyPEM m).toOption = some hop) :
    hop.address = m.address := by
  rw [relayInfo] at h
  cases hkey : importPublicKeyPEM m.publicKeyPEM with
  | error e => rw [hkey] at h; cases h
  | ok key =>
    rw [hkey] at h
    exact (congrArg RelayInfo.address (some.inj h)).symm

theorem length_hopsOf :
    (hopsOf importPublicKeyPEM relays).length =
      (relays.filter (parses importPublicKeyPEM)).length := by
  rw [hopsOf, length_filterMap_eq_countP, countP_eq_length_filter]
  rfl

theorem hopsOf_addresses (h : relays.filter (parses importPublicKeyPEM) = relays) :
    (hopsOf importPublicKeyPEM relays).map RelayInfo.address =
      relays.map RelayMetadata.address := by
  induction relays with
  | nil => rfl
  | cons m relays ih =>
    have hall := filter_eq_self.mp h
    obtain ⟨hop, hhop⟩ := isSome_iff_exists.mp (hall m mem_cons_self)
    have hcons : hopsOf importPublicKeyPEM (m :: relays) =
        hop :: hopsOf importPublicKeyPEM relays := by
      rw [hopsOf, filterMap_cons, hhop]
      rfl
    rw [hcons, map_cons, map_cons, relayInfo_address hhop]
    congr 1
    exact ih (filter_eq_self.mpr fun m hm => hall m (mem_cons_of_mem _ hm))

theorem manager_available (h : c.manager now = some grm) : grm.available now = c.available now := by
  rw [PathClient.manager] at h
  split at h
  · next grm' _ hgrm =>
    obtain rfl := some.inj h
    rw [available, c.shared _ hgrm]
    rfl
  · next rd _ hrd =>
    obtain rfl := some.inj h
    rw [PathClient.available, hrd]
    rfl
  · cases h

/-- As many relays as are asked for, that may be discovered and whose keys can be parsed. -/
structure Hops (importPublicKeyPEM : Bytes → Except Bytes S.PublicKey)
    (available : List RelayMetadata) (count : ℤ) (relays : List RelayMetadata) : Prop where
  subperm : relays.Subperm available
  length : (relays.length : ℤ) = count
  parses : relays.filter (parses importPublicKeyPEM) = relays

variable {available : List RelayMetadata}

theorem Hops.length_hopsOf {count : ℤ} (h : Hops importPublicKeyPEM available count relays) :
    ((hopsOf importPublicKeyPEM relays).length : ℤ) = count := by
  rw [Zentalk.length_hopsOf, h.parses, h.length]

def Completed (importPublicKeyPEM : Bytes → Except Bytes S.PublicKey)
    (available : List RelayMetadata) (numRelays : ℤ) (path : List (RelayInfo S))
    (result : Except Bytes (List (RelayInfo S))) : Prop :=
  ∃ relays, Hops importPublicKeyPEM available (numRelays - path.length) relays ∧
    result = .ok (path ++ hopsOf importPublicKeyPEM relays)

variable {path : List (RelayInfo S)} {choices : Choices}

theorem completePath_cases (s : GuardRelayManager) (hshort : path.length < numRelays)
    (hdraws : choices.Suffice (s.available now) (numRelays - path.length)) :
    ∃ s' result, s.completePath importPublicKeyPEM now choices numRelays path =
      (s', .returns result) ∧ s'.available now = s.available now ∧
      ((∃ e, result = .error e) ∨
        Completed importPublicKeyPEM (s.available now) numRelays path result) := by
  rw [completePath]
  split
  · refine ⟨s, _, rfl, rfl, .inl ?_⟩
    rw [checkLength, if_pos hshort]
    exact ⟨_, rfl⟩
  · next rd hrd =>
    have havailable : s.available now = rd.available now := available_of_discovery hrd
    have hsame : (rd.discoverRelays now choices (numRelays - path.length)).1.available now =
        rd.available now := RelayDiscovery.discoverRelays_available le_rfl
    rw [havailable] at hdraws ⊢
    rw [if_pos (by omega)]
    rcases RelayDiscovery.discoverRelays_cases hdraws with
      ⟨-, error, herror⟩ | ⟨-, hneg, -⟩ | ⟨relays, hoffers, hrelays⟩
    · simp only [herror, andThen]
      exact ⟨_, _, rfl, hsame, .inl ⟨_, rfl⟩⟩
    · omega
    · simp only [hrelays, andThen]
      refine ⟨_, _, rfl, hsame, ?_⟩
      have hlen := hoffers.length_eq
      have hsub := filter_sublist (l := relays) (p := parses importPublicKeyPEM)
      have hle := hsub.length_le
      rw [take_of_length_le (by omega), checkLength, length_append, length_hopsOf]
      split
      · exact .inl ⟨_, rfl⟩
      · exact .inr ⟨relays, ⟨hoffers.subperm, by omega, hsub.eq_of_length (by omega)⟩, rfl⟩

variable {s : GuardRelayManager} {run : PathRun}

theorem completePath_of_relays {rd : RelayDiscovery} (hrd : s.discovery = some rd)
    (hrelays : (rd.discoverRelays now choices (numRelays - path.length)).2 = .returns (.ok relays))
    (hshort : path.length < numRelays)
    (hhops : Hops importPublicKeyPEM available (numRelays - path.length) relays) :
    ∃ s', s.completePath importPublicKeyPEM now choices numRelays path =
      (s', .returns (.ok (path ++ hopsOf importPublicKeyPEM relays))) := by
  have hlen := hhops.length
  have hcount := hhops.length_hopsOf
  have hcheck : checkLength numRelays (path ++ hopsOf importPublicKeyPEM relays) =
      .ok (path ++ hopsOf importPublicKeyPEM relays) := by
    rw [checkLength, length_append, if_neg (by omega)]
  let rd' := (rd.discoverRelays now choices (numRelays - path.length)).1
  refine ⟨{ s with discovery := some rd' }, ?_⟩
  rw [completePath, hrd]
  simp only [if_pos (Int.sub_pos_of_lt hshort), hrelays, andThen]
  rw [take_of_length_le (by omega), hcheck]

theorem guardHop_of_ok {run : GuardRun}
    (hguard : grm.getGuardRelay now run = (s, .returns (.ok m))) :
    grm.guardHop importPublicKeyPEM now run = (relayInfo importPublicKeyPEM m).toOption := by
  rw [guardHop, hguard]

theorem buildSecureRelayPath_snd (hthree : 3 ≤ numRelays) (hmanager : c.manager now = some grm) :
    (c.buildSecureRelayPath importPublicKeyPEM now run numRelays).2 =
      (grm.buildPath importPublicKeyPEM now run numRelays).2 := by
  rw [PathClient.buildSecureRelayPath, if_neg (by omega), hmanager]

theorem relayInfo_ok (h : (relayInfo importPublicKeyPEM m).toOption = some hop) :
    relayInfo importPublicKeyPEM m = .ok hop := by
  cases hinfo : relayInfo importPublicKeyPEM m with
  | error e => rw [hinfo] at h; cases h
  | ok hop' => rw [hinfo] at h; exact congrArg _ (some.inj h)

theorem guardHop_some {run : GuardRun} (hdraws : run.Suffice (grm.available now))
    (h : grm.guardHop importPublicKeyPEM now run = some hop) :
    ∃ m, grm.MayGuard now m ∧ (relayInfo importPublicKeyPEM m).toOption = some hop := by
  rcases getGuardRelay_cases hdraws with ⟨-, s, e, hguard⟩ | ⟨s, m, hm, hguard⟩
  · rw [guardHop, hguard] at h
    cases h
  · rw [guardHop_of_ok hguard] at h
    exact ⟨m, hm, h⟩

theorem buildPath_of_guard {s' : GuardRelayManager} {result : Except Bytes (List (RelayInfo S))}
    (hguard : grm.getGuardRelay now run.guard = (s, .returns (.ok m)))
    (hinfo : relayInfo importPublicKeyPEM m = .ok hop)
    (hresult : s.completePath importPublicKeyPEM now run.choices numRelays [hop] =
      (s', .returns result)) :
    grm.buildPath importPublicKeyPEM now run numRelays =
      (s'.recordSuccess now m.address, .returns result) := by
  rw [buildPath, hguard]
  simp only [andThen, hinfo, hresult]

/-- A path begins with the guard, if there is one whose key can be parsed. -/
theorem buildPath_cases (hthree : 3 ≤ numRelays)
    (hdraws : run.Suffice (grm.available now) numRelays) :
    ∃ grm' result, grm.buildPath importPublicKeyPEM now run numRelays = (grm', .returns result) ∧
      ((∃ e, result = .error e) ∨ Completed importPublicKeyPEM (grm.available now) numRelays
        (grm.guardHop importPublicKeyPEM now run.guard).toList result) := by
  have havailable : (grm.getGuardRelay now run.guard).1.available now = grm.available now :=
    getGuardRelay_available le_rfl
  have hcomplete (s : GuardRelayManager) (hs : s.available now = grm.available now)
      (guard : Option (RelayInfo S)) :
      ∃ s' result, s.completePath importPublicKeyPEM now run.choices numRelays guard.toList =
        (s', .returns result) ∧ s'.available now = grm.available now ∧
        ((∃ e, result = .error e) ∨
          Completed importPublicKeyPEM (grm.available now) numRelays guard.toList result) := by
    rw [← hs]
    cases guard with
    | none =>
      refine completePath_cases s (by rw [toList_none, length_nil]; omega) ?_
      rw [hs, toList_none, length_nil, Int.natCast_zero, Int.sub_zero]
      exact hdraws.all
    | some hop =>
      refine completePath_cases s (by rw [toList_some, length_singleton]; omega) ?_
      rw [hs]
      exact hdraws.rest
  rcases getGuardRelay_cases hdraws.guard with ⟨-, s, e, hguard⟩ | ⟨s, m, -, hguard⟩
  · rw [hguard] at havailable
    obtain ⟨s', result, hresult, -, hcases⟩ := hcomplete s havailable none
    rw [guardHop, buildPath, hguard]
    exact ⟨s', result, hresult, hcases⟩
  · rw [hguard] at havailable
    rw [guardHop_of_ok hguard]
    cases hinfo : relayInfo importPublicKeyPEM m with
    | error e =>
      obtain ⟨s', result, hresult, hs', hcases⟩ := hcomplete s havailable none
      obtain ⟨grm', hrecord⟩ : ∃ grm', s'.recordFailure now run.record m.address =
          (grm', .returns ()) := recordFailure_returns (hs' ▸ hdraws.record)
      refine ⟨grm', result, ?_, hcases⟩
      rw [toList_none] at hresult
      rw [buildPath, hguard]
      simp only [andThen, hinfo, hresult, hrecord]
    | ok hop =>
      obtain ⟨s', result, hresult, -, hcases⟩ := hcomplete s havailable (some hop)
      exact ⟨_, result, buildPath_of_guard hguard hinfo hresult, hcases⟩

theorem exists_buildPath (hthree : 3 ≤ numRelays) (hguard : grm.MayGuard now m)
    (hhop : (relayInfo importPublicKeyPEM m).toOption = some hop)
    (hhops : Hops importPublicKeyPEM (grm.available now) (numRelays - 1) relays) :
    ∃ run : PathRun, run.Suffice (grm.available now) numRelays ∧
      grm.guardHop importPublicKeyPEM now run.guard = some hop ∧
      (grm.buildPath importPublicKeyPEM now run numRelays).2 =
        .returns (.ok (hop :: hopsOf importPublicKeyPEM relays)) := by
  obtain ⟨guard, s, hdraws, hreturns⟩ := hguard.exists_run
  have hs : s.available now = grm.available now := by
    have hsame : (grm.getGuardRelay now guard).1.available now = grm.available now :=
      getGuardRelay_available le_rfl
    rwa [hreturns] at hsame
  have hlen := hhops.length
  have hle := hhops.subperm.length_le
  have hne : grm.available now ≠ [] := ne_nil_of_length_pos (by omega)
  obtain ⟨rd, hrd, hrdavailable⟩ := discovery_of_available (hs ▸ hne)
  rw [hs] at hrdavailable
  have hoffers : rd.Offers now (numRelays - 1) relays := by
    rw [hrdavailable] at hne hhops hle
    exact ⟨by omega, hne, hhops.subperm, by omega⟩
  obtain ⟨choices, hchoices, hrelays⟩ := hoffers.exists_run
  have hone : ([hop].length : ℤ) = 1 := rfl
  rw [← hone] at hrelays hhops
  obtain ⟨s', hcomplete⟩ : ∃ s',
      s.completePath importPublicKeyPEM now choices numRelays [hop] = _ :=
    completePath_of_relays hrd hrelays (by omega) hhops
  let run : PathRun := ⟨guard, choices, anySelection (grm.available now)⟩
  have hsuffice : run.Suffice (grm.available now) numRelays := by
    rw [← hrdavailable] at hchoices
    exact ⟨hdraws, hchoices _, hchoices _, anySelection_suffice _⟩
  have hbuild : grm.buildPath importPublicKeyPEM now run numRelays = _ :=
    buildPath_of_guard hreturns (relayInfo_ok hhop) hcomplete
  refine ⟨run, hsuffice, (guardHop_of_ok hreturns).trans hhop, ?_⟩
  rw [hbuild]
  rfl

/-- A relay that may become the guard has the address of one that may be discovered, both have keys
that can be parsed, and so have enough relays that may be discovered. -/
def PathClient.Collides (c : PathClient) (importPublicKeyPEM : Bytes → Except Bytes S.PublicKey)
    (now numRelays : ℤ) : Prop :=
  ∃ grm m r, c.manager now = some grm ∧ grm.MayGuard now m ∧ parses importPublicKeyPEM m = true ∧
    r ∈ (c.available now).filter (parses importPublicKeyPEM) ∧ r.address = m.address ∧
    numRelays - 1 ≤ ((c.available now).filter (parses importPublicKeyPEM)).length

/-- Then some choices bring a path with the guard twice. -/
theorem PathClient.Collides.exists_run (hthree : 3 ≤ numRelays)
    (h : c.Collides importPublicKeyPEM now numRelays) :
    ∃ run hop rest, PathRun.Suffice run (c.available now) numRelays ∧
      c.guardHop importPublicKeyPEM now run.guard = some hop ∧
      (c.buildSecureRelayPath importPublicKeyPEM now run numRelays).2 =
        .returns (.ok (hop :: rest)) ∧ ∃ h ∈ rest, h.address = hop.address := by
  obtain ⟨grm, m, r, hmanager, hguard, hm, hr, haddress, hmany⟩ := h
  rw [← manager_available hmanager] at hr hmany ⊢
  obtain ⟨hop, hhop⟩ := isSome_iff_exists.mp hm
  -- The discovery draws the relay with the guard's address, and others whose keys can be parsed.
  have hcount : (numRelays - 2).toNat + 1 ≤
      ((grm.available now).filter (parses importPublicKeyPEM)).length := by omega
  obtain ⟨relays, hsub, hlen, hmem⟩ := exists_including hr hcount
  have hall : relays.filter (parses importPublicKeyPEM) = relays :=
    filter_eq_self.mpr fun m hm => (mem_filter.mp (hsub.subset hm)).2
  obtain ⟨run, hsuffice, hfirst, hbuild⟩ := exists_buildPath hthree hguard hhop
    ⟨hsub.trans filter_sublist.subperm, by omega, hall⟩
  have htwice : hop.address ∈ (hopsOf importPublicKeyPEM relays).map RelayInfo.address := by
    rw [hopsOf_addresses hall, relayInfo_address hhop, ← haddress]
    exact mem_map_of_mem hmem
  refine ⟨run, hop, hopsOf importPublicKeyPEM relays, hsuffice, ?_, ?_, mem_map.mp htwice⟩
  · rw [PathClient.guardHop, hmanager, bind_some, hfirst]
  · rw [buildSecureRelayPath_snd hthree hmanager, hbuild]

theorem guard_not_mem (hfree : ¬ c.Collides importPublicKeyPEM now numRelays)
    (hmanager : c.manager now = some grm) (hm : grm.MayGuard now m)
    (hhop : (relayInfo importPublicKeyPEM m).toOption = some hop)
    (hhops : Hops importPublicKeyPEM (grm.available now) (numRelays - 1) relays) :
    hop.address ∉ relays.map RelayMetadata.address := by
  intro hmem
  obtain ⟨r, hr, hreq⟩ := mem_map.mp hmem
  have hsub := hhops.subperm.filter (parses importPublicKeyPEM)
  rw [hhops.parses, manager_available hmanager] at hsub
  refine hfree ⟨grm, m, r, hmanager, hm, ?_, hsub.subset hr, ?_, ?_⟩
  · rw [parses, hhop]
    rfl
  · rw [hreq, relayInfo_address hhop]
  · rw [← hhops.length]
    exact_mod_cast hsub.length_le

theorem ErrorOrPath.of_hops {guard : Option (RelayInfo S)} (hhops : Hops importPublicKeyPEM
      (grm.available now) (numRelays - guard.toList.length) relays)
    (hnew : ∀ hop, guard = some hop → hop.address ∉ relays.map RelayMetadata.address) :
    ErrorOrPath numRelays guard
      (.returns (.ok (guard.toList ++ hopsOf importPublicKeyPEM relays))) := by
  have hlen := hhops.length_hopsOf
  have hnodup : (relays.map RelayMetadata.address).Nodup :=
    nodup_map_of_subperm hhops.subperm available_nodup
  rw [← hopsOf_addresses hhops.parses] at hnew hnodup
  refine ⟨by rw [length_append]; omega, ?_, fun hop hhop => ?_⟩
  · cases guard with
    | none => exact hnodup
    | some hop => exact nodup_cons.mpr ⟨hnew hop rfl, hnodup⟩
  · subst hhop
    exact ⟨_, rfl, fun h hh haddress => hnew hop rfl (haddress ▸ mem_map_of_mem hh)⟩

/-- The path always has the hops that were asked for, at different relays, just when the guard
cannot be among the other hops. -/
theorem path_exact_iff (importPublicKeyPEM : Bytes → Except Bytes S.PublicKey) (c : PathClient)
    (now : ℤ) (hthree : 3 ≤ numRelays) :
    (∀ run : PathRun, run.Suffice (c.available now) numRelays →
      ErrorOrPath numRelays (c.guardHop importPublicKeyPEM now run.guard)
        (c.buildSecureRelayPath importPublicKeyPEM now run numRelays).2) ↔
      ¬ c.Collides importPublicKeyPEM now numRelays := by
  constructor
  · intro h hcollides
    obtain ⟨run, hop, rest, hdraws, hguard, hpath, hop', hmem, haddress⟩ :=
      hcollides.exists_run hthree
    have hrun := h run hdraws
    rw [hpath] at hrun
    obtain ⟨rest', heq, hother⟩ := hrun.2.2 hop hguard
    obtain ⟨-, rfl⟩ := List.cons.inj heq
    exact hother hop' hmem haddress
  · intro hfree run hdraws
    cases hmanager : c.manager now with
    | none =>
      rw [PathClient.buildSecureRelayPath, if_neg (by omega), hmanager]
      simp only [checkLength]
      rw [if_pos (by rw [length_nil]; omega)]
      trivial
    | some grm =>
      have havailable := manager_available hmanager
      rw [← havailable] at hdraws
      rw [buildSecureRelayPath_snd hthree hmanager, PathClient.guardHop, hmanager, bind_some]
      obtain ⟨grm', result, hbuild, hcases⟩ : ∃ grm' result,
          grm.buildPath importPublicKeyPEM now run numRelays = (grm', .returns result) ∧ _ :=
        buildPath_cases hthree hdraws
      rw [hbuild]
      rcases hcases with ⟨e, rfl⟩ | ⟨relays, hhops, rfl⟩
      · trivial
      · refine .of_hops hhops fun hop hhop => ?_
        obtain ⟨m, hm, hinfo⟩ := guardHop_some hdraws.guard hhop
        rw [hhop] at hhops
        exact guard_not_mem hfree hmanager hm hinfo hhops

end

/-! ## A guard that is gone, and one that is known -/

def guardedClient (guard : UInt8) : PathClient where
  relayDiscovery := some (threeRelays 0 0 0)
  guardRelayManager := some
    { discovery := some (threeRelays 0 0 0)
      guards := [⟨seenRelay guard 0, -10, -5, 7, 0⟩]
      rotationTime := guardRotationPeriod }
  shared _ h := by
    obtain rfl := some.inj h
    rfl

theorem guardedClient_mayGuard {guard : UInt8} {grm : GuardRelayManager} {m : RelayMetadata}
    (hgrm : (guardedClient guard).manager 0 = some grm) :
    grm.MayGuard 0 m ↔ seenRelay guard 0 = m := by
  obtain rfl := some.inj hgrm
  have hhealthy : GuardRelay.healthy ⟨seenRelay guard 0, -10, -5, 7, 0⟩ = true := rfl
  have hkeep : ¬ Renews
      ⟨some (threeRelays 0 0 0), [⟨seenRelay guard 0, -10, -5, 7, 0⟩], guardRotationPeriod⟩ 0 := by
    have htime : ¬ guardRotationPeriod < 0 := by decide
    rintro ⟨-, hdue | hnone⟩
    · exact htime hdue
    · exact Bool.noConfusion (hhealthy.symm.trans (hnone _ mem_cons_self))
  simp [MayGuard, hkeep, hhealthy]

/-- A guard that is no longer known does not come twice. -/
theorem path_exact_gone :
    (3 : ℤ) ≤ 4 ∧ ∀ run : PathRun, run.Suffice ((guardedClient 9).available 0) 4 →
      ErrorOrPath 4 ((guardedClient 9).guardHop headKey 0 run.guard)
        ((guardedClient 9).buildSecureRelayPath headKey 0 run 4).2 := by
  have hthree : (3 : ℤ) ≤ 4 := by decide
  refine ⟨hthree, (path_exact_iff headKey (guardedClient 9) 0 hthree).mpr ?_⟩
  rintro ⟨grm, m, r, hmanager, hm, -, hr, haddress, -⟩
  rw [guardedClient_mayGuard hmanager] at hm
  have hmem := (mem_filter.mp hr).1
  have hgone : (seenRelay 9 0).address ∉
      [seenRelay 1 0, seenRelay 2 0, seenRelay 3 0].map RelayMetadata.address := by decide
  subst hm
  rw [← haddress] at hgone
  exact hgone (mem_map_of_mem hmem)

/-- A path of three hops that goes through its guard twice. -/
theorem path_repeats_guard :
    ∃ run hop rest, PathRun.Suffice run ((guardedClient 1).available 0) 3 ∧
      (guardedClient 1).guardHop headKey 0 run.guard = some hop ∧
      ((guardedClient 1).buildSecureRelayPath headKey 0 run 3).2 = .returns (.ok (hop :: rest)) ∧
      ∃ h ∈ rest, h.address = hop.address := by
  have hparses : ((guardedClient 1).available 0).filter (parses headKey) =
      [seenRelay 1 0, seenRelay 2 0, seenRelay 3 0] := by
    rfl
  refine PathClient.Collides.exists_run le_rfl ⟨_, seenRelay 1 0, seenRelay 1 0, rfl,
    (guardedClient_mayGuard rfl).mpr rfl, rfl, ?_, rfl, ?_⟩ <;> rw [hparses]
  · exact mem_cons_self
  · decide

end Zentalk
