import Zentalk.Lib.Sampling
import Zentalk.Protocol.Keys

/-!
# Discovering relays

The order of a map and the random indices are arguments; rates are rationals. What
is returned: `discoverRelays_exact`.
-/

namespace Zentalk

open Wire Sampling List

/-! ## Relays -/

/-- `RelayMetadata`, without the fields that are only printed or connected to. -/
structure RelayMetadata where
  address : Address
  publicKeyPEM : Bytes
  region : Bytes
  operator : Bytes
  uptime : UInt64
  lastSeen : Int64
  latency : Int64
  packetLoss : ℚ
  reliability : ℚ
deriving DecidableEq

/-- `time.Unix` of some seconds. The package counts seconds from the year 1, and that sum wraps. -/
def unixInstant (sec : Int64) : ℤ := ((sec + 62135596800).toInt - 62135596800) * 10 ^ 9

def hour : ℤ := 3600 * 10 ^ 9

def RelayMetadata.isHealthy (m : RelayMetadata) (now maxAge : ℤ) : Bool :=
  if maxAge < now - unixInstant m.lastSeen then false
  else if 0 < m.reliability ∧ m.reliability < 1 / 2 then false
  else if 0 < m.packetLoss ∧ 3 / 10 < m.packetLoss then false
  else true

/-- `CalculateScore`, without the rounding of floating-point numbers. -/
def RelayMetadata.calculateScore (m : RelayMetadata) (now : ℤ) : ℚ :=
  let age := now - unixInstant m.lastSeen
  let recencyScore : ℚ :=
    if 24 * hour < age then 0
    -- Here nanoseconds are divided by seconds.
    else if hour < age then 30 * (1 - age / (24 * 3600))
    else 30
  let latencyScore : ℚ :=
    if 500 < m.latency then 0
    else if 100 < m.latency then 20 * (1 - (m.latency - 100).toInt / 400)
    else 20
  let uptimeHours : ℚ := m.uptime.toNat / 3600
  100 + recencyScore + (if 0 < m.reliability then m.reliability * 30 else 15)
    + (if 0 < m.latency then latencyScore else 10)
    + (if 0 ≤ m.packetLoss then (1 - m.packetLoss) * 10 else 5)
    + (if 168 < uptimeHours then 10 else uptimeHours / 168 * 10)

/-! ## Discovery -/

/-- `blacklist`: the time at which the entry of a relay expires. -/
abbrev Blacklist := Address → Option ℤ

/-- The relay has an entry that has not expired. -/
def Blacklist.lists (b : Blacklist) (now : ℤ) (addr : Address) : Bool :=
  (b addr).any fun expiry => now < expiry

structure RelayDiscovery where
  /-- `dhtNode` is not nil. -/
  attached : Bool
  /-- `knownRelays`, with one relay for each address. -/
  known : List RelayMetadata
  nodup : (known.map RelayMetadata.address).Nodup
  blacklist : Blacklist

/-- How a call ends that draws random indices until it has enough of them. -/
inductive Outcome (α : Type)
  | returns (result : α)
  | panics
  /-- It draws on: the indices that were given do not suffice. -/
  | draws

def Outcome.bind {α β : Type} : Outcome α → (α → Outcome β) → Outcome β
  | .returns a, f => f a
  | .panics, _ => .panics
  | .draws, _ => .draws

/-- What `DiscoverRelays` gets from outside: the order in which it ranges over the map, and random
indices. -/
structure Choices where
  order : Reordering RelayMetadata
  draws : List ℕ

/-- The loop over the known relays. It deletes an entry of the blacklist that has expired. -/
def collect (now : ℤ) (st : Blacklist × List RelayMetadata) (m : RelayMetadata) :
    Blacklist × List RelayMetadata :=
  let available := if m.isHealthy now hour then st.2 ++ [m] else st.2
  match st.1 m.address with
  | some expiry =>
    if now < expiry then st
    else (Function.update st.1 m.address none, available)
  | none => (st.1, available)

/-- The relays that are returned of those that were found. A negative count is a negative capacity,
for which `make` panics. -/
def drawRelays (found : List RelayMetadata) (noneFound : Bytes) (draws : List ℕ) (count : ℤ) :
    Outcome (Except Bytes (List RelayMetadata)) :=
  if found.length = 0 then .returns (.error noneFound)
  else if (found.length : ℤ) ≤ count then .returns (.ok found)
  else if count < 0 then .panics
  else
    match sample found count.toNat draws [] [] with
    | none => .draws
    | some selected => .returns (.ok selected)

namespace RelayDiscovery

def usable (rd : RelayDiscovery) (now : ℤ) (m : RelayMetadata) : Bool :=
  m.isHealthy now hour && !rd.blacklist.lists now m.address

def discoverRelays (rd : RelayDiscovery) (now : ℤ) (run : Choices) (count : ℤ) :
    RelayDiscovery × Outcome (Except Bytes (List RelayMetadata)) :=
  if rd.attached = false then (rd, .returns (.error (asciiBytes "DHT node not initialized")))
  else
    let (blacklist, available) := (run.order.order rd.known).foldl (collect now) (rd.blacklist, [])
    ({ rd with blacklist := blacklist },
      drawRelays available (asciiBytes "no healthy relays available") run.draws count)

end RelayDiscovery

/-! ## What may be discovered -/

/-- Enough different indices are drawn, if any are needed. -/
def Choices.Suffice (run : Choices) (available : List RelayMetadata) (count : ℤ) : Prop :=
  count < available.length →
    count.toNat ≤ (run.draws.map (· % available.length)).toFinset.card

namespace RelayDiscovery

def available (rd : RelayDiscovery) (now : ℤ) : List RelayMetadata :=
  if rd.attached then rd.known.filter (rd.usable now) else []

/-- The relays are different ones of those that may be discovered, as many as are asked for. -/
structure Offers (rd : RelayDiscovery) (now count : ℤ) (relays : List RelayMetadata) : Prop where
  nonneg : 0 ≤ count
  available_ne : rd.available now ≠ []
  subperm : relays.Subperm (rd.available now)
  length_eq : relays.length = min count.toNat (rd.available now).length

end RelayDiscovery

variable {rd : RelayDiscovery} {now t count : ℤ} {run : Choices} {m : RelayMetadata}
  {relays : List RelayMetadata} (st : Blacklist × List RelayMetadata)

theorem collect_lists (ht : now ≤ t) : (collect now st m).1.lists t = st.1.lists t := by
  funext addr
  rw [collect]
  split
  · next expiry hentry =>
    split
    · rfl
    · next hexpired =>
      rw [Blacklist.lists, Blacklist.lists]
      rcases eq_or_ne addr m.address with rfl | hne
      · have : ¬ t < expiry := by omega
        simp [hentry, this]
      · simp [Function.update_of_ne hne]
  · rfl

theorem collect_snd :
    (collect now st m).2 =
      st.2 ++ [m].filter fun m => m.isHealthy now hour && !st.1.lists now m.address := by
  rw [collect]
  split
  · next expiry hentry =>
    rcases Int.lt_or_le now expiry with hlt | hle
    · simp [Blacklist.lists, hentry, hlt]
    · have hexpired : ¬ now < expiry := Int.not_lt.mpr hle
      cases hhealthy : m.isHealthy now hour <;> simp [Blacklist.lists, hentry, hexpired, hhealthy]
  · next hentry =>
    cases hhealthy : m.isHealthy now hour <;> simp [Blacklist.lists, hentry, hhealthy]

theorem collect_eq (l : List RelayMetadata) (st : Blacklist × List RelayMetadata) :
    (∀ t, now ≤ t → (l.foldl (collect now) st).1.lists t = st.1.lists t) ∧
      (l.foldl (collect now) st).2 =
        st.2 ++ l.filter fun m => m.isHealthy now hour && !st.1.lists now m.address := by
  induction l generalizing st with
  | nil => exact ⟨fun _ _ => rfl, (append_nil _).symm⟩
  | cons m l ih =>
    obtain ⟨hlists, hcollected⟩ := ih (collect now st m)
    refine ⟨fun t ht => (hlists t ht).trans (collect_lists st ht), ?_⟩
    rw [foldl_cons, hcollected, collect_snd, collect_lists st le_rfl, append_assoc,
      ← filter_append, singleton_append]

namespace RelayDiscovery

theorem available_of_attached (hattached : rd.attached = true) :
    rd.available now = rd.known.filter (rd.usable now) := if_pos hattached

theorem mem_available (h : m ∈ rd.available now) : m ∈ rd.known ∧ rd.usable now m = true := by
  rw [available] at h
  split at h
  · exact mem_filter.mp h
  · cases h

theorem available_nodup : ((rd.available now).map RelayMetadata.address).Nodup := by
  rw [available]
  split
  · exact rd.nodup.sublist (filter_sublist.map _)
  · exact .nil

theorem Offers.mem (h : rd.Offers now count relays) (hm : m ∈ relays) : m ∈ rd.available now :=
  h.subperm.subset hm

theorem Offers.nodup (h : rd.Offers now count relays) : (relays.map RelayMetadata.address).Nodup :=
  nodup_map_of_subperm h.subperm available_nodup

theorem Offers.of_perm (h : rd.Offers now count relays) {l : List RelayMetadata}
    (hperm : l.Perm relays) : rd.Offers now count l :=
  ⟨h.nonneg, h.available_ne, hperm.subperm.trans h.subperm, hperm.length_eq.trans h.length_eq⟩

theorem discoverRelays_lists (ht : now ≤ t) :
    (rd.discoverRelays now run count).1.blacklist.lists t = rd.blacklist.lists t := by
  rw [discoverRelays]
  split
  · rfl
  · exact (collect_eq (run.order.order rd.known) (rd.blacklist, [])).1 t ht

theorem discoverRelays_known :
    (rd.discoverRelays now run count).1.known = rd.known ∧
      (rd.discoverRelays now run count).1.attached = rd.attached := by
  rw [discoverRelays]
  split
  · exact ⟨rfl, rfl⟩
  · exact ⟨rfl, rfl⟩

theorem discoverRelays_available (ht : now ≤ t) :
    (rd.discoverRelays now run count).1.available t = rd.available t := by
  obtain ⟨hknown, hattached⟩ : (rd.discoverRelays now run count).1.known = rd.known ∧ _ :=
    discoverRelays_known
  rw [available, available, hknown, hattached]
  congr 2
  funext m
  rw [usable, usable, discoverRelays_lists ht]

theorem discoverRelays_attached (h : rd.attached = true) {found : List RelayMetadata}
    (hfound : (run.order.order rd.known).filter (rd.usable now) = found) :
    (rd.discoverRelays now run count).2 =
      drawRelays found (asciiBytes "no healthy relays available") run.draws count := by
  have hcollected :
      ((run.order.order rd.known).foldl (collect now) (rd.blacklist, [])).2 = found := by
    rw [(collect_eq _ _).2, nil_append]
    exact hfound
  rw [discoverRelays, if_neg (by rw [h]; exact Bool.noConfusion)]
  simp only [hcollected]

theorem found_perm (h : rd.attached = true) :
    ((run.order.order rd.known).filter (rd.usable now)).Perm (rd.available now) := by
  rw [available_of_attached h]
  exact (run.order.perm rd.known).filter _

theorem drawRelays_cases (found : List RelayMetadata) (noneFound : Bytes) (draws : List ℕ)
    (count : ℤ) :
    (found = [] ∧ drawRelays found noneFound draws count = .returns (.error noneFound)) ∨
    found ≠ [] ∧ ((count < 0 ∧ drawRelays found noneFound draws count = .panics) ∨
      (¬ (count < found.length → count.toNat ≤ (draws.map (· % found.length)).toFinset.card) ∧
        drawRelays found noneFound draws count = .draws) ∨
      ∃ relays, 0 ≤ count ∧ relays.Subperm found ∧ relays.length = min count.toNat found.length ∧
        drawRelays found noneFound draws count = .returns (.ok relays)) := by
  rcases eq_or_ne found [] with rfl | hne
  · exact .inl ⟨rfl, rfl⟩
  refine .inr ⟨hne, ?_⟩
  rw [drawRelays, if_neg (length_pos_iff.mpr hne).ne']
  split
  · next hall => exact .inr (.inr ⟨found, by omega, .refl _, by omega, rfl⟩)
  · next hmore =>
    split
    · next hneg => exact .inl ⟨hneg, rfl⟩
    · next hnonneg =>
      right
      cases hselected : sample found count.toNat draws [] [] with
      | none =>
        refine .inl ⟨fun hdraws => ?_, rfl⟩
        have hsome : (sample found count.toNat draws [] []).isSome = true := by
          rw [sample_isSome_iff hne .nil rfl]
          simpa using hdraws (by omega)
        rw [hselected] at hsome
        cases hsome
      | some selected =>
        obtain ⟨hlen, hsub⟩ := sample_spec hne hselected
        exact .inr ⟨selected, by omega, hsub, by omega, rfl⟩

/-- How `DiscoverRelays` ends. -/
theorem discoverRelays_outcomes (rd : RelayDiscovery) (now : ℤ) (run : Choices) (count : ℤ) :
    (rd.available now = [] ∧
      ∃ error, (rd.discoverRelays now run count).2 = .returns (.error error)) ∨
    (rd.available now ≠ [] ∧ count < 0 ∧ (rd.discoverRelays now run count).2 = .panics) ∨
    (¬ run.Suffice (rd.available now) count ∧ (rd.discoverRelays now run count).2 = .draws) ∨
    ∃ relays, rd.Offers now count relays ∧
      (rd.discoverRelays now run count).2 = .returns (.ok relays) := by
  cases hattached : rd.attached with
  | false =>
    refine .inl ⟨?_, _, by rw [discoverRelays, if_pos hattached]⟩
    rw [available, hattached]
    rfl
  | true =>
    have hperm : ((run.order.order rd.known).filter (rd.usable now)).Perm (rd.available now) :=
      found_perm hattached
    rw [discoverRelays_attached hattached rfl]
    generalize (run.order.order rd.known).filter (rd.usable now) = found at hperm ⊢
    have hlength := hperm.length_eq
    rcases drawRelays_cases found _ run.draws count with ⟨rfl, herror⟩ | ⟨hne, hcases⟩
    · exact .inl ⟨hperm.symm.eq_nil, _, herror⟩
    have havailable : rd.available now ≠ [] := fun h => hne (h ▸ hperm).eq_nil
    rcases hcases with ⟨hneg, hpanics⟩ | ⟨hfew, hdraws⟩ | ⟨relays, hnonneg, hsub, hlen, hreturns⟩
    · exact .inr (.inl ⟨havailable, hneg, hpanics⟩)
    · exact .inr (.inr (.inl ⟨by rwa [Choices.Suffice, ← hlength], hdraws⟩))
    · exact .inr (.inr (.inr ⟨relays,
        ⟨hnonneg, havailable, hsub.trans hperm.subperm, hlength ▸ hlen⟩, hreturns⟩))

theorem discoverRelays_cases (hdraws : run.Suffice (rd.available now) count) :
    (rd.available now = [] ∧
      ∃ error, (rd.discoverRelays now run count).2 = .returns (.error error)) ∨
    (rd.available now ≠ [] ∧ count < 0 ∧ (rd.discoverRelays now run count).2 = .panics) ∨
    ∃ relays, rd.Offers now count relays ∧
      (rd.discoverRelays now run count).2 = .returns (.ok relays) := by
  rcases discoverRelays_outcomes rd now run count with herror | hpanics | ⟨hfew, -⟩ | hoffers
  · exact .inl herror
  · exact .inr (.inl hpanics)
  · exact absurd hdraws hfew
  · exact .inr (.inr hoffers)

/-- An error just when no relay is available, and otherwise as many different ones as were asked
for, or all. -/
theorem discoverRelays_exact (hattached : rd.attached = true) (hcount : 0 ≤ count)
    {result : Except Bytes (List RelayMetadata)}
    (hreturns : (rd.discoverRelays now run count).2 = .returns result) :
    ((∃ error, result = .error error) ↔ ∀ m ∈ rd.known, rd.usable now m = false) ∧
      ∀ relays, result = .ok relays →
        relays.length = min count.toNat (rd.known.filter (rd.usable now)).length ∧
        (relays.map RelayMetadata.address).Nodup ∧
        ∀ m ∈ relays, m ∈ rd.known ∧ m.isHealthy now hour = true ∧
          rd.blacklist.lists now m.address = false := by
  have hnone : rd.available now = [] ↔ ∀ m ∈ rd.known, rd.usable now m = false := by
    rw [available_of_attached hattached, filter_eq_nil_iff]
    simp only [Bool.not_eq_true]
  rcases discoverRelays_outcomes rd now run count with
    ⟨hempty, error, herror⟩ | ⟨-, hneg, -⟩ | ⟨-, hdraws⟩ | ⟨relays, hoffers, hrelays⟩
  · obtain rfl := Outcome.returns.inj (herror.symm.trans hreturns)
    refine ⟨iff_of_true ⟨error, rfl⟩ (hnone.mp hempty), fun relays h => ?_⟩
    cases h
  · omega
  · cases hdraws.symm.trans hreturns
  · obtain rfl := Outcome.returns.inj (hrelays.symm.trans hreturns)
    refine ⟨iff_of_false ?_ fun h => hoffers.available_ne (hnone.mpr h), fun relays' h => ?_⟩
    · rintro ⟨error, h⟩
      cases h
    · obtain rfl := Except.ok.inj h
      refine ⟨?_, hoffers.nodup, fun m hm => ?_⟩
      · rw [hoffers.length_eq, available_of_attached hattached]
      · obtain ⟨hknown, husable⟩ := mem_available (hoffers.mem hm)
        rw [usable, Bool.and_eq_true, Bool.not_eq_true'] at husable
        exact ⟨hknown, husable⟩

/-- Every index once suffices. -/
theorem suffice_range (order : Reordering RelayMetadata) (available : List RelayMetadata)
    (count : ℤ) : Choices.Suffice ⟨order, range available.length⟩ available count := by
  have hmap : (range available.length).map (· % available.length) =
      range available.length := by
    refine (map_congr_left fun i hi => ?_).trans (map_id _)
    exact Nat.mod_eq_of_lt (mem_range.mp hi)
  intro hfew
  rw [hmap, toFinset_card_of_nodup nodup_range, length_range]
  omega

/-- Random choices may bring every offer. -/
theorem Offers.exists_run (h : rd.Offers now count relays) :
    ∃ run : Choices, (∀ count, run.Suffice (rd.available now) count) ∧
      (rd.discoverRelays now run count).2 = .returns (.ok relays) := by
  have hattached : rd.attached = true := by
    by_contra hdetached
    exact h.available_ne (if_neg hdetached)
  -- The map is ranged over so that the offer comes first.
  obtain ⟨rest, hrest⟩ := exists_front h.subperm
  have hsplit := filter_append_perm (rd.usable now) rd.known
  rw [← available_of_attached hattached] at hsplit
  have hperm := (hrest.append_right _).trans hsplit
  have hlen := hrest.length_eq
  rw [length_append] at hlen
  have hasked := h.length_eq
  refine ⟨⟨.of hperm, range (rd.available now).length⟩, suffice_range _ _, ?_⟩
  have husable : (relays ++ rest).filter (rd.usable now) = relays ++ rest :=
    filter_eq_self.mpr fun m hm => (mem_available (hrest.subset hm)).2
  have hothers : (rd.known.filter fun m => !rd.usable now m).filter (rd.usable now) = [] := by
    rw [filter_eq_nil_iff]
    intro m hm
    simpa using (mem_filter.mp hm).2
  have hfound : ((Reordering.of hperm).order rd.known).filter (rd.usable now) = relays ++ rest := by
    rw [Reordering.of_order, filter_append, husable, hothers, append_nil]
  have hpos := length_pos_iff.mpr h.available_ne
  have hnonneg := h.nonneg
  rw [discoverRelays_attached hattached hfound, drawRelays, length_append, if_neg (by omega)]
  rcases Int.lt_or_le count (rd.available now).length with hfew | hall
  · have hcount : count.toNat = relays.length := by omega
    rw [if_neg (by omega), if_neg (by omega), hcount, ← hrest.length_eq, sample_range]
  · obtain rfl : rest = [] := length_eq_zero_iff.mp (by omega)
    rw [if_pos (by omega), append_nil]

end RelayDiscovery

/-! ## Three relays -/

def seenRelay (address operator : UInt8) : RelayMetadata where
  address := ⟨replicate 20 address, length_replicate⟩
  publicKeyPEM := [address]
  region := []
  operator := [operator]
  uptime := 0
  lastSeen := 0
  latency := 0
  packetLoss := 0
  reliability := 0

theorem seenRelay_isHealthy (address operator : UInt8) :
    (seenRelay address operator).isHealthy 0 hour = true := by
  have hinstant : unixInstant 0 = 0 := by decide
  simp [RelayMetadata.isHealthy, seenRelay, hinstant, hour]

/-- Three relays that are known, of the given operators. -/
def threeRelays (a b c : UInt8) : RelayDiscovery where
  attached := true
  known := [seenRelay 1 a, seenRelay 2 b, seenRelay 3 c]
  nodup := by
    have haddresses : ([1, 2, 3].map fun n : UInt8 => replicate 20 n).Nodup := by decide
    exact .of_map ByteArr.bytes haddresses
  blacklist _ := none

theorem threeRelays_available (a b c : UInt8) :
    (threeRelays a b c).available 0 = [seenRelay 1 a, seenRelay 2 b, seenRelay 3 c] := by
  simp [RelayDiscovery.available, RelayDiscovery.usable, threeRelays, seenRelay_isHealthy,
    Blacklist.lists]

/-- Two of the three relays are drawn by the indices 1, 1 and 2. -/
theorem discoverRelays_exact_two :
    ((threeRelays 0 0 0).discoverRelays 0 ⟨.keep _, [1, 1, 2]⟩ 2).2 =
      .returns (.ok [seenRelay 2 0, seenRelay 3 0]) ∧
    ([seenRelay 2 0, seenRelay 3 0].map RelayMetadata.address).Nodup := by
  have hattached : (threeRelays 0 0 0).attached = true := rfl
  have hfound : ((threeRelays 0 0 0).known.filter ((threeRelays 0 0 0).usable 0)) =
      [seenRelay 1 0, seenRelay 2 0, seenRelay 3 0] :=
    (RelayDiscovery.available_of_attached hattached).symm.trans (threeRelays_available 0 0 0)
  have hdrawn : ((threeRelays 0 0 0).discoverRelays 0 ⟨.keep _, [1, 1, 2]⟩ 2).2 = _ :=
    RelayDiscovery.discoverRelays_attached hattached hfound
  have hreturns : ((threeRelays 0 0 0).discoverRelays 0 ⟨.keep _, [1, 1, 2]⟩ 2).2 =
      .returns (.ok [seenRelay 2 0, seenRelay 3 0]) := hdrawn.trans rfl
  obtain ⟨-, hrelays⟩ := RelayDiscovery.discoverRelays_exact hattached (by decide) hreturns
  exact ⟨hreturns, (hrelays _ rfl).2.1⟩

end Zentalk
