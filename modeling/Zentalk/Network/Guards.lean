import Zentalk.Network.Discovery
import Zentalk.Lib.Run

/-!
# Guard relays

`guard_relays.go`: up to three first hops, for sixty days (`guards_trusted_iff`).
-/

namespace Zentalk

open Wire Sampling List RelayDiscovery Outcome RelayMetadata

/-! ## The code -/

def numGuardRelays : ℕ := 3

def guardRotationPeriod : ℤ := 60 * 24 * hour

def guardMinUptime : ℤ := 7 * 24 * hour

structure GuardRelay where
  metadata : RelayMetadata
  firstUsed : ℤ
  lastUsed : ℤ
  successCount : ℕ
  failCount : ℕ
deriving DecidableEq

/-- `GuardRelayManager`, with what its pointer `discovery` points to. -/
structure GuardRelayManager where
  discovery : Option RelayDiscovery
  guards : List GuardRelay
  rotationTime : ℤ

def newGuardRelayManager (discovery : Option RelayDiscovery) (now : ℤ) : GuardRelayManager :=
  ⟨discovery, [], now + guardRotationPeriod⟩

/-- What a selection gets from outside. -/
structure SelectRun where
  choices : Choices
  shuffle : Reordering RelayMetadata

def qualified (now : ℤ) (m : RelayMetadata) : Bool :=
  guardMinUptime ≤ now - unixInstant (m.lastSeen - 3600 * 24 * 7) && 4 / 5 ≤ m.reliability

/-- The candidates that meet the requirements, or all when none does. -/
def goodCandidates (now : ℤ) (candidates : List RelayMetadata) : List RelayMetadata :=
  let good := candidates.filter (qualified now)
  if good.length = 0 then candidates else good

def freshGuard (now : ℤ) (m : RelayMetadata) : GuardRelay := ⟨m, now, now, 0, 0⟩

def GuardRelay.succeeded (now : ℤ) (g : GuardRelay) : GuardRelay :=
  { g with successCount := g.successCount + 1, lastUsed := now }

def GuardRelay.failed (g : GuardRelay) : GuardRelay := { g with failCount := g.failCount + 1 }

/-- Runs the second part when the first returns. -/
def Outcome.andThen {σ α β : Type} (first : σ × Outcome α) (f : σ → α → σ × Outcome β) :
    σ × Outcome β :=
  match first with
  | (s, .returns a) => f s a
  | (s, .panics) => (s, .panics)
  | (s, .draws) => (s, .draws)

theorem Outcome.andThen_fst {σ α β : Type} {P : σ → Prop} {first : σ × Outcome α}
    {f : σ → α → σ × Outcome β} (hfirst : P first.1) (hf : ∀ s a, P s → P (f s a).1) :
    P (Outcome.andThen first f).1 := by
  obtain ⟨s, outcome⟩ := first
  cases outcome with
  | returns a => exact hf s a hfirst
  | panics => exact hfirst
  | draws => exact hfirst

def updateGuard (addr : Address) (f : GuardRelay → GuardRelay) : List GuardRelay → List GuardRelay
  | [] => []
  | g :: guards =>
    if g.metadata.address = addr then f g :: guards else g :: updateGuard addr f guards

namespace GuardRelayManager

/-- `selectNewGuardsLocked`. -/
def selectNewGuards (grm : GuardRelayManager) (now : ℤ) (run : SelectRun) :
    GuardRelayManager × Outcome (Except Bytes Unit) :=
  match grm.discovery with
  | none => (grm, .returns (.error (asciiBytes "relay discovery not initialized")))
  | some rd =>
    let (rd', discovered) := rd.discoverRelays now run.choices (numGuardRelays * 3 : ℕ)
    Outcome.andThen ({ grm with discovery := some rd' }, discovered) fun
      | grm, .error err =>
        (grm, .returns (.error (asciiBytes "failed to discover relays: " ++ err)))
      | grm, .ok candidates =>
        if candidates.length = 0 then (grm, .returns (.error (asciiBytes "no relays available")))
        else
          let shuffled := run.shuffle.order (goodCandidates now candidates)
          ({ grm with guards := (shuffled.take numGuardRelays).map (freshGuard now) },
            .returns (.ok ()))

/-- `removeGuardLocked`. -/
def removeGuard (grm : GuardRelayManager) (addr : Address) : GuardRelayManager :=
  { grm with guards := grm.guards.eraseP fun g => g.metadata.address = addr }

def recordSuccess (grm : GuardRelayManager) (now : ℤ) (addr : Address) : GuardRelayManager :=
  { grm with guards := updateGuard addr (.succeeded now) grm.guards }

/-- `RecordFailure`. That no replacement could be selected is only logged. -/
def recordFailure (grm : GuardRelayManager) (now : ℤ) (run : SelectRun) (addr : Address) :
    GuardRelayManager × Outcome Unit :=
  match grm.guards.find? fun g => g.metadata.address = addr with
  | none => (grm, .returns ())
  | some g =>
    let grm := { grm with guards := updateGuard addr .failed grm.guards }
    if 10 < g.failed.failCount then
      Outcome.andThen ((grm.removeGuard addr).selectNewGuards now run)
        fun grm _ => (grm, .returns ())
    else (grm, .returns ())

end GuardRelayManager

/-! ## What may be selected -/

def SelectRun.Suffice (run : SelectRun) (available : List RelayMetadata) : Prop :=
  run.choices.Suffice available (numGuardRelays * 3 : ℕ)

/-- Three of the good ones among nine that are discovered. -/
def MaySelect (now : ℤ) (available chosen : List RelayMetadata) : Prop :=
  ∃ candidates : List RelayMetadata, candidates.Subperm available ∧
    candidates.length = min (numGuardRelays * 3) available.length ∧
    chosen.Subperm (goodCandidates now candidates) ∧
    chosen.length = min numGuardRelays (goodCandidates now candidates).length

namespace GuardRelayManager

def available (grm : GuardRelayManager) (now : ℤ) : List RelayMetadata :=
  (grm.discovery.map fun rd => rd.available now).getD []

end GuardRelayManager

section

variable {now : ℤ} {grm : GuardRelayManager} {run : SelectRun} {m : RelayMetadata}
  {candidates available chosen : List RelayMetadata} {addr : Address} {rd : RelayDiscovery}

theorem available_of_discovery (hrd : grm.discovery = some rd) :
    grm.available now = rd.available now := by
  rw [GuardRelayManager.available, hrd]
  rfl

theorem discovery_of_available (h : grm.available now ≠ []) :
    ∃ rd, grm.discovery = some rd ∧ grm.available now = rd.available now := by
  cases hrd : grm.discovery with
  | none =>
    rw [GuardRelayManager.available, hrd] at h
    exact absurd rfl h
  | some rd => exact ⟨rd, rfl, available_of_discovery hrd⟩

theorem goodCandidates_sublist : (goodCandidates now candidates).Sublist candidates := by
  rw [goodCandidates]
  split
  · exact .refl _
  · exact filter_sublist

theorem goodCandidates_ne_nil (hne : candidates ≠ []) : goodCandidates now candidates ≠ [] := by
  rw [goodCandidates]
  split
  · exact hne
  · next hsome => exact fun hnil => hsome (congrArg List.length hnil)

theorem goodCandidates_perm (hperm : candidates.Perm available) :
    (goodCandidates now candidates).Perm (goodCandidates now available) := by
  have hgood := hperm.filter (qualified now)
  rw [goodCandidates, goodCandidates, hgood.length_eq]
  split
  · exact hperm
  · exact hgood

theorem MaySelect.subperm (h : MaySelect now available chosen) : chosen.Subperm available := by
  obtain ⟨candidates, hsub, -, hchosen, -⟩ := h
  exact (hchosen.trans goodCandidates_sublist.subperm).trans hsub

theorem MaySelect.ne_nil (h : MaySelect now available chosen) (hne : available ≠ []) :
    chosen ≠ [] := by
  obtain ⟨candidates, -, hlen, -, hchosen⟩ := h
  have hcandidates := ne_nil_of_length_eq hlen (by decide) hne
  exact ne_nil_of_length_eq hchosen (by decide) (goodCandidates_ne_nil hcandidates)

theorem selectNewGuards_of_candidates (hrd : grm.discovery = some rd)
    (hcandidates : (rd.discoverRelays now run.choices (numGuardRelays * 3 : ℕ)).2 =
      .returns (.ok candidates)) (hne : candidates ≠ []) :
    grm.selectNewGuards now run =
      (⟨some (rd.discoverRelays now run.choices (numGuardRelays * 3 : ℕ)).1,
        ((run.shuffle.order (goodCandidates now candidates)).take numGuardRelays).map
          (freshGuard now), grm.rotationTime⟩, .returns (.ok ())) := by
  have hlen : candidates.length ≠ 0 := fun h => hne (length_eq_zero_iff.mp h)
  rw [GuardRelayManager.selectNewGuards, hrd]
  simp only [hcandidates, andThen, if_neg hlen]

theorem selectNewGuards_discovery : (grm.selectNewGuards now run).1.discovery =
    grm.discovery.map fun rd =>
      (rd.discoverRelays now run.choices (numGuardRelays * 3 : ℕ)).1 := by
  rw [GuardRelayManager.selectNewGuards]
  split
  · next hnone => rw [hnone]; rfl
  · next rd hrd =>
    rw [hrd, Option.map_some]
    dsimp only
    cases (rd.discoverRelays now run.choices (numGuardRelays * 3 : ℕ)).2 with
    | panics => rfl
    | draws => rfl
    | returns result =>
      cases result with
      | error err => rfl
      | ok candidates =>
        simp only [andThen]
        split <;> rfl

theorem selectNewGuards_available {t : ℤ} (ht : now ≤ t) :
    (grm.selectNewGuards now run).1.available t = grm.available t := by
  rw [GuardRelayManager.available, selectNewGuards_discovery, Option.map_map,
    GuardRelayManager.available]
  congr 2
  funext rd
  exact discoverRelays_available ht

/-- The selection returns: an error if no relay is available, and else with new guards. -/
def GuardRelayManager.Selects (grm : GuardRelayManager) (now : ℤ) (run : SelectRun) : Prop :=
  (grm.available now = [] ∧ ∃ discovery error, grm.selectNewGuards now run =
    ({ grm with discovery := discovery }, .returns (.error error))) ∨
  (grm.available now ≠ [] ∧ ∃ discovery chosen, MaySelect now (grm.available now) chosen ∧
    grm.selectNewGuards now run =
      (⟨discovery, chosen.map (freshGuard now), grm.rotationTime⟩, .returns (.ok ())))

/-- How a selection ends. -/
theorem selectNewGuards_outcomes (grm : GuardRelayManager) (now : ℤ) (run : SelectRun) :
    grm.Selects now run ∨ (¬ run.Suffice (grm.available now) ∧ ∃ discovery,
      grm.selectNewGuards now run = ({ grm with discovery := discovery }, .draws)) := by
  unfold GuardRelayManager.Selects
  cases hdiscovery : grm.discovery with
  | none =>
    have hselect : grm.selectNewGuards now run =
        (grm, .returns (.error (asciiBytes "relay discovery not initialized"))) := by
      rw [GuardRelayManager.selectNewGuards, hdiscovery]
    refine .inl (.inl ⟨?_, grm.discovery, _, hselect⟩)
    rw [GuardRelayManager.available, hdiscovery]
    rfl
  | some rd =>
    have havailable : grm.available now = rd.available now := available_of_discovery hdiscovery
    let rd' := (rd.discoverRelays now run.choices (numGuardRelays * 3 : ℕ)).1
    rw [havailable]
    rcases discoverRelays_outcomes rd now run.choices (numGuardRelays * 3 : ℕ) with
      ⟨hnone, error, herror⟩ | ⟨-, hneg, -⟩ | ⟨hfew, hdraws⟩ | ⟨candidates, hoffers, hcandidates⟩
    · have hselect : grm.selectNewGuards now run = ({ grm with discovery := some rd' },
          .returns (.error (asciiBytes "failed to discover relays: " ++ error))) := by
        rw [GuardRelayManager.selectNewGuards, hdiscovery]
        simp only [herror, andThen, rd']
      exact .inl (.inl ⟨hnone, _, _, hselect⟩)
    · exact absurd hneg (by decide)
    · have hselect : grm.selectNewGuards now run =
          ({ grm with discovery := some rd' }, .draws) := by
        rw [GuardRelayManager.selectNewGuards, hdiscovery]
        simp only [hdraws, andThen, rd']
      exact .inr ⟨hfew, _, hselect⟩
    · have hlen : candidates.length = min (numGuardRelays * 3) (rd.available now).length :=
        hoffers.length_eq
      have hsome := ne_nil_of_length_eq hlen (by decide) hoffers.available_ne
      have hshuffled := run.shuffle.perm (goodCandidates now candidates)
      rw [selectNewGuards_of_candidates hdiscovery hcandidates hsome]
      refine .inl (.inr
        ⟨hoffers.available_ne, _, _, ⟨candidates, hoffers.subperm, hlen, ?_, ?_⟩, rfl⟩)
      · exact ((take_sublist _ _).subperm).trans hshuffled.subperm
      · rw [length_take, hshuffled.length_eq]

theorem selectNewGuards_cases (grm : GuardRelayManager)
    (hdraws : run.Suffice (grm.available now)) : grm.Selects now run :=
  (selectNewGuards_outcomes grm now run).resolve_right fun h => h.1 hdraws

/-- Random choices may bring every selection. -/
theorem MaySelect.exists_run (grm : GuardRelayManager)
    (h : MaySelect now (grm.available now) chosen) (hne : grm.available now ≠ []) :
    ∃ (run : SelectRun) (discovery : Option RelayDiscovery), run.Suffice (grm.available now) ∧
      grm.selectNewGuards now run =
        (⟨discovery, chosen.map (freshGuard now), grm.rotationTime⟩, .returns (.ok ())) := by
  obtain ⟨candidates, hsub, hlen, hchosen, hcount⟩ := h
  obtain ⟨rd, hdiscovery, havailable⟩ := discovery_of_available hne
  rw [havailable] at hne hsub hlen
  have hoffers : rd.Offers now (numGuardRelays * 3 : ℕ) candidates := ⟨by decide, hne, hsub, hlen⟩
  obtain ⟨choices, hdraws, hcandidates⟩ := hoffers.exists_run
  -- The shuffle brings the chosen relays to the front.
  obtain ⟨rest, hrest⟩ := exists_front hchosen
  have hsome := ne_nil_of_length_eq hlen (by decide) hne
  let run : SelectRun := ⟨choices, .of hrest⟩
  have hrun : run.shuffle.order (goodCandidates now candidates) = chosen ++ rest :=
    Reordering.of_order hrest
  refine ⟨run, some (rd.discoverRelays now choices (numGuardRelays * 3 : ℕ)).1, ?_, ?_⟩
  · rw [havailable]
    exact hdraws _
  · rw [selectNewGuards_of_candidates hdiscovery hcandidates hsome, hrun, take_front hrest hcount]

end

/-! ## What the requirements exclude -/

/-- Seven days of uptime, and a reliability of at least 0.8. -/
def RelayMetadata.trusted (m : RelayMetadata) : Bool :=
  guardMinUptime ≤ m.uptime.toNat * 10 ^ 9 && 4 / 5 ≤ m.reliability

section

variable {now : ℤ} {m : RelayMetadata} {candidates : List RelayMetadata}

theorem forall_goodCandidates_iff {P : RelayMetadata → Prop} :
    (∀ m ∈ goodCandidates now candidates, P m) ↔
      (∀ m ∈ candidates, qualified now m = true → P m) ∧
        ((∃ m ∈ candidates, qualified now m = true) ∨ ∀ m ∈ candidates, P m) := by
  rw [goodCandidates]
  split
  · next hnone =>
    rw [length_eq_zero_iff, filter_eq_nil_iff] at hnone
    constructor
    · exact fun h => ⟨fun m hm _ => h m hm, .inr h⟩
    · rintro ⟨-, ⟨m, hm, hgood⟩ | h⟩
      · exact absurd hgood (hnone m hm)
      · exact h
  · next hsome =>
    obtain ⟨m, hm⟩ := exists_mem_of_length_pos (Nat.pos_of_ne_zero hsome)
    obtain ⟨hmem, hgood⟩ := mem_filter.mp hm
    constructor
    · intro h
      exact ⟨fun m hm hgood => h m (mem_filter.mpr ⟨hm, hgood⟩), .inl ⟨m, hmem, hgood⟩⟩
    · rintro ⟨h, -⟩ m hm
      exact h m (mem_filter.mp hm).1 (mem_filter.mp hm).2

theorem exists_guard {grm : GuardRelayManager} {rd : RelayDiscovery}
    (hdiscovery : grm.discovery = some rd)
    (hoffers : rd.Offers now (numGuardRelays * 3 : ℕ) candidates)
    (hm : m ∈ goodCandidates now candidates) :
    ∃ run : SelectRun,
      (rd.discoverRelays now run.choices (numGuardRelays * 3 : ℕ)).2 =
        .returns (.ok candidates) ∧
      freshGuard now m ∈ (grm.selectNewGuards now run).1.guards := by
  obtain ⟨choices, -, hcandidates⟩ := hoffers.exists_run
  -- The shuffle brings the relay to the front.
  obtain ⟨rest, hrest⟩ := exists_front (singleton_subperm_iff.mpr hm)
  let run : SelectRun := ⟨choices, .of hrest⟩
  have hrun : run.shuffle.order (goodCandidates now candidates) = [m] ++ rest :=
    Reordering.of_order hrest
  have hne : candidates ≠ [] := ne_nil_of_mem (goodCandidates_sublist.subset hm)
  refine ⟨run, hcandidates, ?_⟩
  rw [selectNewGuards_of_candidates hdiscovery hcandidates hne, hrun]
  exact mem_cons_self

theorem qualified_trusted_iff :
    (qualified now m = true → m.trusted = true) ↔
      (qualified now m = true → guardMinUptime ≤ m.uptime.toNat * 10 ^ 9) := by
  refine imp_congr_right fun hqualified => ?_
  rw [qualified, Bool.and_eq_true, decide_eq_true_eq, decide_eq_true_eq] at hqualified
  rw [trusted, Bool.and_eq_true, decide_eq_true_eq, decide_eq_true_eq]
  exact and_iff_left hqualified.2

/-- All guards that may be selected have seven days of uptime and a reliability of 0.8, if some
candidate has, just when those that pass the tests of the code do, and all candidates if none passes
them. -/
theorem guards_trusted_iff {grm : GuardRelayManager} {rd : RelayDiscovery}
    (hdiscovery : grm.discovery = some rd)
    (hoffers : rd.Offers now (numGuardRelays * 3 : ℕ) candidates) :
    ((∃ m ∈ candidates, m.trusted = true) → ∀ run : SelectRun,
      (rd.discoverRelays now run.choices (numGuardRelays * 3 : ℕ)).2 = .returns (.ok candidates) →
      ∀ g ∈ (grm.selectNewGuards now run).1.guards, g.metadata.trusted = true) ↔
      (∀ m ∈ candidates, m.trusted = false) ∨
        (∀ m ∈ candidates, qualified now m = true → guardMinUptime ≤ m.uptime.toNat * 10 ^ 9) ∧
          ((∃ m ∈ candidates, qualified now m = true) ∨ ∀ m ∈ candidates, m.trusted = true) := by
  have hgood : (∀ m ∈ goodCandidates now candidates, m.trusted = true) ↔ _ :=
    forall_goodCandidates_iff
  have hnone : (¬ ∃ m ∈ candidates, m.trusted = true) ↔ ∀ m ∈ candidates, m.trusted = false := by
    simp only [not_exists, not_and, Bool.not_eq_true]
  simp only [qualified_trusted_iff] at hgood
  rw [← hgood, ← hnone, imp_iff_not_or]
  refine or_congr_right ⟨fun h m hm => ?_, fun h run hcandidates g hg => ?_⟩
  · obtain ⟨run, hcandidates, hguard⟩ := exists_guard hdiscovery hoffers hm
    exact h run hcandidates (freshGuard now m) hguard
  · have hlen : candidates.length = min (numGuardRelays * 3) (rd.available now).length :=
      hoffers.length_eq
    have hne := ne_nil_of_length_eq hlen (by decide) hoffers.available_ne
    rw [selectNewGuards_of_candidates hdiscovery hcandidates hne] at hg
    obtain ⟨m, hm, rfl⟩ := mem_map.mp hg
    exact h m ((run.shuffle.perm _).subset (mem_of_mem_take hm))

end

def ratedRelay (address : UInt8) (uptime : UInt64) : RelayMetadata :=
  { seenRelay address 0 with uptime := uptime, reliability := 9 / 10 }

def ratedRelays (a b : UInt64) : RelayDiscovery where
  attached := true
  known := [ratedRelay 1 a, ratedRelay 2 b]
  nodup := by
    have haddresses : ([1, 2].map fun n : UInt8 => List.replicate 20 n).Nodup := by decide
    exact .of_map ByteArr.bytes haddresses
  blacklist _ := none

theorem ratedRelays_offers (a b : UInt64) :
    (ratedRelays a b).Offers 0 (numGuardRelays * 3 : ℕ) [ratedRelay 1 a, ratedRelay 2 b] := by
  have hhealthy : ∀ n uptime, (ratedRelay n uptime).isHealthy 0 hour = true := by
    have hage : ¬ hour < 0 - unixInstant 0 := by decide
    have hrate : ¬ (0 < (9 / 10 : ℚ) ∧ (9 / 10 : ℚ) < 1 / 2) := by decide +kernel
    have hloss : ¬ (0 < (0 : ℚ) ∧ 3 / 10 < (0 : ℚ)) := by decide +kernel
    intro n uptime
    exact (if_neg hage).trans ((if_neg hrate).trans (if_neg hloss))
  have havailable : (ratedRelays a b).available 0 = [ratedRelay 1 a, ratedRelay 2 b] := by
    simp [available, usable, ratedRelays, hhealthy, Blacklist.lists]
  refine ⟨by decide, ?_, ?_, ?_⟩
  · rw [havailable]
    exact cons_ne_nil _ _
  · rw [havailable]
  · rw [havailable]
    rfl

theorem ratedRelay_qualified (n : UInt8) (uptime : UInt64) :
    qualified 0 (ratedRelay n uptime) = true := by
  have hrate : decide ((4 / 5 : ℚ) ≤ 9 / 10) = true := by decide +kernel
  have hinstant : decide (guardMinUptime ≤ 0 - unixInstant (0 - 3600 * 24 * 7)) = true := by decide
  rw [qualified, Bool.and_eq_true]
  exact ⟨hinstant, hrate⟩

theorem ratedRelay_week_trusted (n : UInt8) : (ratedRelay n 604800).trusted = true := by
  have hrate : decide ((4 / 5 : ℚ) ≤ 9 / 10) = true := by decide +kernel
  have hweek : decide (guardMinUptime ≤ (604800 : UInt64).toNat * 10 ^ 9) = true := by decide
  rw [trusted, Bool.and_eq_true]
  exact ⟨hweek, hrate⟩

/-- Two relays that have been up for a week. -/
theorem guards_trusted_week :
    (ratedRelay 1 604800).trusted = true ∧
      ∀ run : SelectRun,
        ((ratedRelays 604800 604800).discoverRelays 0 run.choices (numGuardRelays * 3 : ℕ)).2 =
          .returns (.ok [ratedRelay 1 604800, ratedRelay 2 604800]) →
        ∀ g ∈ (GuardRelayManager.selectNewGuards
          (newGuardRelayManager (some (ratedRelays 604800 604800)) 0) 0 run).1.guards,
            g.metadata.trusted = true := by
  have huptime : ∀ m ∈ [ratedRelay 1 604800, ratedRelay 2 604800],
      qualified 0 m = true → guardMinUptime ≤ m.uptime.toNat * 10 ^ 9 := by
    have hweek : guardMinUptime ≤ (604800 : UInt64).toNat * 10 ^ 9 := by decide
    simp only [forall_mem_cons]
    exact ⟨fun _ => hweek, fun _ => hweek, fun _ h => absurd h not_mem_nil⟩
  have hdiscovery : (newGuardRelayManager (some (ratedRelays 604800 604800)) 0).discovery =
      some (ratedRelays 604800 604800) := rfl
  have hguards := (guards_trusted_iff hdiscovery (ratedRelays_offers 604800 604800)).mpr
    (.inr ⟨huptime, .inl ⟨_, mem_cons_self, ratedRelay_qualified 1 604800⟩⟩)
  exact ⟨ratedRelay_week_trusted 1, hguards ⟨_, mem_cons_self, ratedRelay_week_trusted 1⟩⟩

/-- A relay that has just started may be selected beside one that has been up for a week. -/
theorem guard_just_started :
    (ratedRelay 1 604800).trusted = true ∧
    ∃ run : SelectRun,
      ((ratedRelays 604800 0).discoverRelays 0 run.choices (numGuardRelays * 3 : ℕ)).2 =
        .returns (.ok [ratedRelay 1 604800, ratedRelay 2 0]) ∧
      ∃ g ∈ (GuardRelayManager.selectNewGuards
        (newGuardRelayManager (some (ratedRelays 604800 0)) 0) 0 run).1.guards,
          g.metadata.trusted = false := by
  have hstarted : (ratedRelay 2 0).trusted = false := by
    have hweek : decide (guardMinUptime ≤ (0 : UInt64).toNat * 10 ^ 9) = false := by decide
    rw [trusted, Bool.and_eq_false_iff]
    exact .inl hweek
  have hgood : ratedRelay 2 0 ∈ goodCandidates 0 [ratedRelay 1 604800, ratedRelay 2 0] := by
    simp [goodCandidates, ratedRelay_qualified]
  have hdiscovery : (newGuardRelayManager (some (ratedRelays 604800 0)) 0).discovery =
      some (ratedRelays 604800 0) := rfl
  obtain ⟨run, hcandidates, hguard⟩ :=
    exists_guard hdiscovery (ratedRelays_offers 604800 0) hgood
  exact ⟨ratedRelay_week_trusted 1, run, hcandidates, _, hguard, hstarted⟩

/-! ## The frame of `RecordFailure` -/

/-- The guards other than the first with the address. -/
def otherGuards (addr : Address) (guards : List GuardRelay) : List GuardRelay :=
  guards.eraseP fun g => g.metadata.address = addr

def SelectedAgain (now : ℤ) (available : List RelayMetadata) (others : List GuardRelay) : Prop :=
  ∃ m, others = [freshGuard now m] ∧ available.length ≤ numGuardRelays * 3 ∧
    m ∈ goodCandidates now available ∧ (goodCandidates now available).length ≤ numGuardRelays

section

variable {now : ℤ} {grm : GuardRelayManager} {run : SelectRun} {m : RelayMetadata}
  {candidates available chosen : List RelayMetadata} {addr : Address}
  {guards others : List GuardRelay}

theorem otherGuards_updateGuard {f : GuardRelay → GuardRelay}
    (hf : ∀ g, (f g).metadata = g.metadata) :
    otherGuards addr (updateGuard addr f guards) = otherGuards addr guards := by
  induction guards with
  | nil => rfl
  | cons g guards ih =>
    rw [updateGuard]
    split
    · next haddr => simp [otherGuards, hf, haddr]
    · next haddr =>
      rw [otherGuards, otherGuards, eraseP_cons_of_neg (by simpa using haddr),
        eraseP_cons_of_neg (by simpa using haddr)]
      exact congrArg _ ih

theorem otherGuards_sublist : (otherGuards addr guards).Sublist guards := eraseP_sublist

theorem MaySelect.nodup (h : MaySelect now available chosen) (hnodup : available.Nodup) :
    (chosen.map (freshGuard now)).Nodup := by
  refine nodup_map_of_subperm h.subperm (hnodup.map fun a b hab => ?_)
  exact congrArg GuardRelay.metadata hab

theorem MaySelect.reverse (h : MaySelect now available chosen) :
    MaySelect now available chosen.reverse := by
  obtain ⟨candidates, hsub, hlen, hchosen, hcount⟩ := h
  refine ⟨candidates, hsub, hlen, (reverse_perm _).subperm.trans hchosen, ?_⟩
  rw [length_reverse, hcount]

theorem exists_maySelect (now : ℤ) (available : List RelayMetadata) :
    ∃ chosen, MaySelect now available chosen := by
  refine ⟨_, available.take (numGuardRelays * 3), (take_sublist _ _).subperm,
    length_take, (take_sublist numGuardRelays _).subperm, length_take⟩

theorem MaySelect.of_few (hfew : available.length ≤ numGuardRelays * 3)
    (hchosen : chosen.Subperm (goodCandidates now available))
    (hlen : chosen.length = min numGuardRelays (goodCandidates now available).length) :
    MaySelect now available chosen :=
  ⟨available, .refl _, (Nat.min_eq_right hfew).symm, hchosen, hlen⟩

/-- Which relays every selection chooses. -/
theorem selections_choose_iff (hnodup : available.Nodup) :
    (∀ chosen, MaySelect now available chosen → m ∈ chosen) ↔
      available.length ≤ numGuardRelays * 3 ∧ m ∈ goodCandidates now available ∧
        (goodCandidates now available).length ≤ numGuardRelays := by
  constructor
  · intro hmem
    have hfew : available.length ≤ numGuardRelays * 3 := by
      by_contra hmore
      obtain ⟨candidates, hsub, hlen, hnot⟩ := exists_avoiding hnodup (Nat.not_le.mp hmore) m
      have hselect :
          MaySelect now available ((goodCandidates now candidates).take numGuardRelays) :=
        ⟨candidates, hsub, by omega, (take_sublist _ _).subperm, length_take⟩
      exact hnot (goodCandidates_sublist.subset (mem_of_mem_take (hmem _ hselect)))
    refine ⟨hfew, ?_, ?_⟩
    · exact mem_of_mem_take (hmem _ (.of_few hfew
        (take_sublist numGuardRelays _).subperm length_take))
    · by_contra hmore
      obtain ⟨chosen, hsub, hlen, hnot⟩ := exists_avoiding
        (hnodup.sublist goodCandidates_sublist) (Nat.not_le.mp hmore) m
      exact hnot (hmem _ (.of_few hfew hsub (by omega)))
  · rintro ⟨hfew, hm, hgood⟩ chosen ⟨candidates, hsub, hlen, hchosen, hcount⟩
    have hcandidates : candidates.Perm available := hsub.perm_of_length_le (by omega)
    have hgood' : (goodCandidates now candidates).Perm (goodCandidates now available) :=
      goodCandidates_perm hcandidates
    have hlen' := hgood'.length_eq
    have hperm : chosen.Perm (goodCandidates now candidates) :=
      hchosen.perm_of_length_le (by omega)
    exact (hperm.trans hgood').mem_iff.mpr hm

theorem singleton_sublist_fresh_iff :
    [freshGuard now m].Sublist (chosen.map (freshGuard now)) ↔ m ∈ chosen := by
  rw [singleton_sublist, mem_map]
  constructor
  · rintro ⟨m', hm', hfresh⟩
    obtain rfl : m' = m := congrArg GuardRelay.metadata hfresh
    exact hm'
  · exact fun hm => ⟨m, hm, rfl⟩

/-- Which guards every selection keeps. -/
theorem selections_keep_iff (hnodup : available.Nodup) :
    (∀ chosen, MaySelect now available chosen →
      others.Sublist (chosen.map (freshGuard now))) ↔
      others = [] ∨ SelectedAgain now available others := by
  constructor
  · intro h
    obtain ⟨chosen, hchosen⟩ := exists_maySelect now available
    have hkeep := h chosen hchosen
    rcases others with - | ⟨o, - | ⟨o', others⟩⟩
    · exact .inl rfl
    · obtain ⟨m, -, rfl⟩ := mem_map.mp (singleton_sublist.mp hkeep)
      have hmem := (selections_choose_iff hnodup).mp fun chosen hchosen =>
        singleton_sublist_fresh_iff.mp (h chosen hchosen)
      exact .inr ⟨m, rfl, hmem⟩
    · -- The shuffle may turn the selection round, and then two guards change places.
      have hreverse := (h _ hchosen.reverse).reverse
      rw [map_reverse, reverse_reverse] at hreverse
      have hpair : [o, o'].Sublist (o :: o' :: others) := sublist_append_left [o, o'] others
      have hpair' := hpair.reverse.trans hreverse
      exact absurd hpair' (not_both_orders (hchosen.nodup hnodup) (hpair.trans hkeep))
  · rintro (rfl | ⟨m, rfl, hm⟩) chosen hchosen
    · exact nil_sublist _
    · exact singleton_sublist_fresh_iff.mpr ((selections_choose_iff hnodup).mpr hm chosen hchosen)

theorem available_nodup : ((grm.available now).map RelayMetadata.address).Nodup := by
  rw [GuardRelayManager.available]
  cases grm.discovery with
  | none => exact .nil
  | some rd => exact RelayDiscovery.available_nodup

theorem recordFailure_removes {g : GuardRelay}
    (hfind : (grm.guards.find? fun g => g.metadata.address = addr) = some g)
    (hfails : 10 ≤ g.failCount) :
    grm.recordFailure now run addr =
      Outcome.andThen ({ grm with guards := otherGuards addr grm.guards }.selectNewGuards now run)
        fun grm _ => (grm, .returns ()) := by
  have hover : 10 < g.failed.failCount := Nat.lt_succ_of_le hfails
  rw [GuardRelayManager.recordFailure, hfind]
  simp only [if_pos hover, GuardRelayManager.removeGuard]
  rw [← otherGuards, otherGuards_updateGuard (f := GuardRelay.failed) fun _ => rfl]

theorem recordFailure_returns (hdraws : run.Suffice (grm.available now)) :
    ∃ grm', grm.recordFailure now run addr = (grm', .returns ()) := by
  rw [GuardRelayManager.recordFailure]
  split
  · exact ⟨_, rfl⟩
  · next g hfind =>
    let rest : GuardRelayManager :=
      { grm with guards := otherGuards addr (updateGuard addr .failed grm.guards) }
    split
    · rcases selectNewGuards_cases rest hdraws with ⟨-, discovery, e, he⟩ | ⟨-, _, _, -, hselect⟩
      · exact ⟨_, congrArg (andThen · _) he⟩
      · exact ⟨_, congrArg (andThen · _) hselect⟩
    · exact ⟨_, rfl⟩

theorem recordFailure_counts
    (hfew : ∀ g, (grm.guards.find? fun g => g.metadata.address = addr) = some g →
      g.failCount < 10) :
    ∃ grm', grm.recordFailure now run addr = (grm', .returns ()) ∧
      (otherGuards addr grm.guards).Sublist grm'.guards := by
  rw [GuardRelayManager.recordFailure]
  split
  · exact ⟨grm, rfl, otherGuards_sublist⟩
  · next g hfind =>
    have hunder : ¬ 10 < g.failed.failCount := Nat.not_lt.mpr (hfew g hfind)
    simp only [if_neg hunder]
    refine ⟨_, rfl, ?_⟩
    rw [← otherGuards_updateGuard (f := GuardRelay.failed) fun _ => rfl]
    exact otherGuards_sublist

theorem recordFailure_removes_iff {g : GuardRelay}
    (hfind : (grm.guards.find? fun g => g.metadata.address = addr) = some g)
    (hfails : 10 ≤ g.failCount) :
    (∀ run : SelectRun, run.Suffice (grm.available now) →
      ∃ grm', grm.recordFailure now run addr = (grm', .returns ()) ∧
        (otherGuards addr grm.guards).Sublist grm'.guards) ↔
      grm.available now = [] ∨ otherGuards addr grm.guards = [] ∨
        SelectedAgain now (grm.available now) (otherGuards addr grm.guards) := by
  let rest : GuardRelayManager := { grm with guards := otherGuards addr grm.guards }
  rcases eq_or_ne (grm.available now) [] with hnone | hsome
  · refine iff_of_true (fun run hdraws => ?_) (.inl hnone)
    rw [recordFailure_removes hfind hfails]
    rcases selectNewGuards_cases rest hdraws with ⟨-, discovery, e, he⟩ | ⟨hsome, -⟩
    · rw [he]
      exact ⟨_, rfl, .refl _⟩
    · exact absurd hnone hsome
  · rw [or_iff_right hsome, ← selections_keep_iff (.of_map _ available_nodup)]
    constructor
    · intro h chosen hchosen
      obtain ⟨run, discovery, hdraws, hselect⟩ := hchosen.exists_run rest hsome
      obtain ⟨grm', hrecord, hkeep⟩ := h run hdraws
      rw [recordFailure_removes hfind hfails, hselect] at hrecord
      obtain ⟨rfl, -⟩ := Prod.mk.inj hrecord
      exact hkeep
    · intro h run hdraws
      rw [recordFailure_removes hfind hfails]
      rcases selectNewGuards_cases rest hdraws with
        ⟨hnone, -⟩ | ⟨-, discovery, chosen, hchosen, hselect⟩
      · exact absurd hnone hsome
      · rw [hselect]
        exact ⟨_, rfl, h chosen hchosen⟩

end

/-- The guard is not removed, or no relay can be discovered, or there is no other guard, apart from
one that was selected at the time of the call. -/
def GuardRelayManager.Spares (grm : GuardRelayManager) (now : ℤ) (addr : Address) : Prop :=
  (∀ g, (grm.guards.find? fun g => g.metadata.address = addr) = some g → g.failCount < 10) ∨
    grm.available now = [] ∨ otherGuards addr grm.guards = [] ∨
      SelectedAgain now (grm.available now) (otherGuards addr grm.guards)

theorem recordFailure_frame {grm : GuardRelayManager} {now : ℤ} {run : SelectRun} {addr : Address}
    (hspares : grm.Spares now addr) (hdraws : run.Suffice (grm.available now)) :
    ∃ grm', grm.recordFailure now run addr = (grm', .returns ()) ∧
      (otherGuards addr grm.guards).Sublist grm'.guards := by
  by_cases hfew : ∀ g, (grm.guards.find? fun g => g.metadata.address = addr) = some g →
      g.failCount < 10
  · exact recordFailure_counts hfew
  · have hrest := hspares.resolve_left hfew
    push Not at hfew
    obtain ⟨g, hfind, hfails⟩ := hfew
    exact (recordFailure_removes_iff hfind hfails).mpr hrest run hdraws

/-- When a failure of one guard leaves all others in their places, whatever the random choices are.
-/
theorem recordFailure_frame_iff (grm : GuardRelayManager) (now : ℤ) (addr : Address) :
    (∀ run : SelectRun, run.Suffice (grm.available now) →
      ∃ grm', grm.recordFailure now run addr = (grm', .returns ()) ∧
        (otherGuards addr grm.guards).Sublist grm'.guards) ↔ grm.Spares now addr := by
  refine ⟨fun h => ?_, fun hspares run hdraws => recordFailure_frame hspares hdraws⟩
  rw [GuardRelayManager.Spares, or_iff_not_imp_left]
  intro hfew
  push Not at hfew
  obtain ⟨g, hfind, hfails⟩ := hfew
  exact (recordFailure_removes_iff hfind hfails).mp h

def twoGuards : GuardRelayManager where
  discovery := some (threeRelays 0 0 0)
  guards := [⟨seenRelay 1 0, -10, -10, 0, 10⟩, ⟨seenRelay 2 0, -10, -5, 7, 0⟩]
  rotationTime := guardRotationPeriod

/-- The guard that never failed loses its time and its counters; the removed one is selected again.
-/
theorem guards_replaced :
    ∃ (run : SelectRun) (grm' : GuardRelayManager), run.Suffice (twoGuards.available 0) ∧
      twoGuards.recordFailure 0 run (seenRelay 1 0).address = (grm', .returns ()) ∧
      grm'.guards = [seenRelay 1 0, seenRelay 2 0, seenRelay 3 0].map (freshGuard 0) ∧
      ¬ (otherGuards (seenRelay 1 0).address twoGuards.guards).Sublist grm'.guards := by
  have hunknown : ∀ n, qualified 0 (seenRelay n 0) = false := by
    have hrate : ¬ (4 / 5 : ℚ) ≤ 0 := by decide +kernel
    simp [qualified, seenRelay, hrate]
  have hgood : goodCandidates 0 [seenRelay 1 0, seenRelay 2 0, seenRelay 3 0] =
      [seenRelay 1 0, seenRelay 2 0, seenRelay 3 0] := by simp [goodCandidates, hunknown]
  have havailable : twoGuards.available 0 = [seenRelay 1 0, seenRelay 2 0, seenRelay 3 0] :=
    threeRelays_available 0 0 0
  have hselect : MaySelect 0 (twoGuards.available 0)
      [seenRelay 1 0, seenRelay 2 0, seenRelay 3 0] := by
    refine ⟨[seenRelay 1 0, seenRelay 2 0, seenRelay 3 0], ?_, ?_, ?_, ?_⟩
    · rw [havailable]
    · rw [havailable]; rfl
    · rw [hgood]
    · rw [hgood]; rfl
  have hsome : twoGuards.available 0 ≠ [] := by
    exact cons_ne_nil _ _
  have hfind : (twoGuards.guards.find? fun g => g.metadata.address = (seenRelay 1 0).address) =
      some ⟨seenRelay 1 0, -10, -10, 0, 10⟩ := by simp [twoGuards]
  obtain ⟨run, discovery, hdraws, hreturns⟩ := hselect.exists_run
    { twoGuards with guards := otherGuards (seenRelay 1 0).address twoGuards.guards } hsome
  have hothers : otherGuards (seenRelay 1 0).address twoGuards.guards =
      [⟨seenRelay 2 0, -10, -5, 7, 0⟩] := by simp [otherGuards, twoGuards]
  have hrecord : twoGuards.recordFailure 0 run (seenRelay 1 0).address = _ :=
    recordFailure_removes hfind le_rfl
  rw [hreturns] at hrecord
  refine ⟨run, _, hdraws, hrecord, rfl, ?_⟩
  rw [hothers, singleton_sublist]
  simp [freshGuard]

/-! ## Runs -/

/-- A call that records how a guard did, with what it gets from outside. -/
inductive GuardCall
  | success (now : ℤ) (addr : Address)
  | failure (now : ℤ) (run : SelectRun) (addr : Address)

def GuardCall.addr : GuardCall → Address
  | .success _ addr => addr
  | .failure _ _ addr => addr

/-- The call returns. -/
def GuardStep (grm : GuardRelayManager) (call : GuardCall) (grm' : GuardRelayManager) : Prop :=
  match call with
  | .success now addr => grm' = grm.recordSuccess now addr
  | .failure now run addr =>
    run.Suffice (grm.available now) ∧ grm.recordFailure now run addr = (grm', .returns ())

def GuardCall.Spares (grm : GuardRelayManager) : GuardCall → Prop
  | .success _ _ => True
  | .failure now _ addr => grm.Spares now addr

section

variable {grm grm' : GuardRelayManager} {call : GuardCall} {calls : List GuardCall}

theorem filter_sublist_otherGuards (addr : Address) (guards : List GuardRelay) :
    (guards.filter fun g => g.metadata.address ≠ addr).Sublist (otherGuards addr guards) := by
  induction guards with
  | nil => exact .slnil
  | cons g guards ih =>
    rw [otherGuards]
    by_cases haddr : g.metadata.address = addr
    · rw [filter_cons_of_neg (by simpa using haddr),
        eraseP_cons_of_pos (by simpa using haddr)]
      exact filter_sublist
    · rw [filter_cons_of_pos (by simpa using haddr),
        eraseP_cons_of_neg (by simpa using haddr)]
      exact ih.cons_cons g

theorem otherGuards_step (hspares : call.Spares grm) (hstep : GuardStep grm call grm') :
    (otherGuards call.addr grm.guards).Sublist grm'.guards := by
  cases call with
  | success now addr =>
    obtain rfl : grm' = _ := hstep
    rw [← otherGuards_updateGuard (f := GuardRelay.succeeded now) fun _ => rfl]
    exact otherGuards_sublist
  | failure now run addr =>
    obtain ⟨hdraws, hrecord⟩ := hstep
    obtain ⟨grm'', hrecord', hkept⟩ := recordFailure_frame hspares hdraws
    obtain ⟨rfl, -⟩ := Prod.mk.inj (hrecord.symm.trans hrecord')
    exact hkept

/-- Over a run of calls that spare the other guards, the guards no call names stay. -/
theorem guards_kept (hrun : Runs.Run GuardStep grm calls grm')
    (hspares : Runs.Guarded GuardStep grm (fun _ s call => call.Spares s) calls) :
    (grm.guards.filter fun g => g.metadata.address ∉ calls.map GuardCall.addr).Sublist
      grm'.guards := by
  refine hrun.guarded_invariant (I := fun calls s =>
    (grm.guards.filter fun g => g.metadata.address ∉ calls.map GuardCall.addr).Sublist s.guards)
    ?_ ?_ hspares
  · exact filter_sublist
  · intro calls call s s' hkept hs hstep
    have hsplit : (grm.guards.filter fun g => g.metadata.address ∉
        (calls ++ [call]).map GuardCall.addr) =
        (grm.guards.filter fun g => g.metadata.address ∉ calls.map GuardCall.addr).filter
          fun g => g.metadata.address ≠ call.addr := by
      rw [filter_filter]
      congr 1
      funext g
      simp [and_comm]
    rw [hsplit]
    have hothers := (hkept.filter _).trans (filter_sublist_otherGuards call.addr s.guards)
    exact hothers.trans (otherGuards_step hs hstep)

end

end Zentalk
