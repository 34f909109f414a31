import Zentalk.Network.GuardChoice

/-!
# Runs of the guard manager

All calls of `guard_relays.go`, in any order and with any choices (`guard_manager_sound`).
-/

namespace Zentalk

open Wire Sampling Runs List GuardRelayManager

/-! ## How a call ends -/

/-- A call that returns leaves `P`, one that draws on leaves `Q`, and none panics. -/
def Outcome.Meets {σ α : Type} (P : σ → α → Prop) (Q : σ → Prop) : σ × Outcome α → Prop
  | (s, .returns a) => P s a
  | (_, .panics) => False
  | (s, .draws) => Q s

theorem Outcome.Meets.andThen {σ α β : Type} {P : σ → α → Prop} {P' : σ → β → Prop}
    {Q : σ → Prop} {first : σ × Outcome α} {f : σ → α → σ × Outcome β}
    (hfirst : Outcome.Meets P Q first) (hf : ∀ s a, P s a → Outcome.Meets P' Q (f s a)) :
    Outcome.Meets P' Q (Outcome.andThen first f) := by
  obtain ⟨s, outcome⟩ := first
  cases outcome with
  | returns a => exact hf s a hfirst
  | panics => exact hfirst
  | draws => exact hfirst

theorem Outcome.Meets.mono {σ α : Type} {P P' : σ → α → Prop} {Q : σ → Prop} {r : σ × Outcome α}
    (h : Outcome.Meets P Q r) (hP : ∀ s a, P s a → P' s a) : Outcome.Meets P' Q r := by
  obtain ⟨s, outcome⟩ := r
  cases outcome with
  | returns a => exact hP s a h
  | panics => exact h
  | draws => exact h

theorem Outcome.Meets.fst {σ α : Type} {P : σ → α → Prop} {Q : σ → Prop} {r : σ × Outcome α}
    (h : Outcome.Meets P Q r) (hP : ∀ s a, P s a → Q s) : Q r.1 := by
  obtain ⟨s, outcome⟩ := r
  cases outcome with
  | returns a => exact hP s a h
  | panics => exact h.elim
  | draws => exact h

namespace GuardRelayManager

/-! ## The guards -/

def forceRotation (grm : GuardRelayManager) (now : ℤ) (run : SelectRun) :
    GuardRelayManager × Outcome (Except Bytes Unit) :=
  Outcome.andThen (grm.selectNewGuards now run) fun
    | grm, .error err => (grm, .returns (.error err))
    | grm, .ok () =>
      ({ grm with rotationTime := now + guardRotationPeriod }, .returns (.ok ()))

/-- There are at most as many guards as there should be, at different addresses. -/
structure Sound (grm : GuardRelayManager) : Prop where
  few : grm.guards.length ≤ numGuardRelays
  distinct : (grm.guards.map fun g => g.metadata.address).Nodup

def Holds (grm : GuardRelayManager) (m : RelayMetadata) : Prop :=
  ∃ g ∈ grm.guards, g.metadata = m ∧
    (g.successCount + g.failCount = 0 ∨ 4 * (g.successCount + g.failCount) ≤ 5 * g.successCount)

variable {grm : GuardRelayManager} {now : ℤ} {run : SelectRun} {addr : Address}

theorem Sound.new (discovery : Option RelayDiscovery) (now : ℤ) :
    (newGuardRelayManager discovery now).Sound := ⟨Nat.zero_le _, .nil⟩

variable {grm' : GuardRelayManager}

theorem Sound.congr (h : grm.Sound) (hsame : (grm'.guards.map fun g => g.metadata.address) =
      grm.guards.map fun g => g.metadata.address) : grm'.Sound := by
  have hlen := congrArg List.length hsame
  rw [length_map, length_map] at hlen
  exact ⟨hlen ▸ h.few, hsame ▸ h.distinct⟩

theorem Sound.sublist (h : grm.Sound) (hsub : grm'.guards.Sublist grm.guards) : grm'.Sound :=
  ⟨hsub.length_le.trans h.few, h.distinct.sublist (hsub.map _)⟩

theorem sound_selected {chosen available : List RelayMetadata}
    (hchosen : MaySelect now available chosen)
    (hnodup : (available.map RelayMetadata.address).Nodup)
    (hguards : grm.guards = chosen.map (freshGuard now)) : grm.Sound := by
  obtain ⟨candidates, -, -, -, hcount⟩ := id hchosen
  refine ⟨?_, ?_⟩
  · rw [hguards, length_map, hcount]
    exact Nat.min_le_left _ _
  · rw [hguards, map_map]
    exact nodup_map_of_subperm hchosen.subperm hnodup

theorem updateGuard_addresses (f : GuardRelay → GuardRelay)
    (hf : ∀ g, (f g).metadata = g.metadata) (guards : List GuardRelay) :
    ((updateGuard addr f guards).map fun g => g.metadata.address) =
      guards.map fun g => g.metadata.address := by
  induction guards with
  | nil => rfl
  | cons g guards ih =>
    rw [updateGuard]
    split
    · rw [map_cons, map_cons, hf]
    · rw [map_cons, map_cons, ih]

theorem holds_of_healthy {g : GuardRelay} (hg : g ∈ grm.guards) (hhealthy : g.healthy = true) :
    grm.Holds g.metadata := by
  rw [GuardRelay.healthy, Bool.or_eq_true, decide_eq_true_eq, decide_eq_true_eq] at hhealthy
  exact ⟨g, hg, rfl, hhealthy⟩

/-! ## The steps of `GetGuardRelay` -/

theorem selectNewGuards_meets (now : ℤ) (run : SelectRun) (h : grm.Sound) :
    Outcome.Meets
      (fun s result => s.Sound ∧ (result = .ok () →
        s.guards ≠ [] ∧ ∀ g ∈ s.guards, g.healthy = true))
      Sound (grm.selectNewGuards now run) := by
  rcases selectNewGuards_outcomes grm now run with
    (⟨-, discovery, error, hselect⟩ | ⟨hsome, discovery, chosen, hchosen, hselect⟩) |
    ⟨-, discovery, hselect⟩
  · rw [hselect]
    refine ⟨h.congr rfl, fun hok => ?_⟩
    cases hok
  · rw [hselect]
    refine ⟨sound_selected hchosen available_nodup rfl, fun _ => ⟨?_, ?_⟩⟩
    · exact fun hnil => hchosen.ne_nil hsome (map_eq_nil_iff.mp hnil)
    · intro g hg
      obtain ⟨m, -, rfl⟩ := mem_map.mp hg
      exact freshGuard_healthy now m
  · rw [hselect]
    exact h.congr rfl

theorem ensureGuards_meets (now : ℤ) (run : SelectRun) (h : grm.Sound) :
    Outcome.Meets (fun s _ => s.Sound) Sound (grm.ensureGuards now run) := by
  rw [ensureGuards]
  split
  · exact (selectNewGuards_meets now run h).mono fun _ _ hs => hs.1
  · exact h

theorem rotate_meets (now : ℤ) (run : SelectRun) (h : grm.Sound) :
    Outcome.Meets (fun s _ => s.Sound) Sound (grm.rotate now run) := by
  rw [rotate]
  split
  · refine (selectNewGuards_meets now run h).andThen fun s result hs => ?_
    cases result with
    | error e => exact hs.1
    | ok _ => exact hs.1.congr rfl
  · exact h

theorem pickGuard_meets {places : List ℕ} (now : ℤ) (index : ℕ) (h : grm.Sound) (hne : places ≠ [])
    (hplaces : ∀ i ∈ places, ∃ g, grm.guards[i]? = some g ∧ g.healthy = true) :
    Outcome.Meets (fun s result => s.Sound ∧ ∀ m, result = .ok m → s.Holds m) Sound
      (grm.pickGuard now index places) := by
  have hlt := Nat.mod_lt index (length_pos_iff.mpr hne)
  obtain ⟨g, hg, hhealthy⟩ := hplaces _ (getElem_mem hlt)
  rw [pickGuard_of_place (List.getElem?_eq_getElem hlt) hg]
  obtain ⟨hi, hget⟩ := List.getElem?_eq_some_iff.mp hg
  refine ⟨h.congr ?_, fun m hm => ?_⟩
  · have hset := set_getElem_self hi
    rw [hget] at hset
    nth_rewrite 2 [← hset]
    rw [map_set, map_set]
  · obtain rfl := Except.ok.inj hm
    exact holds_of_healthy (g := { g with lastUsed := now }) (mem_set hi _) hhealthy

theorem pickHealthy_meets (now : ℤ) (replacement : SelectRun) (index : ℕ) (h : grm.Sound) :
    Outcome.Meets (fun s result => s.Sound ∧ ∀ m, result = .ok m → s.Holds m) Sound
      (grm.pickHealthy now replacement index) := by
  rw [pickHealthy]
  split
  · refine (selectNewGuards_meets now replacement h).andThen fun s result hs => ?_
    cases result with
    | error e =>
      refine ⟨hs.1, fun m hm => ?_⟩
      cases hm
    | ok _ =>
      obtain ⟨hsome, hfresh⟩ := hs.2 rfl
      refine pickGuard_meets now index hs.1 ?_ fun i hi => ?_
      · exact fun hnil => hsome (length_eq_zero_iff.mp (range_eq_nil.mp hnil))
      · have hg := List.getElem?_eq_getElem (mem_range.mp hi)
        exact ⟨_, hg, hfresh _ (mem_of_getElem? hg)⟩
  · next hsome =>
    exact pickGuard_meets now index h (fun hnil => hsome (length_eq_zero_iff.mpr hnil))
      fun i hi => mem_healthyGuards.mp hi

theorem getGuardRelay_meets (now : ℤ) (run : GuardRun) (h : grm.Sound) :
    Outcome.Meets (fun s result => s.Sound ∧ ∀ m, result = .ok m → s.Holds m) Sound
      (grm.getGuardRelay now run) := by
  refine (ensureGuards_meets now run.initial h).andThen fun s result hs => ?_
  cases result with
  | error e =>
    refine ⟨hs, fun m hm => ?_⟩
    cases hm
  | ok _ =>
    refine (rotate_meets now run.rotation hs).andThen fun s _ hs => ?_
    exact pickHealthy_meets now run.replacement run.index hs

/-! ## The other calls -/

theorem recordSuccess_sound (now : ℤ) (addr : Address) (h : grm.Sound) :
    (grm.recordSuccess now addr).Sound :=
  h.congr (updateGuard_addresses (.succeeded now) (fun _ => rfl) grm.guards)

theorem recordFailure_meets (now : ℤ) (run : SelectRun) (addr : Address) (h : grm.Sound) :
    Outcome.Meets (fun s _ => s.Sound) Sound (grm.recordFailure now run addr) := by
  rw [recordFailure]
  split
  · exact h
  · have hcounted : Sound { grm with guards := updateGuard addr .failed grm.guards } :=
      h.congr (updateGuard_addresses .failed (fun _ => rfl) grm.guards)
    split
    · have hremoved : Sound (removeGuard _ addr) := hcounted.sublist eraseP_sublist
      exact (selectNewGuards_meets now run hremoved).andThen fun s _ hs => hs.1
    · exact hcounted

theorem forceRotation_meets (now : ℤ) (run : SelectRun) (h : grm.Sound) :
    Outcome.Meets (fun s _ => s.Sound) Sound (grm.forceRotation now run) := by
  refine (selectNewGuards_meets now run h).andThen fun s result hs => ?_
  cases result with
  | error e => exact hs.1
  | ok _ => exact hs.1.congr rfl

end GuardRelayManager

/-! ## Runs -/

/-- A call of the guard manager, with what it gets from outside, or a change of what is known. -/
inductive ManagerCall
  | getGuardRelay (now : ℤ) (run : GuardRun)
  | recordSuccess (now : ℤ) (addr : Address)
  | recordFailure (now : ℤ) (run : SelectRun) (addr : Address)
  | forceRotation (now : ℤ) (run : SelectRun)
  /-- The relays that are known, or the blacklist, change. -/
  | relaysChange (discovery : Option RelayDiscovery)

/-- The call returns. -/
def ManagerStep (grm : GuardRelayManager) (call : ManagerCall) (grm' : GuardRelayManager) : Prop :=
  match call with
  | .getGuardRelay now run => ∃ result, grm.getGuardRelay now run = (grm', .returns result)
  | .recordSuccess now addr => grm' = grm.recordSuccess now addr
  | .recordFailure now run addr => grm.recordFailure now run addr = (grm', .returns ())
  | .forceRotation now run => ∃ result, grm.forceRotation now run = (grm', .returns result)
  | .relaysChange discovery => grm' = { grm with discovery := discovery }

theorem sound_step {grm grm' : GuardRelayManager} {call : ManagerCall} (h : grm.Sound)
    (hstep : ManagerStep grm call grm') : grm'.Sound := by
  cases call with
  | getGuardRelay now run =>
    obtain ⟨result, hreturns⟩ := hstep
    have hmeets := (getGuardRelay_meets now run h).fst fun _ _ hs => hs.1
    rwa [hreturns] at hmeets
  | recordSuccess now addr =>
    obtain rfl : grm' = _ := hstep
    exact recordSuccess_sound now addr h
  | recordFailure now run addr =>
    have hreturns : grm.recordFailure now run addr = (grm', .returns ()) := hstep
    have hmeets := (recordFailure_meets now run addr h).fst fun _ _ hs => hs
    rwa [hreturns] at hmeets
  | forceRotation now run =>
    obtain ⟨result, hreturns⟩ := hstep
    have hmeets := (forceRotation_meets now run h).fst fun _ _ hs => hs
    rwa [hreturns] at hmeets
  | relaysChange discovery =>
    obtain rfl : grm' = _ := hstep
    exact h.congr rfl

/-- In every run there are at most three guards, at different addresses. `GetGuardRelay` never draws
from an empty list, returns when enough indices are drawn, and returns an error or a current guard
without attempts or with at least 80 percent of successes. -/
theorem guard_manager_sound {discovery : Option RelayDiscovery} {start : ℤ}
    {calls : List ManagerCall} {grm : GuardRelayManager}
    (hrun : Run ManagerStep (newGuardRelayManager discovery start) calls grm) :
    grm.guards.length ≤ numGuardRelays ∧
    (grm.guards.map fun g => g.metadata.address).Nodup ∧
    ∀ (now : ℤ) (run : GuardRun),
      (grm.getGuardRelay now run).2 ≠ .panics ∧
      (run.Suffice (grm.available now) →
        ∃ result, (grm.getGuardRelay now run).2 = .returns result) ∧
      ∀ m, (grm.getGuardRelay now run).2 = .returns (.ok m) →
        (grm.getGuardRelay now run).1.Holds m := by
  have hsound : grm.Sound :=
    hrun.invariant (.new discovery start) fun _ _ _ hs hstep => sound_step hs hstep
  refine ⟨hsound.few, hsound.distinct, fun now run => ⟨fun hpanics => ?_, ?_, fun m hm => ?_⟩⟩
  · have hmeets := getGuardRelay_meets now run hsound
    rw [← Prod.mk.eta (p := grm.getGuardRelay now run), hpanics] at hmeets
    exact hmeets
  · intro hdraws
    rcases getGuardRelay_cases hdraws with ⟨-, grm', error, herror⟩ | ⟨grm', m, -, hreturns⟩
    · exact ⟨_, congrArg Prod.snd herror⟩
    · exact ⟨_, congrArg Prod.snd hreturns⟩
  · have hmeets := getGuardRelay_meets now run hsound
    rw [← Prod.mk.eta (p := grm.getGuardRelay now run), hm] at hmeets
    exact hmeets.2 m rfl

/-- A guard fails, and the next one is asked for. -/
theorem guard_manager_sound_failed :
    ∃ (run : GuardRun) (grm : GuardRelayManager) (m : RelayMetadata),
    Run ManagerStep (newGuardRelayManager (some (threeRelays 0 0 0)) 0)
      [.getGuardRelay 0 run, .recordFailure 0 run.initial (seenRelay 1 0).address,
        .relaysChange (some (threeRelays 0 0 0))] grm ∧
    grm.guards.length ≤ numGuardRelays ∧ (grm.guards.map fun g => g.metadata.address).Nodup ∧
    (grm.getGuardRelay 0 run).2 = .returns (.ok m) ∧ (grm.getGuardRelay 0 run).1.Holds m := by
  let start := newGuardRelayManager (some (threeRelays 0 0 0)) 0
  let any := anySelection (start.available 0)
  let run : GuardRun := ⟨any, any, any, 0⟩
  have hany : any.Suffice (start.available 0) := anySelection_suffice _
  have hdraws : run.Suffice (start.available 0) := ⟨hany, hany, hany⟩
  have hreturns (grm : GuardRelayManager) (h : grm.available 0 = start.available 0) :
      ∃ grm' m, grm.getGuardRelay 0 run = (grm', .returns (.ok m)) := by
    rcases getGuardRelay_cases (h ▸ hdraws) with ⟨hempty, -⟩ | ⟨grm', m, -, hm⟩
    · rw [h, show start.available 0 = _ from threeRelays_available 0 0 0] at hempty
      cases hempty
    · exact ⟨grm', m, hm⟩
  obtain ⟨grm₁, m₁, hget⟩ := hreturns start rfl
  have hsame : (start.getGuardRelay 0 run).1.available 0 = start.available 0 :=
    getGuardRelay_available le_rfl
  rw [hget] at hsame
  obtain ⟨grm₂, hfailed⟩ : ∃ grm₂,
      grm₁.recordFailure 0 any (seenRelay 1 0).address = (grm₂, .returns ()) :=
    recordFailure_returns (hsame ▸ hany)
  have hrun : Run ManagerStep start [.getGuardRelay 0 run, .recordFailure 0 any _,
      .relaysChange (some (threeRelays 0 0 0))] _ :=
    Run.cons ⟨_, hget⟩ (.cons hfailed (.cons rfl .nil))
  obtain ⟨hfew, hdistinct, hguard⟩ := guard_manager_sound hrun
  obtain ⟨grm₃, m, hagain⟩ := hreturns { grm₂ with discovery := some (threeRelays 0 0 0) } rfl
  have hm := congrArg Prod.snd hagain
  exact ⟨run, _, m, hrun, hfew, hdistinct, hm, (hguard 0 run).2.2 m hm⟩

end Zentalk
