import Zentalk.Network.Guards

/-!
# Which guard is used

`getGuardRelay_cases`: an error if no relay is available, and otherwise one that may be a guard.
-/

namespace Zentalk

open Wire Sampling List Option GuardRelayManager Outcome

/-! ## The code -/

/-- What `GetGuardRelay` gets from outside: the choices of each selection that it may make, and the
random index. -/
structure GuardRun where
  initial : SelectRun
  rotation : SelectRun
  replacement : SelectRun
  index : ℕ

/-- At least 80 percent of the attempts were successes. -/
def GuardRelay.healthy (g : GuardRelay) : Bool :=
  let totalAttempts := g.successCount + g.failCount
  totalAttempts = 0 || 4 * totalAttempts ≤ 5 * g.successCount

namespace GuardRelayManager

def healthyGuards (grm : GuardRelayManager) : List ℕ :=
  (range grm.guards.length).filter fun i => grm.guards[i]?.any GuardRelay.healthy

/-- The rotation, when it is due. That it fails is only logged. -/
def rotate (grm : GuardRelayManager) (now : ℤ) (run : SelectRun) :
    GuardRelayManager × Outcome Unit :=
  if grm.rotationTime < now then
    Outcome.andThen (grm.selectNewGuards now run) fun
      | grm, .error _ => (grm, .returns ())
      | grm, .ok () => ({ grm with rotationTime := now + guardRotationPeriod }, .returns ())
  else (grm, .returns ())

/-- The random choice of a guard; from an empty list `rand.Intn` panics. -/
def pickGuard (grm : GuardRelayManager) (now : ℤ) (index : ℕ) (places : List ℕ) :
    GuardRelayManager × Outcome (Except Bytes RelayMetadata) :=
  match places[index % places.length]?.bind fun i => grm.guards[i]?.map fun g => (i, g) with
  | none => (grm, .panics)
  | some (i, g) =>
    ({ grm with guards := grm.guards.set i { g with lastUsed := now } }, .returns (.ok g.metadata))

/-- The end of `GetGuardRelay`, after the rotation. -/
def pickHealthy (grm : GuardRelayManager) (now : ℤ) (replacement : SelectRun) (index : ℕ) :
    GuardRelayManager × Outcome (Except Bytes RelayMetadata) :=
  if grm.healthyGuards.length = 0 then
    Outcome.andThen (grm.selectNewGuards now replacement) fun
      | grm, .error err =>
        (grm, .returns (.error (asciiBytes "failed to select replacement guards: " ++ err)))
      | grm, .ok () => grm.pickGuard now index (range grm.guards.length)
  else grm.pickGuard now index grm.healthyGuards

/-- The start of `GetGuardRelay`: guards are selected when there are none. -/
def ensureGuards (grm : GuardRelayManager) (now : ℤ) (run : SelectRun) :
    GuardRelayManager × Outcome (Except Bytes Unit) :=
  if grm.guards.length = 0 then grm.selectNewGuards now run else (grm, .returns (.ok ()))

def getGuardRelay (grm : GuardRelayManager) (now : ℤ) (run : GuardRun) :
    GuardRelayManager × Outcome (Except Bytes RelayMetadata) :=
  Outcome.andThen (grm.ensureGuards now run.initial) fun
    | grm, .error err =>
      (grm, .returns (.error (asciiBytes "failed to select guard relays: " ++ err)))
    | grm, .ok () =>
      Outcome.andThen (grm.rotate now run.rotation) fun grm _ =>
        grm.pickHealthy now run.replacement run.index

end GuardRelayManager

/-! ## What may be returned -/

structure GuardRun.Suffice (run : GuardRun) (available : List RelayMetadata) : Prop where
  initial : run.initial.Suffice available
  rotation : run.rotation.Suffice available
  replacement : run.replacement.Suffice available

namespace GuardRelayManager

/-- The guards are selected anew before one is returned. -/
def Renews (grm : GuardRelayManager) (now : ℤ) : Prop :=
  grm.available now ≠ [] ∧ (grm.rotationTime < now ∨ ∀ g ∈ grm.guards, g.healthy = false)

/-- The relay may be returned: it may be selected, or it is a healthy guard. -/
def MayGuard (grm : GuardRelayManager) (now : ℤ) (m : RelayMetadata) : Prop :=
  (grm.Renews now ∧ ∃ chosen, MaySelect now (grm.available now) chosen ∧ m ∈ chosen) ∨
    (¬ grm.Renews now ∧ ∃ g ∈ grm.guards, g.healthy = true ∧ g.metadata = m)

end GuardRelayManager

section

variable {now : ℤ} {grm : GuardRelayManager} {index i : ℕ} {g : GuardRelay} {places : List ℕ}
  {run : SelectRun} {m : RelayMetadata} {chosen : List RelayMetadata}

theorem mem_healthyGuards :
    i ∈ grm.healthyGuards ↔ ∃ g, grm.guards[i]? = some g ∧ g.healthy = true := by
  rw [healthyGuards, mem_filter, mem_range, Option.any_eq_true, and_iff_right_iff_imp]
  rintro ⟨g, hg, -⟩
  exact (List.getElem?_eq_some_iff.mp hg).1

theorem healthyGuards_eq_nil :
    grm.healthyGuards.length = 0 ↔ ∀ g ∈ grm.guards, g.healthy = false := by
  rw [length_eq_zero_iff, eq_nil_iff_forall_not_mem]
  simp only [mem_healthyGuards, not_exists, not_and, Bool.not_eq_true]
  constructor
  · intro h g hg
    obtain ⟨i, hi⟩ := mem_iff_getElem?.mp hg
    exact h i g hi
  · intro h i g hg
    exact h g (mem_of_getElem? hg)

theorem pickGuard_of_place (hplace : places[index % places.length]? = some i)
    (hg : grm.guards[i]? = some g) :
    grm.pickGuard now index places =
      ({ grm with guards := grm.guards.set i { g with lastUsed := now } },
        .returns (.ok g.metadata)) := by
  rw [pickGuard, hplace, bind_some, hg, map_some]

theorem pickGuard_returns (grm : GuardRelayManager) (now : ℤ) (index : ℕ) (hne : places ≠ [])
    (hplaces : ∀ i ∈ places, i < grm.guards.length) :
    ∃ i g guards, i ∈ places ∧ grm.guards[i]? = some g ∧
      grm.pickGuard now index places =
        ({ grm with guards := guards }, .returns (.ok g.metadata)) := by
  have hlt := Nat.mod_lt index (length_pos_iff.mpr hne)
  have hplace := getElem?_eq_getElem hlt
  have hg := getElem?_eq_getElem (hplaces _ (getElem_mem hlt))
  exact ⟨_, _, _, getElem_mem hlt, hg, pickGuard_of_place hplace hg⟩

theorem exists_pickGuard (grm : GuardRelayManager) (now : ℤ) (hi : i ∈ places)
    (hg : grm.guards[i]? = some g) :
    ∃ index guards, grm.pickGuard now index places =
      ({ grm with guards := guards }, .returns (.ok g.metadata)) := by
  obtain ⟨index, hindex⟩ := mem_iff_getElem?.mp hi
  have hlt := (List.getElem?_eq_some_iff.mp hindex).1
  refine ⟨index, _, pickGuard_of_place ?_ hg⟩
  rw [Nat.mod_eq_of_lt hlt]
  exact hindex

theorem freshGuard_healthy (now : ℤ) (m : RelayMetadata) : (freshGuard now m).healthy = true := rfl

theorem pickHealthy_cases (grm : GuardRelayManager) (hdraws : run.Suffice (grm.available now)) :
    (∃ grm', ∃ g ∈ grm.guards, g.healthy = true ∧
      grm.pickHealthy now run index = (grm', .returns (.ok g.metadata))) ∨
    ((∀ g ∈ grm.guards, g.healthy = false) ∧ grm.available now = [] ∧
      ∃ grm' error, grm.pickHealthy now run index = (grm', .returns (.error error))) ∨
    ((∀ g ∈ grm.guards, g.healthy = false) ∧ grm.available now ≠ [] ∧ ∃ grm' chosen m,
      MaySelect now (grm.available now) chosen ∧ m ∈ chosen ∧
        grm.pickHealthy now run index = (grm', .returns (.ok m))) := by
  rw [pickHealthy]
  split
  · next hnone =>
    rw [healthyGuards_eq_nil] at hnone
    right
    rcases selectNewGuards_cases grm hdraws with
      ⟨hempty, discovery, e, he⟩ | ⟨hsome, discovery, chosen, hchosen, hselect⟩
    · left
      rw [he]
      exact ⟨hnone, hempty, _, _, rfl⟩
    · right
      have hne : range (chosen.map (freshGuard now)).length ≠ [] := by
        rw [Ne, range_eq_nil, length_map]
        exact length_pos_iff.mpr (hchosen.ne_nil hsome) |>.ne'
      rw [hselect]
      obtain ⟨i, g, guards, -, hg, hpick⟩ :=
        pickGuard_returns ⟨discovery, chosen.map (freshGuard now), grm.rotationTime⟩ now index hne
          fun i hi => mem_range.mp hi
      obtain ⟨m, hm, rfl⟩ := mem_map.mp (mem_of_getElem? hg)
      exact ⟨hnone, hsome, _, chosen, m, hchosen, hm, hpick⟩
  · next hhealthy =>
    left
    have hne : grm.healthyGuards ≠ [] := fun h => hhealthy (length_eq_zero_iff.mpr h)
    have hlt : ∀ i ∈ grm.healthyGuards, i < grm.guards.length := by
      intro i hi
      obtain ⟨g, hg, -⟩ := mem_healthyGuards.mp hi
      exact (List.getElem?_eq_some_iff.mp hg).1
    obtain ⟨i, g, guards, hi, hg, hpick⟩ := pickGuard_returns grm now index hne hlt
    obtain ⟨g', hg', hhealthy⟩ := mem_healthyGuards.mp hi
    obtain rfl := some.inj (hg.symm.trans hg')
    exact ⟨_, g, mem_of_getElem? hg, hhealthy, hpick⟩

theorem rotate_cases (s : GuardRelayManager) (hdraws : run.Suffice (s.available now)) :
    (¬ (s.available now ≠ [] ∧ s.rotationTime < now) ∧ ∃ s', s.rotate now run = (s', .returns ()) ∧
      s'.available now = s.available now ∧ s'.guards = s.guards) ∨
    (s.available now ≠ [] ∧ s.rotationTime < now ∧ ∃ s' chosen,
      MaySelect now (s.available now) chosen ∧ s.rotate now run = (s', .returns ()) ∧
        s'.available now = s.available now ∧ s'.guards = chosen.map (freshGuard now)) := by
  rw [GuardRelayManager.rotate]
  split
  · next hdue =>
    have havailable : (s.selectNewGuards now run).1.available now = s.available now :=
      selectNewGuards_available le_rfl
    rcases selectNewGuards_cases s hdraws with
      ⟨hempty, discovery, e, he⟩ | ⟨hsome, discovery, chosen, hchosen, hselect⟩
    · rw [he] at havailable ⊢
      exact .inl ⟨fun h => h.1 hempty, _, rfl, havailable, rfl⟩
    · rw [hselect] at havailable ⊢
      exact .inr ⟨hsome, hdue, _, chosen, hchosen, rfl, havailable, rfl⟩
  · next hdue => exact .inl ⟨fun h => hdue h.2, s, rfl, rfl, rfl⟩

def Selected (grm : GuardRelayManager) (now : ℤ) (s : GuardRelayManager) : Prop :=
  grm.Renews now ∧ ∃ chosen, MaySelect now (grm.available now) chosen ∧
    s.guards = chosen.map (freshGuard now)

theorem ensureGuards_cases (hdraws : run.Suffice (grm.available now)) :
    (grm.available now = [] ∧ ∃ s error, grm.ensureGuards now run = (s, .returns (.error error))) ∨
    ∃ s, grm.ensureGuards now run = (s, .returns (.ok ())) ∧
      s.available now = grm.available now ∧ s.rotationTime = grm.rotationTime ∧
        (s.guards = grm.guards ∨ Selected grm now s) := by
  rw [ensureGuards]
  split
  · next hnone =>
    rw [length_eq_zero_iff] at hnone
    have havailable : (grm.selectNewGuards now run).1.available now = grm.available now :=
      selectNewGuards_available le_rfl
    rcases selectNewGuards_cases grm hdraws with
      ⟨hempty, discovery, e, he⟩ | ⟨hsome, discovery, chosen, hchosen, hselect⟩
    · exact .inl ⟨hempty, _, _, he⟩
    · have hrenews : grm.Renews now := ⟨hsome, .inr (by simp [hnone])⟩
      rw [hselect] at havailable ⊢
      exact .inr ⟨_, rfl, havailable, rfl, .inr ⟨hrenews, chosen, hchosen, rfl⟩⟩
  · exact .inr ⟨grm, rfl, rfl, rfl, .inl rfl⟩

variable {s : GuardRelayManager}

theorem rotate_prepared (hdraws : run.Suffice (grm.available now))
    (havailable : s.available now = grm.available now) (htime : s.rotationTime = grm.rotationTime)
    (hs : s.guards = grm.guards ∨ Selected grm now s) :
    ∃ s', s.rotate now run = (s', .returns ()) ∧ s'.available now = grm.available now ∧
      ((¬ (grm.available now ≠ [] ∧ grm.rotationTime < now) ∧ s'.guards = grm.guards) ∨
        Selected grm now s') := by
  rw [← havailable] at hdraws
  rcases rotate_cases s hdraws with
    ⟨hkeep, s', hrotate, havailable', hguards⟩ |
    ⟨hsome, hdue, s', chosen, hchosen, hrotate, havailable', hguards⟩
  · rw [havailable, htime] at hkeep
    refine ⟨s', hrotate, havailable'.trans havailable, ?_⟩
    rcases hs with hs | ⟨hrenews, chosen, hchosen, hs⟩
    · exact .inl ⟨hkeep, hguards.trans hs⟩
    · exact .inr ⟨hrenews, chosen, hchosen, hguards.trans hs⟩
  · rw [havailable] at hsome hchosen
    rw [htime] at hdue
    exact ⟨s', hrotate, havailable'.trans havailable,
      .inr ⟨⟨hsome, .inl hdue⟩, chosen, hchosen, hguards⟩⟩

theorem pickHealthy_prepared (hdraws : run.Suffice (grm.available now))
    (havailable : s.available now = grm.available now)
    (hs : (¬ (grm.available now ≠ [] ∧ grm.rotationTime < now) ∧ s.guards = grm.guards) ∨
      Selected grm now s) :
    (grm.available now = [] ∧ ∃ grm' error,
      s.pickHealthy now run index = (grm', .returns (.error error))) ∨
    ∃ grm' m, grm.MayGuard now m ∧ s.pickHealthy now run index = (grm', .returns (.ok m)) := by
  rw [← havailable] at hdraws
  rcases hs with ⟨hkeep, hguards⟩ | ⟨hrenews, chosen, hchosen, hguards⟩
  · rcases pickHealthy_cases s hdraws with
      ⟨grm', g, hg, hhealthy, hpick⟩ | ⟨hnone, hempty, grm', e, he⟩ |
      ⟨hnone, hsome, grm', chosen, m, hchosen, hm, hpick⟩
    · rw [hguards] at hg
      refine .inr ⟨grm', _, .inr ⟨?_, g, hg, hhealthy, rfl⟩, hpick⟩
      rintro ⟨hsome, hdue | hnone⟩
      · exact hkeep ⟨hsome, hdue⟩
      · exact Bool.noConfusion (hhealthy.symm.trans (hnone g hg))
    · exact .inl ⟨havailable ▸ hempty, grm', e, he⟩
    · rw [havailable] at hsome hchosen
      rw [hguards] at hnone
      exact .inr ⟨grm', m, .inl ⟨⟨hsome, .inr hnone⟩, chosen, hchosen, hm⟩, hpick⟩
  · have hfresh : ∀ g ∈ s.guards, ∃ m ∈ chosen, freshGuard now m = g := by
      rw [hguards]
      exact fun g hg => mem_map.mp hg
    rcases pickHealthy_cases s hdraws with
      ⟨grm', g, hg, -, hpick⟩ | ⟨hnone, -⟩ | ⟨hnone, -⟩
    · obtain ⟨m, hm, rfl⟩ := hfresh g hg
      exact .inr ⟨grm', m, .inl ⟨hrenews, chosen, hchosen, hm⟩, hpick⟩
    all_goals
      obtain ⟨m, hm⟩ := exists_mem_of_ne_nil _ (hchosen.ne_nil hrenews.1)
      have hmem : freshGuard now m ∈ s.guards := hguards ▸ mem_map_of_mem hm
      exact Bool.noConfusion ((freshGuard_healthy now m).symm.trans (hnone _ hmem))

variable {s s' : GuardRelayManager}

theorem getGuardRelay_eq (run : GuardRun)
    (hensure : grm.ensureGuards now run.initial = (s, .returns (.ok ())))
    (hrotate : s.rotate now run.rotation = (s', .returns ())) :
    grm.getGuardRelay now run = s'.pickHealthy now run.replacement run.index := by
  rw [getGuardRelay, hensure]
  simp only [andThen, hrotate]

/-- How `GetGuardRelay` ends. -/
theorem getGuardRelay_cases {run : GuardRun} (hdraws : run.Suffice (grm.available now)) :
    (grm.available now = [] ∧ ∃ grm' error,
      grm.getGuardRelay now run = (grm', .returns (.error error))) ∨
    ∃ grm' m, grm.MayGuard now m ∧ grm.getGuardRelay now run = (grm', .returns (.ok m)) := by
  rcases ensureGuards_cases hdraws.initial with
    ⟨hempty, s, e, he⟩ | ⟨s, hensure, hs, htime, hguards⟩
  · left
    rw [getGuardRelay, he]
    exact ⟨hempty, s, _, rfl⟩
  · obtain ⟨s', hrotate, hs', hguards'⟩ := rotate_prepared hdraws.rotation hs htime hguards
    rw [getGuardRelay_eq run hensure hrotate]
    exact pickHealthy_prepared hdraws.replacement hs' hguards'

theorem getGuardRelay_available {run : GuardRun} {t : ℤ} (ht : now ≤ t) :
    (grm.getGuardRelay now run).1.available t = grm.available t := by
  let Same (s : GuardRelayManager) : Prop := s.available t = grm.available t
  have hselect : ∀ s run, Same s → Same (s.selectNewGuards now run).1 :=
    fun s run hs => (selectNewGuards_available ht).trans hs
  have hpick : ∀ s places, Same s → Same (s.pickGuard now run.index places).1 := by
    intro s places hs
    rw [pickGuard]
    split <;> exact hs
  have hrotate : ∀ s run, Same s → Same (s.rotate now run).1 := by
    intro s run hs
    rw [GuardRelayManager.rotate]
    split
    · refine andThen_fst (hselect s run hs) fun s result hs => ?_
      cases result <;> exact hs
    · exact hs
  have hhealthy : ∀ s, Same s → Same (s.pickHealthy now run.replacement run.index).1 := by
    intro s hs
    rw [pickHealthy]
    split
    · refine andThen_fst (hselect s _ hs) fun s result hs => ?_
      cases result with
      | error e => exact hs
      | ok _ => exact hpick s _ hs
    · exact hpick s _ hs
  refine andThen_fst (P := Same) ?_ fun s result hs => ?_
  · rw [ensureGuards]
    split
    · exact hselect grm _ rfl
    · rfl
  · cases result with
    | error e => exact hs
    | ok _ => exact andThen_fst (hrotate s _ hs) fun s _ hs => hhealthy s hs

theorem exists_pickHealthy (grm : GuardRelayManager) (now : ℤ) (run : SelectRun)
    (hg : g ∈ grm.guards) (hhealthy : g.healthy = true) :
    ∃ index grm', grm.pickHealthy now run index = (grm', .returns (.ok g.metadata)) := by
  obtain ⟨i, hi⟩ := mem_iff_getElem?.mp hg
  obtain ⟨index, guards, hpick⟩ :=
    exists_pickGuard grm now (mem_healthyGuards.mpr ⟨g, hi, hhealthy⟩) hi
  have hsome : ¬ grm.healthyGuards.length = 0 := by
    rw [healthyGuards_eq_nil]
    exact fun hnone => Bool.noConfusion (hhealthy.symm.trans (hnone g hg))
  refine ⟨index, { grm with guards := guards }, ?_⟩
  rw [pickHealthy, if_neg hsome, hpick]

theorem exists_pickHealthy_selected (hnone : ∀ g ∈ grm.guards, g.healthy = false)
    (hsome : grm.available now ≠ []) (hchosen : MaySelect now (grm.available now) chosen)
    (hm : m ∈ chosen) :
    ∃ (run : SelectRun) (index : ℕ) (grm' : GuardRelayManager),
      run.Suffice (grm.available now) ∧
        grm.pickHealthy now run index = (grm', .returns (.ok m)) := by
  obtain ⟨run, discovery, hdraws, hselect⟩ := hchosen.exists_run grm hsome
  obtain ⟨i, hi⟩ := mem_iff_getElem?.mp (mem_map_of_mem hm)
  have hplace : i ∈ range (chosen.map (freshGuard now)).length :=
    mem_range.mpr (List.getElem?_eq_some_iff.mp hi).1
  obtain ⟨index, guards, hpick⟩ := exists_pickGuard
    ⟨discovery, chosen.map (freshGuard now), grm.rotationTime⟩ now hplace hi
  refine ⟨run, index, ⟨discovery, guards, grm.rotationTime⟩, hdraws, ?_⟩
  rw [pickHealthy, if_pos (healthyGuards_eq_nil.mpr hnone), hselect]
  exact hpick

theorem ensureGuards_of_ne (hne : grm.guards ≠ []) :
    grm.ensureGuards now run = (grm, .returns (.ok ())) :=
  if_neg fun h => hne (length_eq_zero_iff.mp h)

/-- The choices of a selection whose result does not matter. -/
def anySelection (available : List RelayMetadata) : SelectRun :=
  ⟨⟨.keep _, range available.length⟩, .keep _⟩

theorem anySelection_suffice (available : List RelayMetadata) :
    (anySelection available).Suffice available := RelayDiscovery.suffice_range _ _ _

/-- Every healthy guard may be returned. -/
theorem exists_getGuardRelay {initial rotation : SelectRun}
    (hinitial : initial.Suffice (grm.available now))
    (hrotation : rotation.Suffice (grm.available now))
    (hensure : grm.ensureGuards now initial = (s, .returns (.ok ())))
    (hrotate : s.rotate now rotation = (s', .returns ())) (hg : g ∈ s'.guards)
    (hhealthy : g.healthy = true) :
    ∃ (run : GuardRun) (grm' : GuardRelayManager), run.Suffice (grm.available now) ∧
      grm.getGuardRelay now run = (grm', .returns (.ok g.metadata)) := by
  let replacement := anySelection (grm.available now)
  obtain ⟨index, grm', hpick⟩ := exists_pickHealthy s' now replacement hg hhealthy
  refine ⟨⟨initial, rotation, replacement, index⟩, grm',
    ⟨hinitial, hrotation, anySelection_suffice _⟩, ?_⟩
  rw [getGuardRelay_eq _ hensure hrotate]
  exact hpick

/-- Random choices may bring every guard that may be returned. -/
theorem GuardRelayManager.MayGuard.exists_run (h : grm.MayGuard now m) :
    ∃ (run : GuardRun) (grm' : GuardRelayManager), run.Suffice (grm.available now) ∧
      grm.getGuardRelay now run = (grm', .returns (.ok m)) := by
  let other := anySelection (grm.available now)
  have hother : other.Suffice (grm.available now) := anySelection_suffice _
  rcases h with ⟨⟨hsome, hrenews⟩, chosen, hchosen, hm⟩ | ⟨hkeep, g, hg, hhealthy, rfl⟩
  · have hfresh : freshGuard now m ∈ chosen.map (freshGuard now) := mem_map_of_mem hm
    by_cases hdue : grm.rotationTime < now
    · -- The rotation selects the guard.
      rcases ensureGuards_cases hother with ⟨hempty, -⟩ | ⟨s, hensure, havailable, htime, -⟩
      · exact absurd hempty hsome
      rw [← havailable] at hchosen hsome
      obtain ⟨rotation, discovery, hdraws, hselect⟩ := hchosen.exists_run s hsome
      rw [havailable] at hdraws
      have hrotate : s.rotate now rotation =
          (⟨discovery, chosen.map (freshGuard now), now + guardRotationPeriod⟩, .returns ()) := by
        rw [rotate, if_pos (htime ▸ hdue), hselect]
        rfl
      exact exists_getGuardRelay hother hdraws hensure hrotate hfresh (freshGuard_healthy now m)
    · have hnone := hrenews.resolve_left hdue
      rcases eq_or_ne grm.guards [] with hempty | hne
      · obtain ⟨initial, discovery, hdraws, hselect⟩ := hchosen.exists_run grm hsome
        have hensure : grm.ensureGuards now initial = _ :=
          (if_pos (length_eq_zero_iff.mpr hempty)).trans hselect
        exact exists_getGuardRelay hdraws hother hensure (if_neg hdue) hfresh
          (freshGuard_healthy now m)
      · obtain ⟨replacement, index, grm', hdraws, hpick⟩ :=
          exists_pickHealthy_selected hnone hsome hchosen hm
        refine ⟨⟨other, other, replacement, index⟩, grm', ⟨hother, hother, hdraws⟩, ?_⟩
        rw [getGuardRelay_eq _ (ensureGuards_of_ne hne) (if_neg hdue)]
        exact hpick
  · have hensure : grm.ensureGuards now other = (grm, .returns (.ok ())) :=
      ensureGuards_of_ne (ne_nil_of_mem hg)
    rcases rotate_cases grm hother with ⟨-, s', hrotate, -, hguards⟩ | ⟨hsome, hdue, -⟩
    · exact exists_getGuardRelay hother hother hensure hrotate (hguards ▸ hg) hhealthy
    · exact absurd ⟨hsome, .inl hdue⟩ hkeep

end

end Zentalk
