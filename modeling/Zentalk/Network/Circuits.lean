import Mathlib.Data.List.Sort
import Zentalk.Lib.Decimal
import Zentalk.Network.Discovery
import Zentalk.Relay.Routing

/-!
# Selecting a circuit

`SelectOptimalCircuit` goes once through the relays by score (`circuit_exact_iff`).
-/

namespace Zentalk

open Wire Sampling Decimal List Function RelayDiscovery

/-! ## The code -/

/-- What the loop over the scored relays keeps. -/
structure Diversity where
  selected : List RelayMetadata := []
  usedOperators : Bytes → Bool := fun _ => false
  usedRegions : Bytes → Bool := fun _ => false

/-- One relay of the loop, which leaves a full selection as it is. -/
def choose (hopCount : ℤ) (st : Diversity) (m : RelayMetadata) : Diversity :=
  if hopCount ≤ st.selected.length then st
  else if st.selected.length < hopCount - 1 ∧ st.usedOperators m.operator ∧
      st.usedRegions m.region then st
  else
    { selected := st.selected ++ [m]
      usedOperators := update st.usedOperators m.operator true
      usedRegions := update st.usedRegions m.region true }

/-- What `SelectOptimalCircuit` gets from outside: the choices of `DiscoverRelays`, and the order in
which `sort.Slice` leaves the relays. It may exchange relays of one score. -/
structure CircuitRun (score : RelayMetadata → ℚ) where
  choices : Choices
  ranking : Reordering RelayMetadata
  sorted : ∀ l, (ranking.order l).Pairwise fun a b => score b ≤ score a

section

variable {S : OnionSuite} (importPublicKeyPEM : Bytes → Except Bytes S.PublicKey)

/-- The relay as a hop, if its key can be parsed. -/
def relayInfo (m : RelayMetadata) : Except Bytes (RelayInfo S) :=
  (importPublicKeyPEM m.publicKeyPEM).map fun key => ⟨m.address, key⟩

/-- The conversion of the selected relays into hops. -/
def circuitOf (selected : List RelayMetadata) : Except Bytes (List (RelayInfo S)) :=
  selected.mapM fun m =>
    (relayInfo importPublicKeyPEM m).mapError (asciiBytes "failed to parse relay public key: " ++ ·)

/-- `SelectOptimalCircuit`. The scores are an argument, whatever `CalculateScore` is. -/
def RelayDiscovery.selectOptimalCircuit (rd : RelayDiscovery) (now : ℤ)
    {score : RelayMetadata → ℚ} (run : CircuitRun score) (hopCount : Int64) :
    RelayDiscovery × Outcome (Except Bytes (List (RelayInfo S))) :=
  if hopCount < 1 then (rd, .returns (.error (asciiBytes "hop count must be at least 1")))
  else
    let (rd', discovered) := rd.discoverRelays now run.choices (hopCount * 3).toInt
    (rd', discovered.bind fun
      | .error err => .returns (.error err)
      | .ok relays =>
        if relays.length < hopCount.toInt then
          .returns (.error (asciiBytes "not enough relays available: need " ++
            decimal hopCount.toInt ++ asciiBytes ", have " ++ decimal relays.length))
        else
          let chosen := (run.ranking.order relays).foldl (choose hopCount.toInt) {}
          .returns (circuitOf importPublicKeyPEM chosen.selected))

end

/-! ## The selection -/

/-- The relays with an operator or a region that does not occur before. -/
def newcomers (seen : List RelayMetadata) : List RelayMetadata → List RelayMetadata
  | [] => []
  | m :: l =>
    if (∃ s ∈ seen, s.operator = m.operator) ∧ ∃ s ∈ seen, s.region = m.region then
      newcomers (seen ++ [m]) l
    else m :: newcomers (seen ++ [m]) l

section

theorem newcomers_snoc (seen l : List RelayMetadata) (m : RelayMetadata) :
    newcomers seen (l ++ [m]) = newcomers seen l ++
      if (∃ s ∈ seen ++ l, s.operator = m.operator) ∧ ∃ s ∈ seen ++ l, s.region = m.region then []
      else [m] := by
  induction l generalizing seen with
  | nil => simp [newcomers]
  | cons a l ih =>
    rw [cons_append, newcomers, newcomers, ih, append_assoc, singleton_append]
    split
    · rfl
    · rw [cons_append]

theorem choose_sublist (hopCount : ℤ) (l : List RelayMetadata) :
    (l.foldl (choose hopCount) {}).selected.Sublist l := by
  induction l using List.reverseRecOn with
  | nil => exact .refl _
  | append_singleton l m ih =>
    rw [foldl_concat, choose]
    split
    · exact ih.trans (sublist_append_left _ _)
    · split
      · exact ih.trans (sublist_append_left _ _)
      · exact ih.append (.refl _)

/-- The selection is not full yet: it is all the newcomers. -/
structure Passing (hopCount : ℤ) (l : List RelayMetadata) (st : Diversity) : Prop where
  selected : st.selected = newcomers [] l
  operators : ∀ o, st.usedOperators o = true ↔ ∃ s ∈ l, s.operator = o
  regions : ∀ r, st.usedRegions r = true ↔ ∃ s ∈ l, s.region = r
  missing : st.selected.length < hopCount
  few : l ≠ [] → (newcomers [] l.dropLast).length < hopCount - 1

/-- The selection is full, as there was a relay left for the last hop. -/
structure Full (hopCount : ℤ) (l : List RelayMetadata) (st : Diversity) : Prop where
  length_eq : st.selected.length = hopCount
  enough : hopCount - 1 ≤ (newcomers [] l.dropLast).length

variable {hopCount : ℤ} {l : List RelayMetadata} {m : RelayMetadata} {st : Diversity}

theorem exists_mem_snoc {p : RelayMetadata → Prop} :
    (∃ s ∈ l ++ [m], p s) ↔ (∃ s ∈ l, p s) ∨ p m := by
  simp only [mem_append, mem_singleton, or_and_right, exists_or, exists_eq_left]

theorem update_true_iff {used : Bytes → Bool} {a b : Bytes} :
    update used a true b = true ↔ used b = true ∨ a = b := by
  rw [update_apply]
  split
  · next hb => exact iff_of_true rfl (.inr hb.symm)
  · next hb => exact ⟨.inl, fun h => h.resolve_right fun h => hb h.symm⟩

theorem Full.step (h : Full hopCount l st) : Full hopCount (l ++ [m]) (choose hopCount st m) := by
  rw [choose, if_pos h.length_eq.ge]
  refine ⟨h.length_eq, h.enough.trans ?_⟩
  rw [dropLast_concat]
  rcases l.eq_nil_or_concat with rfl | ⟨l', a, rfl⟩
  · exact le_rfl
  · rw [concat_eq_append, dropLast_concat, newcomers_snoc, length_append]
    omega

theorem Passing.step (h : Passing hopCount l st) :
    Passing hopCount (l ++ [m]) (choose hopCount st m) ∨
      Full hopCount (l ++ [m]) (choose hopCount st m) := by
  have hmissing := h.missing
  have hsnoc := newcomers_snoc [] l m
  rw [nil_append, ← h.selected] at hsnoc
  rw [choose, if_neg (by omega)]
  rcases Int.lt_or_le st.selected.length (hopCount - 1) with hfew | hlast
  · have hfew' : l ++ [m] ≠ [] →
        (newcomers [] (l ++ [m]).dropLast).length < hopCount - 1 := by
      rw [dropLast_concat, ← h.selected]
      exact fun _ => hfew
    left
    split
    · next hskip =>
      obtain ⟨-, hoperator, hregion⟩ := hskip
      rw [h.operators] at hoperator
      rw [h.regions] at hregion
      rw [if_pos ⟨hoperator, hregion⟩, append_nil] at hsnoc
      refine ⟨hsnoc.symm, fun o => ?_, fun r => ?_, hmissing, hfew'⟩
      · rw [h.operators, exists_mem_snoc]
        exact ⟨.inl, fun ho => ho.elim id fun ho => ho ▸ hoperator⟩
      · rw [h.regions, exists_mem_snoc]
        exact ⟨.inl, fun hr => hr.elim id fun hr => hr ▸ hregion⟩
    · next htake =>
      have hnew : ¬ ((∃ s ∈ l, s.operator = m.operator) ∧ ∃ s ∈ l, s.region = m.region) := by
        rw [← h.operators, ← h.regions]
        exact fun hused => htake ⟨hfew, hused⟩
      rw [if_neg hnew] at hsnoc
      refine ⟨hsnoc.symm, fun o => ?_, fun r => ?_, ?_, hfew'⟩
      · rw [update_true_iff, h.operators, exists_mem_snoc]
      · rw [update_true_iff, h.regions, exists_mem_snoc]
      · rw [length_append, length_singleton]
        omega
  · right
    rw [if_neg (by omega)]
    refine ⟨?_, ?_⟩
    · rw [length_append, length_singleton]
      omega
    · rw [dropLast_concat, ← h.selected]
      exact hlast

theorem choose_cases (hhop : 1 ≤ hopCount) (l : List RelayMetadata) :
    Passing hopCount l (l.foldl (choose hopCount) {}) ∨
      Full hopCount l (l.foldl (choose hopCount) {}) := by
  induction l using List.reverseRecOn with
  | nil =>
    have hpos : 0 < hopCount := by omega
    exact .inl ⟨rfl, by simp, by simp, by simpa using hpos, fun h => absurd rfl h⟩
  | append_singleton l m ih =>
    rw [foldl_concat]
    rcases ih with hpassing | hfull
    · exact hpassing.step
    · exact .inr hfull.step

end

/-! ## The circuit -/

section

variable {S : OnionSuite} (importPublicKeyPEM : Bytes → Except Bytes S.PublicKey)

theorem circuitOf_cons (m : RelayMetadata) (l : List RelayMetadata) :
    circuitOf importPublicKeyPEM (m :: l) =
      match importPublicKeyPEM m.publicKeyPEM with
      | .error e => .error (asciiBytes "failed to parse relay public key: " ++ e)
      | .ok key => (circuitOf importPublicKeyPEM l).map (⟨m.address, key⟩ :: ·) := by
  rw [circuitOf, mapM_cons, relayInfo]
  cases importPublicKeyPEM m.publicKeyPEM with
  | error e => rfl
  | ok key =>
    change (circuitOf importPublicKeyPEM l >>= _) = _
    cases circuitOf importPublicKeyPEM l <;> rfl

variable {importPublicKeyPEM}

variable {selected : List RelayMetadata} {circuit : List (RelayInfo S)}

theorem circuitOf_ok (h : circuitOf importPublicKeyPEM selected = .ok circuit) :
    circuit.map RelayInfo.address = selected.map RelayMetadata.address := by
  induction selected generalizing circuit with
  | nil =>
    obtain rfl := Except.ok.inj h
    rfl
  | cons m l ih =>
    rw [circuitOf_cons] at h
    split at h
    · cases h
    · cases hl : circuitOf importPublicKeyPEM l with
      | error e => rw [hl] at h; cases h
      | ok hops =>
        rw [hl] at h
        obtain rfl := Except.ok.inj h
        rw [map_cons, map_cons, ih hl]

theorem circuitOf_error_iff :
    (∃ e, circuitOf importPublicKeyPEM selected = .error e) ↔
      ∃ m ∈ selected, ∃ e, importPublicKeyPEM m.publicKeyPEM = .error e := by
  induction selected with
  | nil =>
    refine iff_of_false ?_ (by simp)
    rintro ⟨e, h⟩
    cases h
  | cons m l ih =>
    rw [circuitOf_cons, exists_mem_cons_iff, ← ih]
    split
    · next e hkey => exact iff_of_true ⟨_, rfl⟩ (.inl ⟨e, hkey⟩)
    · next key hkey =>
      cases circuitOf importPublicKeyPEM l <;> simp [Except.map, hkey]

/-- An error, or a circuit with the hops that were asked for, at different relays that are known,
healthy and not blacklisted. -/
def ErrorOrCircuit (rd : RelayDiscovery) (now hopCount : ℤ) :
    Outcome (Except Bytes (List (RelayInfo S))) → Prop
  | .returns (.error _) => True
  | .returns (.ok circuit) =>
    circuit.length = hopCount ∧ (circuit.map RelayInfo.address).Nodup ∧
      ∀ hop ∈ circuit, ∃ m ∈ rd.known, m.address = hop.address ∧ m.isHealthy now hour = true ∧
        rd.blacklist.lists now m.address = false
  | .panics => False
  | .draws => False

/-- In this order the relays leave one for the last hop after newcomers for all the others; or a key
cannot be parsed. -/
def Fills (importPublicKeyPEM : Bytes → Except Bytes S.PublicKey) (hopCount : ℤ)
    (ranked : List RelayMetadata) : Prop :=
  hopCount - 1 ≤ (newcomers [] ranked.dropLast).length ∨
    ∃ m ∈ newcomers [] ranked, ∃ e, importPublicKeyPEM m.publicKeyPEM = .error e

variable {rd : RelayDiscovery} {now count hopCount : ℤ} {ranked : List RelayMetadata}

theorem length_of_circuitOf_ok (h : circuitOf importPublicKeyPEM selected = .ok circuit) :
    circuit.length = selected.length := by
  have hlength := congrArg List.length (circuitOf_ok h)
  rwa [length_map, length_map] at hlength

theorem ErrorOrCircuit.of_length_eq (hoffers : rd.Offers now count ranked)
    (hsub : selected.Sublist ranked) (hlength : selected.length = hopCount) :
    ErrorOrCircuit rd now hopCount (.returns (circuitOf importPublicKeyPEM selected)) := by
  cases hc : circuitOf importPublicKeyPEM selected with
  | error e => trivial
  | ok circuit =>
    have haddresses := circuitOf_ok hc
    refine ⟨?_, ?_, fun hop hhop => ?_⟩
    · rw [length_of_circuitOf_ok hc]
      exact hlength
    · rw [haddresses]
      exact hoffers.nodup.sublist (hsub.map _)
    · have hmem := mem_map_of_mem (f := RelayInfo.address) hhop
      rw [haddresses] at hmem
      obtain ⟨m, hm, haddress⟩ := mem_map.mp hmem
      obtain ⟨hknown, husable⟩ := mem_available (hoffers.mem (hsub.subset hm))
      rw [usable, Bool.and_eq_true, Bool.not_eq_true'] at husable
      exact ⟨m, hknown, haddress, husable⟩

theorem errorOrCircuit_short_iff (hmissing : selected.length < hopCount) :
    ErrorOrCircuit rd now hopCount (.returns (circuitOf importPublicKeyPEM selected)) ↔
      ∃ e, circuitOf importPublicKeyPEM selected = .error e := by
  cases hc : circuitOf importPublicKeyPEM selected with
  | error e => exact iff_of_true trivial ⟨e, rfl⟩
  | ok circuit =>
    have hlength := length_of_circuitOf_ok hc
    refine iff_of_false (fun h => ?_) ?_
    · have heq := h.1
      omega
    · rintro ⟨e, h⟩
      cases h

theorem errorOrCircuit_iff (hhop : 1 ≤ hopCount) (hoffers : rd.Offers now count ranked)
    (hlen : hopCount ≤ ranked.length) :
    ErrorOrCircuit rd now hopCount (.returns
      (circuitOf importPublicKeyPEM (ranked.foldl (choose hopCount) {}).selected)) ↔
      Fills importPublicKeyPEM hopCount ranked := by
  have hne : ranked ≠ [] := by
    rintro rfl
    rw [length_nil] at hlen
    omega
  rcases choose_cases hhop ranked with hpassing | hfull
  · have hfew := hpassing.few hne
    rw [errorOrCircuit_short_iff hpassing.missing, hpassing.selected, circuitOf_error_iff, Fills,
      or_iff_right (Int.not_le.mpr hfew)]
  · exact iff_of_true (.of_length_eq hoffers (choose_sublist hopCount ranked) hfull.length_eq)
      (.inl hfull.enough)

variable {score : RelayMetadata → ℚ}

theorem selectOptimalCircuit_snd (run : CircuitRun score) {hopCount : Int64} (hhop : 1 ≤ hopCount)
    {relays : List RelayMetadata}
    (hrelays : (rd.discoverRelays now run.choices (hopCount * 3).toInt).2 = .returns (.ok relays)) :
    (rd.selectOptimalCircuit importPublicKeyPEM now run hopCount).2 =
      if relays.length < hopCount.toInt then
        .returns (.error (asciiBytes "not enough relays available: need " ++
          decimal hopCount.toInt ++ asciiBytes ", have " ++ decimal relays.length))
      else
        .returns (circuitOf importPublicKeyPEM
          ((run.ranking.order relays).foldl (choose hopCount.toInt) {}).selected) := by
  rw [selectOptimalCircuit, if_neg (Int64.not_lt.mpr hhop)]
  simp only [hrelays, Outcome.bind]

theorem selectOptimalCircuit_panics (run : CircuitRun score) {hopCount : Int64}
    (hhop : 1 ≤ hopCount) (hsome : rd.available now ≠ []) (hneg : (hopCount * 3).toInt < 0) :
    (rd.selectOptimalCircuit importPublicKeyPEM now run hopCount).2 = .panics := by
  have hdraws : run.choices.Suffice (rd.available now) (hopCount * 3).toInt := fun _ => by omega
  rcases discoverRelays_cases hdraws with
    ⟨hnone, -⟩ | ⟨-, -, hpanics⟩ | ⟨relays, hoffers, -⟩
  · exact absurd hnone hsome
  · rw [selectOptimalCircuit, if_neg (Int64.not_lt.mpr hhop)]
    simp only [hpanics, Outcome.bind]
  · exact absurd hoffers.nonneg (Int.not_le.mpr hneg)

/-- The order in which a stable sort leaves the relays. -/
def stableRanking (score : RelayMetadata → ℚ) : Reordering RelayMetadata where
  order := List.insertionSort fun a b => score b ≤ score a
  perm := perm_insertionSort _

/-- The circuit has the hops that were asked for just when no relay may be discovered, or three
times the hops is not negative and every large enough offer fills the hops. -/
theorem circuit_exact_iff (importPublicKeyPEM : Bytes → Except Bytes S.PublicKey)
    (score : RelayMetadata → ℚ) (rd : RelayDiscovery) (now : ℤ) {hopCount : Int64}
    (hhop : 1 ≤ hopCount) :
    (∀ run : CircuitRun score, run.choices.Suffice (rd.available now) (hopCount * 3).toInt →
      ErrorOrCircuit rd now hopCount.toInt
        (rd.selectOptimalCircuit importPublicKeyPEM now run hopCount).2) ↔
      rd.available now = [] ∨ 0 ≤ (hopCount * 3).toInt ∧
        ∀ ranked, rd.Offers now (hopCount * 3).toInt ranked →
          ranked.Pairwise (fun a b => score b ≤ score a) → hopCount.toInt ≤ ranked.length →
            Fills importPublicKeyPEM hopCount.toInt ranked := by
  have hhop' : 1 ≤ hopCount.toInt := Int64.le_iff_toInt_le.mp hhop
  have hsorted : ∀ l, ((stableRanking score).order l).Pairwise fun a b => score b ≤ score a :=
    pairwise_insertionSort _
  constructor
  · intro h
    rcases eq_or_ne (rd.available now) [] with hnone | hsome
    · exact .inl hnone
    refine .inr ⟨?_, fun ranked hoffers hranked hlen => ?_⟩
    · by_contra hneg
      have hrun := h ⟨⟨.keep _, []⟩, stableRanking score, hsorted⟩ fun _ => by omega
      rw [selectOptimalCircuit_panics _ hhop hsome (Int.not_le.mp hneg)] at hrun
      exact hrun
    · obtain ⟨choices, hdraws, hreturns⟩ := hoffers.exists_run
      have hrun := h ⟨choices, stableRanking score, hsorted⟩ (hdraws _)
      rw [selectOptimalCircuit_snd _ hhop hreturns, if_neg (Int.not_lt.mpr hlen)] at hrun
      have hstable : (stableRanking score).order ranked = ranked := hranked.insertionSort_eq
      rw [hstable] at hrun
      exact (errorOrCircuit_iff hhop' hoffers hlen).mp hrun
  · intro h run hdraws
    rcases discoverRelays_cases hdraws with
      ⟨-, error, herror⟩ | ⟨hsome, hneg, -⟩ | ⟨relays, hoffers, hrelays⟩
    · rw [selectOptimalCircuit, if_neg (Int64.not_lt.mpr hhop)]
      simp only [herror, Outcome.bind, ErrorOrCircuit]
    · rcases h with hnone | ⟨hnonneg, -⟩
      · exact absurd hnone hsome
      · omega
    · rw [selectOptimalCircuit_snd run hhop hrelays]
      split
      · trivial
      · next hlen =>
        rcases h with hnone | ⟨-, hfills⟩
        · exact absurd hnone hoffers.available_ne
        have hperm := run.ranking.perm relays
        have hranked := hoffers.of_perm hperm
        have hlen' : hopCount.toInt ≤ (run.ranking.order relays).length := by
          rw [hperm.length_eq]
          omega
        exact (errorOrCircuit_iff hhop' hranked hlen').mpr
          (hfills _ hranked (run.sorted relays) hlen')

end

/-! ## Relays of different operators, and of one -/

theorem newcomers_eq_self {seen l : List RelayMetadata}
    (h : ((seen ++ l).map RelayMetadata.operator).Nodup) : newcomers seen l = l := by
  induction l generalizing seen with
  | nil => rfl
  | cons m l ih =>
    have hnew : ¬ ∃ s ∈ seen, s.operator = m.operator := by
      rw [map_append, nodup_append] at h
      rintro ⟨s, hs, hoperator⟩
      exact h.2.2 _ (mem_map_of_mem hs) _ mem_cons_self hoperator
    rw [newcomers, if_neg (fun hused => hnew hused.1), ih]
    rwa [append_assoc]

/-- Relays of different operators always fill the hops. -/
theorem fills_of_operators {S : OnionSuite} (importPublicKeyPEM : Bytes → Except Bytes S.PublicKey)
    {rd : RelayDiscovery} {now count hopCount : ℤ} {ranked : List RelayMetadata}
    (hoperators : ((rd.available now).map RelayMetadata.operator).Nodup)
    (hoffers : rd.Offers now count ranked) (hlen : hopCount ≤ ranked.length) :
    Fills importPublicKeyPEM hopCount ranked := by
  have hnodup := nodup_map_of_subperm hoffers.subperm hoperators
  have hfront := hnodup.sublist (ranked.dropLast_sublist.map _)
  left
  rw [newcomers_eq_self (by simpa using hfront), length_dropLast]
  omega

def headKey : Bytes → Except Bytes tagSuite.PublicKey
  | [] => .error (asciiBytes "invalid key")
  | key :: _ => .ok key

/-- Three relays of three operators give circuits of three hops. -/
theorem circuit_exact_operators :
    (1 : Int64) ≤ 3 ∧ ∀ run : CircuitRun (RelayMetadata.calculateScore · 0),
      run.choices.Suffice ((threeRelays 0 1 2).available 0) 9 →
        ErrorOrCircuit (threeRelays 0 1 2) 0 3
          ((threeRelays 0 1 2).selectOptimalCircuit headKey 0 run 3).2 := by
  have hhop : (1 : Int64) ≤ 3 := by decide
  refine ⟨hhop, (circuit_exact_iff headKey _ (threeRelays 0 1 2) 0 hhop).mpr
    (.inr ⟨by decide, fun ranked hoffers _ hlen => fills_of_operators _ ?_ hoffers hlen⟩)⟩
  decide

theorem threeRelays_sorted (a b c : UInt8) :
    [seenRelay 1 a, seenRelay 2 b, seenRelay 3 c].Pairwise fun m m' =>
      m'.calculateScore 0 ≤ m.calculateScore 0 := by
  have hscore : ∀ n o, (seenRelay n o).calculateScore 0 = (seenRelay 0 0).calculateScore 0 :=
    fun _ _ => rfl
  simp [hscore]

/-- Three relays of one operator give one hop of three. Three times a large number of hops is
negative, and the call panics. -/
theorem circuit_short :
    (∃ run : CircuitRun (RelayMetadata.calculateScore · 0),
      run.choices.Suffice ((threeRelays 0 0 0).available 0) 9 ∧
        ((threeRelays 0 0 0).selectOptimalCircuit headKey 0 run 3).2 =
          .returns (.ok [⟨(seenRelay 1 0).address, (1 : UInt8)⟩])) ∧
    ∃ run : CircuitRun (RelayMetadata.calculateScore · 0),
      ((threeRelays 0 0 0).selectOptimalCircuit headKey 0 run 4000000000000000000).2 = .panics := by
  have hranking := pairwise_insertionSort fun a b : RelayMetadata =>
    b.calculateScore 0 ≤ a.calculateScore 0
  have hoffers : (threeRelays 0 0 0).Offers 0 9 [seenRelay 1 0, seenRelay 2 0, seenRelay 3 0] := by
    refine ⟨by decide, ?_, ?_, ?_⟩ <;> rw [threeRelays_available]
    · exact cons_ne_nil _ _
    · exact .refl _
  have hhop : (1 : Int64) ≤ 3 := by decide
  have hstable : (stableRanking (RelayMetadata.calculateScore · 0)).order
      [seenRelay 1 0, seenRelay 2 0, seenRelay 3 0] = _ :=
    (threeRelays_sorted 0 0 0).insertionSort_eq
  obtain ⟨choices, hdraws, hrelays⟩ := hoffers.exists_run
  refine ⟨⟨⟨choices, stableRanking _, hranking⟩, hdraws _, ?_⟩,
    ⟨⟨.keep _, []⟩, stableRanking _, hranking⟩, ?_⟩
  · rw [selectOptimalCircuit_snd _ hhop hrelays, if_neg (by decide), hstable]
    rfl
  · refine selectOptimalCircuit_panics _ (by decide) ?_ (by decide)
    exact cons_ne_nil _ _

end Zentalk
