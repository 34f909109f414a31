import Zentalk.Dht.Storage

/-!
# When entries and values expire

Both times are cut to 64 bits. `expiry_exact_iff`: they are kept to just when nothing overflows.
-/

namespace Zentalk.Dht

open Wire Runs Function Storage

/-! ## Entries -/

def FitsInt64 (x : ℤ) : Prop := -2 ^ 63 ≤ x ∧ x < 2 ^ 63

instance (x : ℤ) : Decidable (FitsInt64 x) := inferInstanceAs (Decidable (_ ∧ _))

theorem fits_toInt (v : Int64) : FitsInt64 v.toInt := ⟨v.le_toInt, v.toInt_lt⟩

theorem bmod_eq_iff (x : ℤ) : x.bmod (2 ^ 64) = x ↔ FitsInt64 x := by
  unfold FitsInt64
  rw [Int.bmod_def]
  omega

theorem toInt_ofInt {x : ℤ} (h : FitsInt64 x) : (Int64.ofInt x).toInt = x := by
  rw [Int64.toInt_ofInt]
  exact (bmod_eq_iff x).mpr h

/-- `IsExpired` is right at all times just when the sum fits into 64 bits. -/
theorem isExpired_iff (e : SignedEntry) :
    (∀ now, e.isExpired now = true ↔ e.timestamp.toInt + e.ttl.toInt < now.toInt) ↔
      FitsInt64 (e.timestamp.toInt + e.ttl.toInt) := by
  have hexpired now : e.isExpired now = true ↔
      (e.timestamp.toInt + e.ttl.toInt).bmod (2 ^ 64) < now.toInt := by
    rw [SignedEntry.isExpired, decide_eq_true_eq, Int64.lt_iff_toInt_lt, Int64.toInt_add]
  simp only [hexpired]
  refine ⟨fun h => ?_, fun h now => by rw [(bmod_eq_iff _).mpr h]⟩
  -- the last and the first time that there are tell the sum from the one that is cut
  have hlast := h (Int64.ofInt (2 ^ 63 - 1))
  have hfirst := h (Int64.ofInt (-2 ^ 63))
  rw [toInt_ofInt (by decide)] at hlast hfirst
  obtain ⟨hts, hts'⟩ := fits_toInt e.timestamp
  obtain ⟨httl, httl'⟩ := fits_toInt e.ttl
  rw [Int.bmod_def] at hlast hfirst
  constructor
  · omega
  · omega

/-! ## Stored values -/

/-- Up to the time `later` the entry under the key is neither replaced nor deleted. -/
def NodeEvent.spares (S : EntrySuite) (key : NodeID) (later : ℤ) (ev : NodeEvent) : Prop :=
  (∀ k e, ev.accepted S = some (k, e) → k ≠ key) ∧ ev ≠ .deleted key ∧
    ∀ now, ev = .expired now → now ≤ later

section

variable {S : EntrySuite} {s s' : Storage} {key : NodeID} {later : ℤ} {stored : StoredValue}

/-- The value is there, or it has expired and was removed for that. -/
def Lasts (s : Storage) (key : NodeID) (later : ℤ) (stored : StoredValue) : Prop :=
  s.data key = some stored ∨ s.data key = none ∧ stored.expiresAt < later

theorem Lasts.step {ev : NodeEvent} (hlasts : Lasts s key later stored) (h : NodeStep S s ev s')
    (hspares : ev.spares S key later) : Lasts s' key later stored := by
  obtain ⟨hstore, hdelete, hexpire⟩ := hspares
  cases h with
  | stored h =>
    rcases handleStore_cases h with ⟨k, e, _, haccepted, -, -, hdata⟩ | ⟨-, rfl⟩
    · rw [Lasts, hdata, update_of_ne (hstore k e haccepted).symm]
      exact hlasts
    · exact hlasts
  | expired now =>
    have hdata : (s.expireOldValues now).data key =
        (s.data key).filter fun stored => ¬ stored.expiresAt < now := rfl
    rcases hlasts with hthere | ⟨hgone, hlate⟩
    · rw [Lasts, hdata, hthere]
      by_cases hexp : stored.expiresAt < now
      · exact .inr ⟨by simp [hexp], hexp.trans_le (hexpire now rfl)⟩
      · exact .inl (by simpa using hexp)
    · rw [Lasts, hdata, hgone]
      exact .inr ⟨rfl, hlate⟩
  | deleted k =>
    have hne : key ≠ k := by
      rintro rfl
      exact hdelete rfl
    rw [Lasts, delete_data, update_of_ne hne]
    exact hlasts

theorem get_of_run {evs : List NodeEvent} (hrun : Run (NodeStep S) s evs s')
    (hthere : s.data key = some stored) (hspares : ∀ ev ∈ evs, ev.spares S key later) :
    s'.get key later = if later ≤ stored.expiresAt then some stored.value else none := by
  have hlasts : Lasts s' key later stored := by
    induction hrun with
    | nil => exact .inl hthere
    | snoc _ hs ih =>
      rw [List.forall_mem_append] at hspares
      exact (ih hspares.1).step hs (hspares.2 _ List.mem_cons_self)
  rcases hlasts with hdata | ⟨hdata, hlate⟩
  · simp only [Storage.get, hdata]
    split
    · next h => rw [if_neg (by omega)]
    · next h => rw [if_pos (by omega)]
  · rw [Storage.get, hdata, if_neg (by omega)]

end

/-- From a STORE on, and while no event replaces or deletes the entry, `Get` returns the value up to
the end of its time to live, and not after that. -/
def ServedFor (S : EntrySuite) (s : Storage) (req : StoreRequest) (storeAt : ℤ) : Prop :=
  ∀ evs s' later, Run (NodeStep S) s evs s' → storeAt ≤ later →
    (∀ ev ∈ evs, ev.spares S req.key later) →
    s'.get req.key later =
      if later ≤ storeAt + req.ttl.toInt * 10 ^ 9 then some req.value else none

/-- An accepted value is served for its time to live just when that is below `2 ^ 63` nanoseconds.
-/
theorem servedFor_iff {S : EntrySuite} {s s' : Storage} {req : StoreRequest}
    {sender : Option NodeID} {verifyAt storeAt : ℤ} (httl : 0 ≤ req.ttl.toInt)
    (haccepted : handleStore S s (.ok req) sender verifyAt storeAt = some (s', some ⟨true, ""⟩)) :
    ServedFor S s' req storeAt ↔ req.ttl.toInt * 10 ^ 9 < 2 ^ 63 := by
  obtain ⟨publisher, rfl⟩ : ∃ publisher,
      s' = s.store req.key req.value (req.ttl * 1000000000) publisher storeAt := by
    cases hextract : verifyAndExtract S (unix verifyAt) req.value with
    | error err => simp [handleStore, hextract] at haccepted
    | ok value =>
      cases sender with
      | none => simp [handleStore, hextract] at haccepted
      | some publisher =>
        rw [handleStore_of_extract hextract] at haccepted
        exact ⟨publisher, (congrArg Prod.fst (Option.some.inj haccepted)).symm⟩
  have hexpires : (req.ttl * 1000000000).toInt = (req.ttl.toInt * 10 ^ 9).bmod (2 ^ 64) := by
    rw [Int64.toInt_mul]
    rfl
  constructor
  · intro h
    -- at the end of the time to live
    have hend := h [] _ (storeAt + req.ttl.toInt * 10 ^ 9) .nil (by omega) (by simp)
    rw [get_store_self, if_pos le_rfl, hexpires] at hend
    have hlate : ¬ storeAt + (req.ttl.toInt * 10 ^ 9).bmod (2 ^ 64) <
        storeAt + req.ttl.toInt * 10 ^ 9 := by
      intro hlt
      rw [if_pos hlt] at hend
      cases hend
    rw [Int.bmod_def] at hlate
    omega
  · intro h evs s' later hrun _ hspares
    have hget := get_of_run hrun (update_self ..) hspares
    rw [hexpires, (bmod_eq_iff _).mpr ⟨by omega, h⟩] at hget
    exact hget

/-- Times to live are kept to just when no sum or product leaves 64 bits. -/
theorem expiry_exact_iff (e : SignedEntry) {S : EntrySuite} {s s' : Storage} {req : StoreRequest}
    {sender : Option NodeID} {verifyAt storeAt : ℤ} (httl : 0 ≤ req.ttl.toInt)
    (haccepted : handleStore S s (.ok req) sender verifyAt storeAt = some (s', some ⟨true, ""⟩)) :
    (∀ now, e.isExpired now = true ↔ e.timestamp.toInt + e.ttl.toInt < now.toInt) ∧
        ServedFor S s' req storeAt ↔
      FitsInt64 (e.timestamp.toInt + e.ttl.toInt) ∧ req.ttl.toInt * 10 ^ 9 < 2 ^ 63 :=
  and_congr (isExpired_iff e) (servedFor_iff httl haccepted)

def timedEntry (timestamp ttl : Int64) : SignedEntry :=
  ⟨.zero 20, [], [], [], timestamp, ttl, []⟩

theorem openSuite_handleStore (ttl : Int64) :
    handleStore openSuite Storage.empty (.ok ⟨.zero 20, [1], ttl⟩) (some (.zero 20)) 0 0 =
      some (Storage.empty.store (.zero 20) [1] (ttl * 1000000000) (.zero 20) 0,
        some ⟨true, ""⟩) :=
  handleStore_of_extract openSuite_extract

/-- A time to live of a thousand seconds. -/
theorem expiry_exact_thousand :
    (∀ now, (timedEntry 1 1000).isExpired now = true ↔ 1 + 1000 < now.toInt) ∧
      ServedFor openSuite (Storage.empty.store (.zero 20) [1] (1000 * 1000000000) (.zero 20) 0)
        ⟨.zero 20, [1], 1000⟩ 0 :=
  (expiry_exact_iff (timedEntry 1 1000) (by decide) (openSuite_handleStore 1000)).mpr
    ⟨by decide, by decide⟩

/-- An entry with a time to live of `2 ^ 63 - 1` seconds has expired at once, and a value with one
of 9223372037 seconds is never served. -/
theorem expiry_wraps :
    ((timedEntry 1 (Int64.ofInt (2 ^ 63 - 1))).isExpired 2 = true ∧
      ¬ (1 : ℤ) + (2 ^ 63 - 1) < 2) ∧
    ∃ s, handleStore openSuite Storage.empty (.ok ⟨.zero 20, [1], 9223372037⟩) (some (.zero 20))
        0 0 = some (s, some ⟨true, ""⟩) ∧
      s.get (.zero 20) 0 = none := by
  refine ⟨⟨by decide +kernel, by decide⟩, _, openSuite_handleStore 9223372037, ?_⟩
  rw [get_store_self]
  exact if_pos (by decide +kernel)

end Zentalk.Dht
