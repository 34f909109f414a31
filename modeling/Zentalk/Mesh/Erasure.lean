import Zentalk.Lib.Decimal
import Zentalk.Lib.Slots
import Zentalk.Protocol.Keys

/-!
# Erasure coding

`ReedSolomon` carries what the documentation of the library says; with it any ten shards give the
data back (`decode_encoded`).
-/

namespace Zentalk.Mesh

open Wire Slots Decimal Except

/-! ## Constants -/

def dataShards : ℕ := 10

def parityShards : ℕ := 5

def totalShards : ℕ := dataShards + parityShards

def minShardsForRecovery : ℕ := dataShards

def healthExcellent : ℕ := 15

instance : NeZero totalShards := ⟨by decide⟩

abbrev Slot := Fin totalShards

/-! ## The library -/

abbrev Shards := Slot → Bytes

/-- Fifteen shards of which some are missing. -/
abbrev Fetched := Slot → Option Bytes

/-- How many shards are there. -/
def Fetched.available (p : Fetched) : ℕ := count fun i => (p i).isSome

/-- The shards that are there belong to `w`. -/
def Fetched.Agrees (p : Fetched) (w : Shards) : Prop := ∀ i b, p i = some b → b = w i

def joinData (w : Shards) : Bytes :=
  (List.finRange dataShards).flatMap fun i => w (i.castLE (by decide))

/-- `reedsolomon.New(DataShards, ParityShards)`, with what is documented of it. -/
structure ReedSolomon where
  split : Bytes → Except Bytes Shards
  encode : Shards → Except Bytes Shards
  reconstruct : Fetched → Except Bytes Shards
  verify : Shards → Except Bytes Bool
  /-- `Split` and `Encode` give a codeword, whose data shards are the data and its padding. -/
  encodes : ∀ data : Bytes, data ≠ [] → ∃ parts w, split data = .ok parts ∧ encode parts = .ok w ∧
    verify w = .ok true ∧ (joinData w).take data.length = data
  /-- A codeword has no empty shards. -/
  ne_nil : ∀ w : Shards, verify w = .ok true → ∀ i, w i ≠ []
  /-- Ten shards of a codeword bring it back. -/
  recovers : ∀ (p : Fetched) (w : Shards), verify w = .ok true → p.Agrees w →
    minShardsForRecovery ≤ p.available → reconstruct p = .ok w
  /-- The shards that are there are not changed. -/
  keeps : ∀ (p : Fetched) (w : Shards), reconstruct p = .ok w → (∀ i, p i ≠ some []) → p.Agrees w

/-- `Verify` accepts the shards. -/
def ReedSolomon.Codeword (R : ReedSolomon) (w : Shards) : Prop := R.verify w = .ok true

/-! ## `Encode` and `Decode` -/

/-- `EncodedData`, as `Encode` returns it. -/
structure EncodedData where
  shards : Shards
  shardSize : ℕ
  originalSize : ℕ

namespace ErasureEncoder

def encode (R : ReedSolomon) (data : Bytes) : Except Bytes EncodedData :=
  if data.length = 0 then .error (asciiBytes "cannot encode empty data")
  else
    match R.split data with
    | .error err => .error (asciiBytes "failed to split data: " ++ err)
    | .ok parts =>
      match R.encode parts with
      | .error err => .error (asciiBytes "failed to encode parity: " ++ err)
      | .ok shards => .ok ⟨shards, (shards 0).length, data.length⟩

/-- `ErasureEncoder.Decode` of fifteen shards, of which some may be nil. -/
def decode (R : ReedSolomon) (shards : Fetched) (originalSize : ℕ) : Except Bytes Bytes :=
  if shards.available < minShardsForRecovery then
    .error (asciiBytes "insufficient shards for recovery: have " ++ decimal shards.available ++
      asciiBytes ", need " ++ decimal minShardsForRecovery)
  else
    match R.reconstruct shards with
    | .error err => .error (asciiBytes "failed to reconstruct shards: " ++ err)
    | .ok shardsCopy =>
      match R.verify shardsCopy with
      | .error err => .error (asciiBytes "failed to verify shards: " ++ err)
      | .ok false => .error (asciiBytes "shard verification failed")
      | .ok true =>
        let buf := joinData shardsCopy
        .ok (if originalSize < buf.length then buf.take originalSize else buf)

variable (R : ReedSolomon) {data : Bytes}

theorem encode_ok (h : data ≠ []) :
    ∃ w : Shards, encode R data = .ok ⟨w, (w 0).length, data.length⟩ ∧ R.Codeword w ∧
      (joinData w).take data.length = data := by
  obtain ⟨parts, w, hsplit, hencode, hverify, hjoin⟩ := R.encodes data h
  refine ⟨w, ?_, hverify, hjoin⟩
  have hlen : data.length ≠ 0 := mt List.length_eq_zero_iff.mp h
  simp [encode, hlen, hsplit, hencode]

theorem encode_eq_ok {R : ReedSolomon} {encoded : EncodedData} (h : encode R data = .ok encoded) :
    R.Codeword encoded.shards ∧ encoded.originalSize = data.length ∧
      (joinData encoded.shards).take data.length = data := by
  have hne : data ≠ [] := by
    rintro rfl
    cases h
  obtain ⟨w, hok, hcode, hjoin⟩ := encode_ok R hne
  rw [hok] at h
  cases h
  exact ⟨hcode, rfl, hjoin⟩

theorem decode_of_agrees {shards : Fetched} {w : Shards} (hcode : R.Codeword w)
    (hagrees : shards.Agrees w) (hten : minShardsForRecovery ≤ shards.available)
    (originalSize : ℕ) : decode R shards originalSize = .ok ((joinData w).take originalSize) := by
  have hrecover := R.recovers shards w hcode hagrees hten
  have hverify : R.verify w = .ok true := hcode
  have hcut : (if originalSize < (joinData w).length then (joinData w).take originalSize
      else joinData w) = (joinData w).take originalSize := by
    split
    · rfl
    · next h => exact (List.take_of_length_le (Nat.le_of_not_lt h)).symm
  simp [decode, Nat.not_lt.mpr hten, hrecover, hverify, hcut]

/-- When `Decode` succeeds, and with what. -/
theorem decode_ok_iff {shards : Fetched} (hne : ∀ i, shards i ≠ some []) {originalSize : ℕ} :
    decode R shards originalSize = .ok data ↔ minShardsForRecovery ≤ shards.available ∧
      ∃ w, R.Codeword w ∧ shards.Agrees w ∧ (joinData w).take originalSize = data := by
  constructor
  · intro h
    by_cases hten : shards.available < minShardsForRecovery
    · simp [decode, hten] at h
    · cases hrec : R.reconstruct shards with
      | error err => simp [decode, hten, hrec] at h
      | ok w =>
        cases hverify : R.verify w with
        | error err => simp [decode, hten, hrec, hverify] at h
        | ok accepted =>
          cases accepted with
          | false => simp [decode, hten, hrec, hverify] at h
          | true =>
            have hagrees := R.keeps shards w hrec hne
            refine ⟨Nat.le_of_not_lt hten, w, hverify, hagrees, ?_⟩
            rw [decode_of_agrees R hverify hagrees (Nat.le_of_not_lt hten)] at h
            exact ok.inj h
  · rintro ⟨hten, w, hcode, hagrees, rfl⟩
    exact decode_of_agrees R hcode hagrees hten originalSize

end ErasureEncoder

/-! ## Altered shards -/

/-- The shards that are there have the sizes of those of `w`. -/
def Fetched.SameSizes (p : Fetched) (w : Shards) : Prop :=
  ∀ i b, p i = some b → b.length = (w i).length

def Fetched.altered (p : Fetched) (w : Shards) : ℕ := count fun i => (p i).any fun b => b ≠ w i

/-- The shards that are there and as in `w`. -/
def Fetched.intact (p : Fetched) (w : Shards) : Fetched := fun i => (p i).filter fun b => b = w i

namespace Fetched

variable {p : Fetched} {w : Shards}

theorem intact_eq_some {i : Slot} {b : Bytes} (h : p.intact w i = some b) :
    p i = some b ∧ b = w i := by
  obtain ⟨hb, heq⟩ := Option.filter_eq_some_iff.mp h
  exact ⟨hb, of_decide_eq_true heq⟩

theorem available_eq (p : Fetched) (w : Shards) :
    p.available = (p.intact w).available + p.altered w := by
  have hslot i : (if (p i).isSome then 1 else 0) =
      (if (p.intact w i).isSome then 1 else 0) +
        if (p i).any (fun b => b ≠ w i) then 1 else 0 := by
    unfold intact
    cases p i with
    | none => rfl
    | some b => by_cases h : b = w i <;> simp [h, Option.filter]
  have hlist (l : List Slot) : l.countP (fun i => (p i).isSome) =
      l.countP (fun i => (p.intact w i).isSome) + l.countP fun i => (p i).any fun b => b ≠ w i := by
    induction l with
    | nil => rfl
    | cons i l ih =>
      rw [List.countP_cons, List.countP_cons, List.countP_cons, ih, hslot i]
      omega
  exact hlist (List.finRange totalShards)

theorem altered_eq_zero_iff : p.altered w = 0 ↔ p.Agrees w := by
  rw [altered, count, List.countP_eq_zero]
  constructor
  · intro h i b hb
    have hi := h i (List.mem_finRange i)
    rw [hb] at hi
    simpa using hi
  · intro h i _
    cases hb : p i with
    | none => simp
    | some b => simp [h i b hb]

theorem SameSizes.ne_nil {R : ReedSolomon} (hcode : R.Codeword w) (h : p.SameSizes w) (i : Slot) :
    p i ≠ some [] := by
  intro hi
  have hlen := h i [] hi
  exact R.ne_nil w hcode i (List.length_eq_zero_iff.mp hlen.symm)

/-- Two codewords have at most nine shards in common. -/
theorem codeword_unique {R : ReedSolomon} {w' : Shards} (hcode : R.Codeword w)
    (hcode' : R.Codeword w') (hagrees : p.Agrees w')
    (hten : minShardsForRecovery + p.altered w ≤ p.available) : w' = w := by
  have hintact : minShardsForRecovery ≤ (p.intact w).available := by
    have hsum := p.available_eq w
    omega
  have hw := R.recovers (p.intact w) w hcode (fun i b hb => (intact_eq_some hb).2) hintact
  have hw' := R.recovers (p.intact w) w' hcode'
    (fun i b hb => hagrees i b (intact_eq_some hb).1) hintact
  exact ok.inj (hw'.symm.trans hw)

end Fetched

namespace ErasureEncoder

/-- With ten shards more than were altered, `Decode` succeeds just when none was. -/
theorem decode_altered_iff (R : ReedSolomon) {p : Fetched} {w : Shards} (hcode : R.Codeword w)
    (hsizes : p.SameSizes w) (hten : minShardsForRecovery + p.altered w ≤ p.available)
    {originalSize : ℕ} {data : Bytes} :
    decode R p originalSize = .ok data ↔
      p.altered w = 0 ∧ (joinData w).take originalSize = data := by
  rw [decode_ok_iff R (hsizes.ne_nil hcode), Fetched.altered_eq_zero_iff]
  constructor
  · rintro ⟨-, w', hcode', hagrees, hdata⟩
    obtain rfl := Fetched.codeword_unique hcode hcode' hagrees hten
    exact ⟨hagrees, hdata⟩
  · rintro ⟨hagrees, hdata⟩
    exact ⟨by omega, w, hcode, hagrees, hdata⟩

/-- `Decode` fails with fewer than ten shards; with ten and one more for each that was altered it
returns the data, or an error if any was altered. -/
theorem decode_encoded (R : ReedSolomon) {data : Bytes} (hne : data ≠ []) :
    ∃ encoded, encode R data = .ok encoded ∧ ∀ p : Fetched,
      (p.available < minShardsForRecovery →
        ∃ err, decode R p encoded.originalSize = .error err) ∧
      ∀ e, p.SameSizes encoded.shards → p.altered encoded.shards ≤ e →
        minShardsForRecovery + e ≤ p.available →
          (decode R p encoded.originalSize = .ok data ∨
            ∃ err, decode R p encoded.originalSize = .error err) ∧
          (e = 0 → decode R p encoded.originalSize = .ok data) := by
  obtain ⟨w, hencode, hcode, hjoin⟩ := encode_ok R hne
  refine ⟨⟨w, (w 0).length, data.length⟩, hencode, fun p => ⟨fun hfew => ?_, fun e => ?_⟩⟩
  · exact ⟨_, if_pos hfew⟩
  · intro (hsizes : p.SameSizes w) (haltered : p.altered w ≤ e) hten
    have hiff d : decode R p data.length = .ok d ↔
        p.altered w = 0 ∧ (joinData w).take data.length = d :=
      decode_altered_iff R hcode hsizes (by omega)
    refine ⟨?_, fun he => (hiff data).mpr ⟨by omega, hjoin⟩⟩
    cases hdecode : decode R p data.length with
    | error err => exact .inr ⟨err, rfl⟩
    | ok d =>
      obtain ⟨-, rfl⟩ := (hiff d).mp hdecode
      exact .inl (congrArg ok hjoin)

end ErasureEncoder

/-! ## A code that can be run -/

def Fetched.first (p : Fetched) : Option Bytes := (List.finRange totalShards).findSome? p

theorem Fetched.exists_first {p : Fetched} (h : minShardsForRecovery ≤ p.available) :
    ∃ i b, p.first = some b ∧ p i = some b := by
  cases hfirst : p.first with
  | none =>
    have hnone : p.available = 0 := by
      refine List.countP_eq_zero.mpr fun i hi => ?_
      simp [List.findSome?_eq_none_iff.mp hfirst i hi]
    rw [hnone] at h
    exact absurd h (by decide)
  | some b =>
    obtain ⟨i, -, hi⟩ := List.exists_of_findSome?_eq_some hfirst
    exact ⟨i, b, rfl, hi⟩

/-- The code that repeats the data fifteen times. -/
def mirrorCode : ReedSolomon where
  split data := .ok fun _ => data
  encode parts := .ok parts
  reconstruct p :=
    match p.first with
    | none => .error (asciiBytes "too few shards given")
    | some b => .ok fun i => (p i).getD b
  verify w := .ok (decide (w 0 ≠ [] ∧ ∀ i, w i = w 0))
  encodes data hne := by
    refine ⟨_, _, rfl, rfl, ?_, ?_⟩
    · simp [hne]
    · exact List.take_left
  ne_nil w hverify i := by
    have hw := of_decide_eq_true (Except.ok.inj hverify)
    rw [hw.2 i]
    exact hw.1
  recovers p w hverify hagrees hten := by
    have hw := of_decide_eq_true (Except.ok.inj hverify)
    obtain ⟨i, b, hfirst, hi⟩ := Fetched.exists_first hten
    rw [hfirst]
    refine congrArg Except.ok (funext fun j => ?_)
    have hb : b = w j := (hagrees i b hi).trans ((hw.2 i).trans (hw.2 j).symm)
    cases hj : p j with
    | none => exact hb
    | some b' => exact hagrees j b' hj
  keeps p w hrec hne i b hi := by
    cases hfirst : p.first with
    | none =>
      rw [hfirst] at hrec
      cases hrec
    | some b' =>
      rw [hfirst] at hrec
      rw [← Except.ok.inj hrec]
      simp only [hi, Option.getD_some]

/-- Its codewords have fifteen times the same shard. -/
theorem mirrorCode_shards {w : Shards} (h : mirrorCode.Codeword w) (i j : Slot) : w i = w j := by
  have hw := of_decide_eq_true (ok.inj h)
  rw [hw.2 i, hw.2 j]

theorem mirrorCode_reconstruct {p : Fetched} {b : Bytes} (h : p.first = some b) :
    mirrorCode.reconstruct p = .ok fun i => (p i).getD b := by
  simp only [mirrorCode, h]

theorem decode_encoded_mirror : ([1, 2, 3] : Bytes) ≠ [] ∧
    ∃ encoded, ErasureEncoder.encode mirrorCode [1, 2, 3] = .ok encoded ∧ ∀ p : Fetched,
      (p.available < minShardsForRecovery →
        ∃ err, ErasureEncoder.decode mirrorCode p encoded.originalSize = .error err) ∧
      ∀ e, p.SameSizes encoded.shards → p.altered encoded.shards ≤ e →
        minShardsForRecovery + e ≤ p.available →
          (ErasureEncoder.decode mirrorCode p encoded.originalSize = .ok [1, 2, 3] ∨
            ∃ err, ErasureEncoder.decode mirrorCode p encoded.originalSize = .error err) ∧
          (e = 0 → ErasureEncoder.decode mirrorCode p encoded.originalSize = .ok [1, 2, 3]) :=
  ⟨by decide, ErasureEncoder.decode_encoded mirrorCode (by decide)⟩

end Zentalk.Mesh
