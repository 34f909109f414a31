import Zentalk.Dht.TableRuns

/-!
# Lengths of common prefixes

All three lengths are the logarithm of the distance (`NodeID.prefixLen_agrees`).
-/

namespace Zentalk.Dht

open Wire List ByteArr Nat

namespace NodeID

/-- `NodeID.CommonPrefixLen`, whose loops are those of `getBucketIndex`. -/
def commonPrefixLen (id other : NodeID) : ℕ := (bucketLoop 0 (xor id other).bytes).getD 160

/-- The inner loop of `PrefixLen`, with the lowest `j` bits of the byte left. -/
def countZeros (b : UInt8) : ℕ → ℕ → ℕ
  | 0, prefixLen => prefixLen
  | j + 1, prefixLen =>
    if b &&& (1 <<< UInt8.ofNat j) ≠ 0 then prefixLen else countZeros b j (prefixLen + 1)

/-- The outer loop of `PrefixLen`. -/
def prefixLoop : Bytes → ℕ → ℕ
  | [], prefixLen => prefixLen
  | b :: rest, prefixLen =>
    if b = 0 then prefixLoop rest (prefixLen + 8) else countZeros b 8 prefixLen

def prefixLen (id other : NodeID) : ℕ := prefixLoop (xor id other).bytes 0

end NodeID

section

open NodeID

variable {b : Bytes} {n : ℕ}

/-- The bits of a byte string are those of its number. -/
theorem bitAt_eq_testBit (h : n < 8 * b.length) :
    bitAt b n = (getUint b).testBit (8 * b.length - 1 - n) := by
  induction b generalizing n with
  | nil => cases h
  | cons x b ih =>
    have hlow : getUint b < 2 ^ (8 * b.length) := by
      rw [pow_mul]
      exact getUint_lt b
    rw [length_cons] at h ⊢
    rw [getUint_cons, show 256 = 2 ^ 8 from rfl, ← pow_mul, mul_comm,
      testBit_two_pow_mul_add _ hlow]
    rcases lt_or_ge n 8 with hlt | hge
    · rw [bitAt_cons_of_lt x b hlt, if_neg (by omega)]
      congr 1
      omega
    · obtain ⟨k, rfl⟩ := Nat.exists_eq_add_of_le' hge
      rw [bitAt_cons_add, if_pos (by omega), ih (by omega)]
      congr 1
      omega

theorem FirstBit.getUint_bounds (h : FirstBit b n) (hn : n < 8 * b.length) :
    2 ^ (8 * b.length - 1 - n) ≤ getUint b ∧ getUint b < 2 ^ (8 * b.length - n) := by
  refine ⟨ge_two_pow_of_testBit (bitAt_eq_testBit hn ▸ h.2), ?_⟩
  refine lt_pow_two_of_testBit _ fun i hi => ?_
  rcases lt_or_ge i (8 * b.length) with hlt | hge
  · have hbit := h.1 (8 * b.length - 1 - i) (by omega)
    rwa [bitAt_eq_testBit (by omega), show 8 * b.length - 1 - (8 * b.length - 1 - i) = i by omega]
      at hbit
  · refine testBit_lt_two_pow ((getUint_lt b).trans_le ?_)
    rw [show 256 = 2 ^ 8 from rfl, ← pow_mul]
    exact Nat.pow_le_pow_right (by norm_num) hge

theorem countZeros_highBit {b : UInt8} {k : ℕ} (h : highBit b = some k) {d : ℕ} (hd : d ≤ k)
    (prefixLen : ℕ) : countZeros b (8 - k + d) prefixLen = prefixLen + d := by
  obtain ⟨hbit, hrange, hbefore⟩ := List.find?_range_eq_some.mp h
  have hlt := mem_range.mp hrange
  induction d generalizing prefixLen with
  | zero =>
    rw [show 8 - k + 0 = 7 - k + 1 by omega, countZeros, if_pos (of_decide_eq_true hbit)]
    rfl
  | succ d ih =>
    have hno := hbefore (k - d - 1) (by omega)
    rw [Bool.not_eq_true', decide_eq_false_iff_not, show 7 - (k - d - 1) = 8 - k + d by omega]
      at hno
    rw [← add_assoc, countZeros, if_neg hno, ih (by omega), add_right_comm]
    rfl

/-- The loops of `PrefixLen` stop where those of `getBucketIndex` do. -/
theorem prefixLoop_eq {i : ℕ} (h : bucketLoop i b = some n) : prefixLoop b (i * 8) = n := by
  induction b generalizing i with
  | nil => cases h
  | cons x b ih =>
    rw [bucketLoop] at h
    rw [prefixLoop]
    split at h
    · next hx =>
      rw [if_neg hx]
      split at h
      · next k hk =>
        obtain rfl := Option.some.inj h
        have hlt := highBit_lt hk
        rw [show 8 = 8 - k + k by omega, countZeros_highBit hk le_rfl]
      · next hnone => exact absurd (eq_zero_of_highBit hnone) hx
    · next hx =>
      rw [if_pos (not_not.mp hx), ← succ_mul]
      exact ih h

theorem window_unique {p q d : ℕ} (hp : 2 ^ (159 - p) ≤ d ∧ d < 2 ^ (160 - p))
    (hq : 2 ^ (159 - q) ≤ d ∧ d < 2 ^ (160 - q)) : q = p := by
  have hpq := (Nat.pow_lt_pow_iff_right (by norm_num)).mp (hp.1.trans_lt hq.2)
  have hqp := (Nat.pow_lt_pow_iff_right (by norm_num)).mp (hq.1.trans_lt hp.2)
  omega

end

open NodeID in
/-- The three helpers find the place of the distance between the powers of two, and `CloserTo`
orders the identifiers by their distance to a target. -/
theorem NodeID.prefixLen_agrees {a b : NodeID} (hab : a ≠ b) (t : NodeID) :
    (∃ p, commonPrefixLen a b = p ∧ prefixLen a b = p ∧ (getBucketIndex a b : ℕ) = p ∧
      ∀ q, 2 ^ (159 - q) ≤ distance a b ∧ distance a b < 2 ^ (160 - q) ↔ q = p) ∧
    (closerTo a t b = true ↔ distance a t < distance b t) ∧
    IsStrictTotalOrder NodeID fun x y => closerTo x t y = true := by
  obtain ⟨p, hloop, hfirst⟩ := bucketLoop_of_ne hab.symm
  have hlt : p < 160 := by simpa using bucketLoop_lt hloop
  have hp : 2 ^ (159 - p) ≤ distance a b ∧ distance a b < 2 ^ (160 - p) := by
    simpa [distance] using hfirst.getUint_bounds (by simpa using hlt)
  refine ⟨⟨p, by simp [commonPrefixLen, hloop], prefixLoop_eq hloop,
    by simp [getBucketIndex, hloop], fun q => ⟨window_unique hp, fun hq => hq ▸ hp⟩⟩,
    closerTo_iff a t b, ?_⟩
  have hembed : (fun x y => closerTo x t y = true) ↪r fun m n : ℕ => m < n :=
    ⟨⟨fun x => distance x t, fun _ _ => distance_inj⟩, (closerTo_iff _ _ _).symm⟩
  exact hembed.isStrictTotalOrder

theorem NodeID.distance_of_prefixLen :
    prefixLen (zero 20) (ofSlice 20 [1]) = 7 ∧
      2 ^ 152 ≤ distance (zero 20) (ofSlice 20 [1]) ∧
      distance (zero 20) (ofSlice 20 [1]) < 2 ^ 153 := by
  obtain ⟨⟨p, -, hlen, -, hbounds⟩, -⟩ := prefixLen_agrees (a := zero 20)
    (b := ofSlice 20 [1]) (by decide) (zero 20)
  have hseven : prefixLen (zero 20) (ofSlice 20 [1]) = 7 := by decide
  exact ⟨hseven, (hbounds 7).mpr (hseven.symm.trans hlen)⟩

end Zentalk.Dht
