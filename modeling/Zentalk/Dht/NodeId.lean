import Zentalk.Lib.Bytes

/-!
# Node identifiers and their distance

`node_id.go`: identifiers of 160 bits, with the XOR metric (`distance_inj`).
-/

namespace Zentalk.Dht

open Wire List Nat

abbrev NodeID := ByteArr 20

namespace NodeID

def xor (id other : NodeID) : NodeID :=
  ⟨zipWith (· ^^^ ·) id.bytes other.bytes, by simp⟩

/-- `NodeID.Distance`: the XOR as a big-endian number. -/
def distance (id other : NodeID) : ℕ := getUint (xor id other).bytes

def closerLoop : Bytes → Bytes → Bytes → Bool
  | x :: id, t :: target, y :: other =>
    let d1 := x ^^^ t
    let d2 := y ^^^ t
    if d1 < d2 then true
    else if d2 < d1 then false
    else closerLoop id target other
  | _, _, _ => false

/-- `NodeID.CloserTo`: `id` is closer to `target` than `other` is. -/
def closerTo (id target other : NodeID) : Bool := closerLoop id.bytes target.bytes other.bytes

/-- The first byte at which two numbers differ decides. -/
theorem closerLoop_iff {id target other : Bytes} (hid : id.length = target.length)
    (hother : other.length = target.length) :
    closerLoop id target other = true ↔
      getUint (zipWith (· ^^^ ·) id target) <
        getUint (zipWith (· ^^^ ·) other target) := by
  induction target generalizing id other with
  | nil =>
    obtain rfl := length_eq_zero_iff.mp hid
    obtain rfl := length_eq_zero_iff.mp hother
    simp [closerLoop]
  | cons t target ih =>
    obtain ⟨x, id, rfl⟩ := exists_cons_of_length_eq_add_one hid
    obtain ⟨y, other, rfl⟩ := exists_cons_of_length_eq_add_one hother
    rw [length_cons, length_cons, add_right_cancel_iff] at hid hother
    have hrest := ih hid hother
    set a := zipWith (· ^^^ ·) id target with ha
    set b := zipWith (· ^^^ ·) other target with hb
    have hlen : a.length = b.length := by simp [ha, hb, hid, hother]
    have halt := getUint_lt a
    have hblt := getUint_lt b
    rw [zipWith_cons_cons, zipWith_cons_cons, getUint_cons, getUint_cons, ← ha, ← hb, closerLoop]
    rw [hlen] at halt ⊢
    simp only [UInt8.lt_iff_toNat_lt]
    rcases lt_trichotomy (x ^^^ t).toNat (y ^^^ t).toNat with hlt | heq | hgt
    · have hmul := mul_le_mul_right (256 ^ b.length) (succ_le_of_lt hlt)
      rw [succ_mul] at hmul
      rw [if_pos hlt]
      exact iff_of_true rfl (by omega)
    · rw [if_neg (by omega), if_neg (by omega), hrest, heq]
      omega
    · have hmul := mul_le_mul_right (256 ^ b.length) (succ_le_of_lt hgt)
      rw [succ_mul] at hmul
      rw [if_neg (by omega), if_pos hgt]
      exact iff_of_false Bool.false_ne_true (by omega)

/-- `CloserTo` compares the distances to the target. -/
theorem closerTo_iff (id target other : NodeID) :
    closerTo id target other = true ↔ distance id target < distance other target :=
  closerLoop_iff (by simp) (by simp)

theorem distance_lt (id target : NodeID) : distance id target < 2 ^ 160 := by
  have h := getUint_lt (xor id target).bytes
  rwa [ByteArr.length_bytes, show 256 ^ 20 = 2 ^ 160 by norm_num] at h

/-- Two identifiers at one distance of a target are the same. -/
theorem distance_inj {a b target : NodeID} (h : distance a target = distance b target) : a = b := by
  have hbytes : (xor a target).bytes = (xor b target).bytes := getUint_inj (by simp) h
  refine ByteArr.ext (zipWith_right_cancel (fun x y z => ?_) (by simp) (by simp) hbytes)
  exact (UInt8.xor_left_inj z).mp

end NodeID

end Zentalk.Dht
