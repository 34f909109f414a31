import Mathlib.Data.List.Induction
import Mathlib.Tactic.Ring

/-!
# Byte strings, fixed arrays and big-endian integers

`getUint_putUint` reads an integer back, `slice_append_left` and `slice_append_right` a field.
-/

namespace Wire

open List UInt8

abbrev Bytes := List UInt8

/-! ## Fixed arrays -/

/-- An array of exactly `n` bytes. -/
@[ext] structure ByteArr (n : Nat) where
  bytes : Bytes
  size_eq : bytes.length = n
deriving DecidableEq

namespace ByteArr

def zero (n : Nat) : ByteArr n := ⟨replicate n 0, length_replicate⟩

instance (n : Nat) : Inhabited (ByteArr n) := ⟨zero n⟩

/-- Copy a byte string into a zeroed array of `n` bytes. -/
def ofSlice (n : Nat) (b : Bytes) : ByteArr n :=
  ⟨(b ++ replicate n 0).take n, by simp⟩

variable {n : Nat}

@[simp] theorem length_bytes (a : ByteArr n) : a.bytes.length = n := a.size_eq

theorem ofSlice_append (a : ByteArr n) (rest : Bytes) : ofSlice n (a.bytes ++ rest) = a := by
  apply ByteArr.ext
  simp only [ofSlice, append_assoc]
  exact take_left' a.size_eq

@[simp] theorem ofSlice_bytes (a : ByteArr n) : ofSlice n a.bytes = a := by
  simpa using ofSlice_append a []

end ByteArr

theorem zipWith_right_cancel {f : UInt8 → UInt8 → UInt8} (hf : ∀ x y z, f x z = f y z → x = y)
    {a b c : Bytes} (ha : a.length = c.length) (hb : b.length = c.length)
    (h : zipWith f a c = zipWith f b c) : a = b := by
  induction c generalizing a b with
  | nil => rw [length_eq_zero_iff.mp ha, length_eq_zero_iff.mp hb]
  | cons z c ih =>
    obtain ⟨x, a, rfl⟩ := exists_cons_of_length_eq_add_one ha
    obtain ⟨y, b, rfl⟩ := exists_cons_of_length_eq_add_one hb
    obtain ⟨hhead, htail⟩ := cons.inj h
    rw [hf x y z hhead, ih (by simpa using ha) (by simpa using hb) htail]

/-! ## Big-endian integers -/

/-- The `k` low bytes of `v`, most significant first. -/
def putUint : Nat → Nat → Bytes
  | 0, _ => []
  | k + 1, v => putUint k (v / 256) ++ [UInt8.ofNat v]

/-- The number a byte string denotes, most significant byte first. -/
def getUint (b : Bytes) : Nat := b.foldl (fun acc x => acc * 256 + x.toNat) 0

@[simp] theorem length_putUint (k v : Nat) : (putUint k v).length = k := by
  induction k generalizing v with
  | zero => rfl
  | succ k ih => simp [putUint, ih]

theorem getUint_concat (b : Bytes) (x : UInt8) :
    getUint (b ++ [x]) = getUint b * 256 + x.toNat := by
  simp [getUint]

/-- The first byte weighs most. -/
theorem getUint_cons (x : UInt8) (b : Bytes) :
    getUint (x :: b) = x.toNat * 256 ^ b.length + getUint b := by
  induction b using reverseRecOn with
  | nil => simp [getUint]
  | append_singleton b y ih =>
    rw [← cons_append, getUint_concat, getUint_concat, ih, length_append,
      length_singleton, pow_succ]
    ring

theorem getUint_putUint (k v : Nat) : getUint (putUint k v) = v % 256 ^ k := by
  induction k generalizing v with
  | zero => simp [putUint, getUint, Nat.mod_one]
  | succ k ih =>
    have byte : (ofNat v).toNat = v % 256 := toNat_ofNat'
    rw [putUint, getUint_concat, ih, byte, pow_succ', Nat.mod_mul]
    omega

theorem getUint_lt (b : Bytes) : getUint b < 256 ^ b.length := by
  induction b using reverseRecOn with
  | nil => decide
  | append_singleton b x ih =>
    have hx := x.toNat_lt
    rw [getUint_concat, length_append, length_singleton, pow_succ]
    omega

/-- A byte string is the encoding of the number it denotes. -/
theorem putUint_getUint {k : Nat} {b : Bytes} (h : b.length = k) : putUint k (getUint b) = b := by
  induction b using reverseRecOn generalizing k with
  | nil =>
    subst h
    rfl
  | append_singleton b x ih =>
    rw [length_append, length_singleton] at h
    subst h
    have hx := x.toNat_lt
    have hdiv : (getUint b * 256 + x.toNat) / 256 = getUint b := by omega
    have hbyte : ofNat (getUint b * 256 + x.toNat) = x := by
      apply UInt8.toNat_inj.mp
      rw [UInt8.toNat_ofNat']
      omega
    rw [putUint, getUint_concat, hdiv, ih rfl, hbyte]

theorem getUint_inj {b b' : Bytes} (hlen : b.length = b'.length) (h : getUint b = getUint b') :
    b = b' := by
  rw [← putUint_getUint hlen, h, putUint_getUint rfl]

/-- Only the low bytes of a number are written. -/
theorem putUint_mod (k v : Nat) : putUint k (v % 256 ^ k) = putUint k v := by
  refine getUint_inj ?_ ?_
  · rw [length_putUint, length_putUint]
  · rw [getUint_putUint, getUint_putUint, Nat.mod_mod]

/-- `binary.BigEndian.PutUint32`. -/
def putUint32 (v : UInt32) : Bytes := putUint 4 v.toNat

/-- `binary.BigEndian.Uint32`, on a string of four bytes. -/
def getUint32 (b : Bytes) : UInt32 := UInt32.ofNat (getUint b)

@[simp] theorem length_putUint32 (v : UInt32) : (putUint32 v).length = 4 := length_putUint 4 _

theorem toNat_add_ofNat {i : UInt32} {n : Nat} (h : i.toNat + n < 2 ^ 32) :
    (i + UInt32.ofNat n).toNat = i.toNat + n := by
  have hn : n < 2 ^ 32 := by omega
  rw [UInt32.toNat_add, UInt32.toNat_ofNat_of_lt' hn, Nat.mod_eq_of_lt h]

@[simp] theorem getUint32_putUint32 (v : UInt32) : getUint32 (putUint32 v) = v := by
  have hlt : v.toNat < 256 ^ 4 := v.toNat_lt
  rw [getUint32, putUint32, getUint_putUint, Nat.mod_eq_of_lt hlt, UInt32.ofNat_toNat]

/-! ## Subslices -/

/-- The subslice `b[off : off + len]`. -/
def slice (b : Bytes) (off len : Nat) : Bytes := (b.drop off).take len

theorem slice_append_right {p : Bytes} {off : Nat} (hoff : p.length ≤ off) (b : Bytes)
    (len : Nat) : slice (p ++ b) off len = slice b (off - p.length) len := by
  rw [slice, slice, drop_append, drop_of_length_le hoff, nil_append]

theorem slice_append_left {x : Bytes} {len : Nat} (hlen : x.length = len) (rest : Bytes) :
    slice (x ++ rest) 0 len = x := by
  rw [slice, drop_zero, take_left' hlen]

theorem slice_append_drop (b : Bytes) (off len : Nat) :
    slice b off len ++ b.drop (off + len) = b.drop off := by
  rw [slice, ← drop_drop, take_append_drop]

theorem length_slice {b : Bytes} {off len : Nat} (h : off + len ≤ b.length) :
    (slice b off len).length = len := by
  rw [slice, length_take, length_drop]
  omega

end Wire
