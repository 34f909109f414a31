import Zentalk.Lib.Bytes

/-!
# SHA-256

Written so that it can be evaluated (`length_sum256`).
-/

namespace Sha256

open Wire List

def initial : List UInt32 :=
  [0x6a09e667, 0xbb67ae85, 0x3c6ef372, 0xa54ff53a, 0x510e527f, 0x9b05688c, 0x1f83d9ab, 0x5be0cd19]

def roundConstants : List UInt32 :=
  [0x428a2f98, 0x71374491, 0xb5c0fbcf, 0xe9b5dba5, 0x3956c25b, 0x59f111f1, 0x923f82a4, 0xab1c5ed5,
   0xd807aa98, 0x12835b01, 0x243185be, 0x550c7dc3, 0x72be5d74, 0x80deb1fe, 0x9bdc06a7, 0xc19bf174,
   0xe49b69c1, 0xefbe4786, 0x0fc19dc6, 0x240ca1cc, 0x2de92c6f, 0x4a7484aa, 0x5cb0a9dc, 0x76f988da,
   0x983e5152, 0xa831c66d, 0xb00327c8, 0xbf597fc7, 0xc6e00bf3, 0xd5a79147, 0x06ca6351, 0x14292967,
   0x27b70a85, 0x2e1b2138, 0x4d2c6dfc, 0x53380d13, 0x650a7354, 0x766a0abb, 0x81c2c92e, 0x92722c85,
   0xa2bfe8a1, 0xa81a664b, 0xc24b8b70, 0xc76c51a3, 0xd192e819, 0xd6990624, 0xf40e3585, 0x106aa070,
   0x19a4c116, 0x1e376c08, 0x2748774c, 0x34b0bcb5, 0x391c0cb3, 0x4ed8aa4a, 0x5b9cca4f, 0x682e6ff3,
   0x748f82ee, 0x78a5636f, 0x84c87814, 0x8cc70208, 0x90befffa, 0xa4506ceb, 0xbef9a3f7, 0xc67178f2]

def rotr (x n : UInt32) : UInt32 := (x >>> n) ||| (x <<< (32 - n))

/-- The message with its padding: a set bit, zeros, and the length in bits. -/
def pad (b : Bytes) : Bytes :=
  b ++ 0x80 :: replicate ((119 - b.length % 64) % 64) 0 ++ putUint 8 (8 * b.length)

/-- The big-endian words of a string. -/
def words : Bytes → List UInt32
  | a :: b :: c :: d :: rest => getUint32 [a, b, c, d] :: words rest
  | _ => []

def nextWord (w : List UInt32) : UInt32 :=
  let s0 := rotr (w.getD 14 0) 7 ^^^ rotr (w.getD 14 0) 18 ^^^ (w.getD 14 0 >>> 3)
  let s1 := rotr (w.getD 1 0) 17 ^^^ rotr (w.getD 1 0) 19 ^^^ (w.getD 1 0 >>> 10)
  w.getD 15 0 + s0 + w.getD 6 0 + s1

def extend : ℕ → List UInt32 → List UInt32
  | 0, w => w
  | n + 1, w => extend n (nextWord w :: w)

def round : List UInt32 → UInt32 × UInt32 → List UInt32
  | [a, b, c, d, e, f, g, h], (k, w) =>
    let t1 := h + (rotr e 6 ^^^ rotr e 11 ^^^ rotr e 25) + ((e &&& f) ^^^ (~~~e &&& g)) + k + w
    let t2 := (rotr a 2 ^^^ rotr a 13 ^^^ rotr a 22) + ((a &&& b) ^^^ (a &&& c) ^^^ (b &&& c))
    [t1 + t2, a, b, c, d + t1, e, f, g]
  | state, _ => state

def compress (state block : List UInt32) : List UInt32 :=
  let schedule := (extend 48 block.reverse).reverse
  zipWith (· + ·) state ((roundConstants.zip schedule).foldl round state)

def compressAll : ℕ → List UInt32 → List UInt32 → List UInt32
  | 0, state, _ => state
  | n + 1, state, w => compressAll n (compress state (w.take 16)) (w.drop 16)

@[irreducible] def sum256 (b : Bytes) : Bytes :=
  let w := words (pad b)
  (compressAll (w.length / 16) initial w).flatMap putUint32

theorem length_round (state : List UInt32) (x : UInt32 × UInt32) :
    (round state x).length = state.length := by
  unfold round
  split
  · rfl
  · rfl

theorem length_compress (state block : List UInt32) :
    (compress state block).length = state.length := by
  have hrounds (l : List (UInt32 × UInt32)) st : (l.foldl round st).length = st.length := by
    induction l generalizing st with
    | nil => rfl
    | cons x l ih => rw [foldl_cons, ih, length_round]
  rw [compress, length_zipWith, hrounds, Nat.min_self]

theorem length_compressAll (n : ℕ) (state w : List UInt32) :
    (compressAll n state w).length = state.length := by
  induction n generalizing state w with
  | zero => rfl
  | succ n ih => rw [compressAll, ih, length_compress]

@[simp] theorem length_sum256 (b : Bytes) : (sum256 b).length = 32 := by
  have hbytes (l : List UInt32) : (l.flatMap putUint32).length = 4 * l.length := by
    induction l with
    | nil => rfl
    | cons x l ih =>
      rw [flatMap_cons, length_append, ih, length_putUint32, length_cons]
      omega
  rw [sum256, hbytes, length_compressAll]
  rfl

/-- The hash of `abc`. -/
example : sum256 [0x61, 0x62, 0x63] =
    [0xba, 0x78, 0x16, 0xbf, 0x8f, 0x01, 0xcf, 0xea, 0x41, 0x41, 0x40, 0xde, 0x5d, 0xae, 0x22, 0x23,
      0xb0, 0x03, 0x61, 0xa3, 0x96, 0x17, 0x7a, 0x9c, 0xb4, 0x10, 0xff, 0x61, 0xf2, 0x00, 0x15,
      0xad] := by
  decide +kernel

end Sha256
