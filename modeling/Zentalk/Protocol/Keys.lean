import Zentalk.Lib.Bytes
import Zentalk.Lib.OneWay

/-!
# Keys and key derivation

`goSuite` is the suite of the source; `freeSuite` satisfies the symbolic assumptions.
-/

namespace Zentalk

open Wire List Function ByteArr

abbrev DHPrivateKey := ByteArr 32

abbrev DHPublicKey := ByteArr 32

abbrev Address := ByteArr 20

/-- What `rand.Read` answers for a private key. -/
abbrev RandomKey := Except String DHPrivateKey

/-- The key types of the ratchet and the primitives the protocol calls. -/
structure Suite where
  RootKey : Type
  ChainKey : Type
  MessageKey : Type
  /-- `ChainKey{}`, the value of a chain key that was never set. -/
  zeroChainKey : ChainKey
  /-- `copy(state.RootKey[:], sharedSecret[:32])`. -/
  rootKeyOf : ByteArr 32 → RootKey
  /-- `KDF_RK`: the next root key and a new chain key. -/
  kdfRK : RootKey → ByteArr 32 → RootKey × ChainKey
  /-- `KDF_CK`: the next chain key and a message key. -/
  kdfCK : ChainKey → ChainKey × MessageKey
  /-- `curve25519.ScalarMult`. -/
  scalarMult : DHPrivateKey → DHPublicKey → ByteArr 32
  /-- `curve25519.ScalarBaseMult`. -/
  scalarBaseMult : DHPrivateKey → DHPublicKey
  /-- The first 32 bytes of HKDF-SHA256 for a secret, a salt and an info string. -/
  hkdf : Bytes → Bytes → Bytes → ByteArr 32
  /-- `gcm.Seal` under a nonce, without the nonce that the caller puts in front. -/
  gcmSeal : ByteArr 12 → Bytes → MessageKey → Bytes
  /-- `gcm.Open`; `none` when the tag does not verify. -/
  gcmOpen : ByteArr 12 → Bytes → MessageKey → Option Bytes

/-- The bytes of an ASCII constant of the source. -/
def asciiBytes (s : String) : Bytes := s.toList.map fun c => UInt8.ofNat c.toNat

def kdfRootInfo : Bytes := asciiBytes "ZenTalk Double Ratchet Root"

/-- The suite of the source. Reading 64 bytes from HKDF never fails, so `KDF_RK` has no error case.
-/
def goSuite (sha256 : Bytes → ByteArr 32) (hkdf : Bytes → Bytes → Bytes → (n : Nat) → ByteArr n)
    (scalarMult : ByteArr 32 → ByteArr 32 → ByteArr 32) (scalarBaseMult : ByteArr 32 → ByteArr 32)
    (gcmSeal : ByteArr 12 → Bytes → ByteArr 32 → Bytes)
    (gcmOpen : ByteArr 12 → Bytes → ByteArr 32 → Option Bytes) : Suite where
  RootKey := ByteArr 32
  ChainKey := ByteArr 32
  MessageKey := ByteArr 32
  zeroChainKey := zero 32
  rootKeyOf := id
  kdfRK := fun rootKey dhOutput =>
    let output := (hkdf dhOutput.bytes rootKey.bytes kdfRootInfo 64).bytes
    (ofSlice 32 (slice output 0 32), ofSlice 32 (slice output 32 32))
  kdfCK := fun chainKey =>
    (sha256 (chainKey.bytes ++ [0x02]), sha256 (chainKey.bytes ++ [0x01]))
  scalarMult := scalarMult
  scalarBaseMult := scalarBaseMult
  hkdf := fun secret salt info => hkdf secret salt info 32
  gcmSeal := gcmSeal
  gcmOpen := gcmOpen

namespace Suite

variable (K : Suite)

/-- The type of `aesEncrypt` and `aesDecrypt`. -/
abbrev Cipher := Bytes → K.MessageKey → Except String Bytes

/-- `DH`: the X25519 shared secret. -/
def dh (privateKey : DHPrivateKey) (publicKey : DHPublicKey) : ByteArr 32 :=
  K.scalarMult privateKey publicKey

/-- Both ends of an X25519 exchange compute the same secret. -/
def DHCommutes : Prop := ∀ a b, K.dh a (K.scalarBaseMult b) = K.dh b (K.scalarBaseMult a)

/-- `GenerateDHKeyPair`. -/
def generateDHKeyPair (rand : RandomKey) : Except String (DHPrivateKey × DHPublicKey) :=
  rand.map fun newPrivate => (newPrivate, K.scalarBaseMult newPrivate)

/-- The chain key after one `KDF_CK` step. -/
def nextChainKey (ck : K.ChainKey) : K.ChainKey := (K.kdfCK ck).1

/-- The message key that `KDF_CK` derives from a chain key. -/
def messageKeyOf (ck : K.ChainKey) : K.MessageKey := (K.kdfCK ck).2

/-- The chain key `n` steps after `ck`. -/
def chainAt (ck : K.ChainKey) (n : Nat) : K.ChainKey := K.nextChainKey^[n] ck

/-- The message key of the message `n` steps after `ck`. -/
def keyAt (ck : K.ChainKey) (n : Nat) : K.MessageKey := K.messageKeyOf (K.chainAt ck n)

/-- The root key after the DH outputs `dhs` were mixed in, oldest first. -/
def rootAt (rk : K.RootKey) (dhs : List (ByteArr 32)) : K.RootKey :=
  dhs.foldl (fun rk d => (K.kdfRK rk d).1) rk

variable (ck : K.ChainKey)

theorem chainAt_succ (n : Nat) : K.chainAt ck (n + 1) = K.nextChainKey (K.chainAt ck n) :=
  iterate_succ_apply' _ _ _

theorem chainAt_next (n : Nat) :
    K.chainAt (K.nextChainKey ck) n = K.chainAt ck (n + 1) := rfl

theorem chainAt_chainAt (m n : Nat) : K.chainAt (K.chainAt ck m) n = K.chainAt ck (m + n) := by
  rw [Nat.add_comm]
  exact (iterate_add_apply _ _ _ _).symm

theorem keyAt_chainAt (m n : Nat) : K.keyAt (K.chainAt ck m) n = K.keyAt ck (m + n) := by
  rw [keyAt, chainAt_chainAt, keyAt]

theorem rootAt_concat (rk : K.RootKey) (dhs : List (ByteArr 32)) (d : ByteArr 32) :
    K.rootAt rk (dhs ++ [d]) = (K.kdfRK (K.rootAt rk dhs) d).1 :=
  foldl_concat _ _ _ _

end Suite

/-! ## Ideal key derivation -/

/-- The symbolic assumptions on `KDF_CK` and `KDF_RK`: they are injective, no root key is
derived from itself, and their outputs are disjoint, from each other and from the zero
chain key. -/
structure IdealKdf (K : Suite) : Prop where
  next_inj : Injective K.nextChainKey
  key_inj : Injective K.messageKeyOf
  root_inj : ∀ rk d rk' d', (K.kdfRK rk d).1 = (K.kdfRK rk' d').1 → rk = rk' ∧ d = d'
  chain_inj : ∀ rk d rk' d', (K.kdfRK rk d).2 = (K.kdfRK rk' d').2 → rk = rk' ∧ d = d'
  root_acyclic : ∀ rk dhs, dhs ≠ [] → K.rootAt rk dhs ≠ rk
  chain_origin : ∀ rk d, OneWay.Origin K.nextChainKey (K.kdfRK rk d).2
  zero_origin : OneWay.Origin K.nextChainKey K.zeroChainKey
  zero_ne : ∀ rk d, (K.kdfRK rk d).2 ≠ K.zeroChainKey

/-- The shared secrets of sessions are symbolic too: different secrets make different root
keys, and no root key that `KDF_RK` derives is one of them. -/
structure IdealSecrets (K : Suite) : Prop where
  secret_inj : Injective K.rootKeyOf
  secret_origin : ∀ secret rk d, (K.kdfRK rk d).1 ≠ K.rootKeyOf secret

/-- Root keys of sessions with different secrets never agree. -/
theorem IdealKdf.rootAt_inj {K : Suite} (hK : IdealKdf K) (hsec : IdealSecrets K)
    {secret secret' : ByteArr 32} {dhs dhs' : List (ByteArr 32)}
    (h : K.rootAt (K.rootKeyOf secret) dhs = K.rootAt (K.rootKeyOf secret') dhs') :
    secret = secret' :=
  hsec.secret_inj (OneWay.foldl_origin_inj hK.root_inj (hsec.secret_origin secret)
    (hsec.secret_origin secret') h).1

theorem IdealKdf.keyAt_inj {K : Suite} (hK : IdealKdf K) {o o' : K.ChainKey}
    (ho : OneWay.Origin K.nextChainKey o) (ho' : OneWay.Origin K.nextChainKey o') {m n : Nat}
    (h : K.keyAt o m = K.keyAt o' n) : o = o' ∧ m = n :=
  OneWay.iterate_origin_inj hK.next_inj ho ho' (hK.key_inj h)

/-- Root keys as terms: a shared secret, or one `KDF_RK` step. -/
inductive RootTerm
  | secret (s : ByteArr 32)
  | step (rk : RootTerm) (d : ByteArr 32)
deriving DecidableEq

/-- Chain keys as terms: the zero value, a chain started by `KDF_RK`, or one `KDF_CK`
step. -/
inductive ChainTerm
  | zero
  | start (rk : RootTerm) (d : ByteArr 32)
  | next (ck : ChainTerm)
deriving DecidableEq

/-- A root term as bytes, in prefix order. -/
def RootTerm.toBytes : RootTerm → Bytes
  | .secret s => 0 :: s.bytes
  | .step rk d => 1 :: (rk.toBytes ++ d.bytes)

/-- A chain term as bytes, in prefix order. -/
def ChainTerm.toBytes : ChainTerm → Bytes
  | .zero => [0]
  | .start rk d => 1 :: (rk.toBytes ++ d.bytes)
  | .next ck => 2 :: ck.toBytes

theorem RootTerm.toBytes_append_inj {t t' : RootTerm} {r r' : Bytes}
    (h : t.toBytes ++ r = t'.toBytes ++ r') : t = t' ∧ r = r' := by
  induction t generalizing t' r r' with
  | secret s =>
    cases t' with
    | secret s' =>
      simp only [toBytes, cons_append, cons.injEq, true_and] at h
      obtain ⟨hs, hr⟩ := append_inj h (by simp)
      exact ⟨congrArg _ (ByteArr.ext hs), hr⟩
    | step rk' d' => simp [toBytes] at h
  | step rk d ih =>
    cases t' with
    | secret s' => simp [toBytes] at h
    | step rk' d' =>
      simp only [toBytes, cons_append, append_assoc, cons.injEq, true_and] at h
      obtain ⟨rfl, htail⟩ := ih h
      obtain ⟨hd, hr⟩ := append_inj htail (by simp)
      exact ⟨congrArg _ (ByteArr.ext hd), hr⟩

/-- The byte form of a chain term can be read back from the front of any string. -/
theorem ChainTerm.toBytes_append_inj {t t' : ChainTerm} {r r' : Bytes}
    (h : t.toBytes ++ r = t'.toBytes ++ r') : t = t' ∧ r = r' := by
  induction t generalizing t' r r' with
  | zero =>
    cases t' with
    | zero => exact ⟨rfl, by simpa [toBytes] using h⟩
    | start rk' d' => simp [toBytes] at h
    | next ck' => simp [toBytes] at h
  | start rk d =>
    cases t' with
    | zero => simp [toBytes] at h
    | start rk' d' =>
      simp only [toBytes, cons_append, append_assoc, cons.injEq, true_and] at h
      obtain ⟨rfl, htail⟩ := RootTerm.toBytes_append_inj h
      obtain ⟨hd, hr⟩ := append_inj htail (by simp)
      exact ⟨congrArg _ (ByteArr.ext hd), hr⟩
    | next ck' => simp [toBytes] at h
  | next ck ih =>
    cases t' with
    | zero => simp [toBytes] at h
    | start rk' d' => simp [toBytes] at h
    | next ck' =>
      simp only [toBytes, cons_append, cons.injEq, true_and] at h
      obtain ⟨rfl, hr⟩ := ih h
      exact ⟨rfl, hr⟩

/-- Bytewise sum, a commutative stand-in for the group operation of X25519. -/
def byteSum (a b : ByteArr 32) : ByteArr 32 :=
  ⟨zipWith (· + ·) a.bytes b.bytes, by simp⟩

theorem byteSum_comm (a b : ByteArr 32) : byteSum a b = byteSum b a := by
  apply ByteArr.ext
  exact zipWith_comm_of_comm UInt8.add_comm

/-- The suite whose keys are terms. A sealed text carries its key in front. -/
def freeSuite : Suite where
  RootKey := RootTerm
  ChainKey := ChainTerm
  MessageKey := ChainTerm
  zeroChainKey := .zero
  rootKeyOf := .secret
  kdfRK := fun rk d => (.step rk d, .start rk d)
  kdfCK := fun ck => (.next ck, ck)
  scalarMult := byteSum
  scalarBaseMult := id
  hkdf := fun secret _ _ => ofSlice 32 secret
  gcmSeal := fun _ plaintext key => key.toBytes ++ plaintext
  gcmOpen := fun _ sealed key =>
    if key.toBytes <+: sealed then some (sealed.drop key.toBytes.length) else none

theorem freeSuite_dhCommutes : freeSuite.DHCommutes := fun a b => byteSum_comm a b

/-- How many `KDF_RK` steps a root term has. -/
def RootTerm.depth : RootTerm → Nat
  | .secret _ => 0
  | .step rk _ => rk.depth + 1

theorem depth_rootAt (rk : freeSuite.RootKey) (dhs : List (ByteArr 32)) :
    RootTerm.depth (freeSuite.rootAt rk dhs) = RootTerm.depth rk + dhs.length := by
  induction dhs using reverseRecOn with
  | nil => rfl
  | append_singleton dhs d ih =>
    rw [Suite.rootAt_concat, length_append, ← Nat.add_assoc, ← ih]
    rfl

/-- The symbolic assumptions have an instance. -/
theorem freeSuite_ideal : IdealKdf freeSuite where
  next_inj := fun _ _ h => ChainTerm.next.inj h
  key_inj := fun _ _ h => h
  root_inj := fun _ _ _ _ h => RootTerm.step.inj h
  chain_inj := fun _ _ _ _ h => ChainTerm.start.inj h
  root_acyclic := by
    intro rk dhs hne h
    have hdepth := depth_rootAt rk dhs
    rw [h] at hdepth
    have := length_pos_of_ne_nil hne
    omega
  chain_origin := fun _ _ _ h => ChainTerm.noConfusion h
  zero_origin := fun _ h => ChainTerm.noConfusion h
  zero_ne := fun _ _ h => ChainTerm.noConfusion h

/-- How many `KDF_CK` steps a chain term has. -/
def ChainTerm.depth : ChainTerm → Nat
  | .zero => 0
  | .start _ _ => 0
  | .next ck => ck.depth + 1

theorem depth_chainAt (ck : freeSuite.ChainKey) (n : Nat) :
    ChainTerm.depth (freeSuite.chainAt ck n) = ChainTerm.depth ck + n := by
  induction n with
  | zero => rfl
  | succ n ih =>
    rw [Suite.chainAt_succ, ← Nat.add_assoc, ← ih]
    rfl

theorem freeSuite_keyAt_injective (ck : freeSuite.ChainKey) : Injective (freeSuite.keyAt ck) := by
  intro m n h
  have hdepth : ChainTerm.depth (freeSuite.chainAt ck m) =
      ChainTerm.depth (freeSuite.chainAt ck n) := congrArg ChainTerm.depth h
  rw [depth_chainAt, depth_chainAt] at hdepth
  omega

theorem freeSuite_secrets : IdealSecrets freeSuite where
  secret_inj := fun _ _ h => RootTerm.secret.inj h
  secret_origin := fun _ _ _ h => RootTerm.noConfusion h

end Zentalk
