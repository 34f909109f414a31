import Zentalk.Protocol.Ratchet

/-!
# X3DH key agreement

`x3dhResponder_agrees`: both sides compute the same secret.
-/

namespace Zentalk

open Wire Option ByteArr

/-! ## Keys and bundles -/

/-- A long-term identity: an Ed25519 pair for signatures and an X25519 pair for DH. -/
structure IdentityKeyPair where
  publicKey : ByteArr 32
  privateKey : ByteArr 64
  dhPublic : ByteArr 32
  dhPrivate : ByteArr 32

/-- The public part of a signed prekey. -/
structure SignedPreKey where
  keyID : UInt32
  publicKey : ByteArr 32
  signature : ByteArr 64
  timestamp : UInt64

/-- A signed prekey with its private key. -/
structure SignedPreKeyPrivate where
  keyID : UInt32
  publicKey : ByteArr 32
  privateKey : ByteArr 32
  signature : ByteArr 64
  timestamp : UInt64

/-- The public part of a one-time prekey. -/
structure OneTimePreKey where
  keyID : UInt32
  publicKey : ByteArr 32

/-- A one-time prekey with its private key. -/
structure OneTimePreKeyPrivate where
  keyID : UInt32
  publicKey : ByteArr 32
  privateKey : ByteArr 32

/-- The responder's pool of one-time prekeys, by key ID. -/
abbrev PreKeyPool := Finmap fun _ : UInt32 => OneTimePreKeyPrivate

/-- The public keys a user publishes. -/
structure KeyBundle where
  address : Address
  identityKey : ByteArr 32
  signedPreKey : SignedPreKey
  oneTimePreKeys : List OneTimePreKey
  registrationID : UInt32

/-- What the initiator sends to establish a session. -/
@[ext] structure InitialMessage where
  senderAddress : Address
  identityKey : ByteArr 32
  ephemeralKey : ByteArr 32
  usedSignedPreKeyID : UInt32
  usedOneTimePreKeyID : UInt32
  ciphertext : Bytes

def createKeyBundle (address : Address) (identityKey : IdentityKeyPair)
    (signedPreKey : SignedPreKeyPrivate) (oneTimePreKeys : List OneTimePreKeyPrivate)
    (registrationID : UInt32) : KeyBundle :=
  { address := address
    identityKey := identityKey.dhPublic
    registrationID := registrationID
    signedPreKey :=
      { keyID := signedPreKey.keyID
        publicKey := signedPreKey.publicKey
        signature := signedPreKey.signature
        timestamp := signedPreKey.timestamp }
    oneTimePreKeys := oneTimePreKeys.map fun opk =>
      { keyID := opk.keyID, publicKey := opk.publicKey } }

/-! ## The agreement -/

variable {K : Suite}

def x3dhInfo : Bytes := asciiBytes "ZenTalk X3DH Key Agreement"

/-- HKDF over the concatenated DH outputs; the fourth is there only when a one-time prekey was used.
-/
def x3dhSecret (K : Suite) (dh1 dh2 dh3 : ByteArr 32) (dh4 : Option (ByteArr 32)) : ByteArr 32 :=
  let dhConcat := dh1.bytes ++ dh2.bytes ++ dh3.bytes ++
    match dh4 with
    | some d => d.bytes
    | none => []
  K.hkdf dhConcat (List.replicate 32 0) x3dhInfo

structure InitiatorOutput where
  sharedSecret : ByteArr 32
  ephemeralPrivate : ByteArr 32
  ephemeralPublic : ByteArr 32
  initialMsg : InitialMessage

/-- `X3DHInitiator`. The signed prekey is not verified. -/
def x3dhInitiator (K : Suite) (senderAddress : Address) (aliceIdentity : IdentityKeyPair)
    (bobBundle : KeyBundle) (rand : Except String (ByteArr 32)) :
    Except String InitiatorOutput :=
  match rand with
  | .error e => .error e
  | .ok ephemeralPrivate =>
    let ephemeralPublic := K.scalarBaseMult ephemeralPrivate
    let dh1 := K.scalarMult aliceIdentity.dhPrivate bobBundle.signedPreKey.publicKey
    let dh2 := K.scalarMult ephemeralPrivate bobBundle.identityKey
    let dh3 := K.scalarMult ephemeralPrivate bobBundle.signedPreKey.publicKey
    let opk := bobBundle.oneTimePreKeys.head?
    let dh4 := opk.map fun k => K.scalarMult ephemeralPrivate k.publicKey
    .ok
      { sharedSecret := x3dhSecret K dh1 dh2 dh3 dh4
        ephemeralPrivate := ephemeralPrivate
        ephemeralPublic := ephemeralPublic
        initialMsg :=
          { senderAddress := senderAddress
            identityKey := aliceIdentity.dhPublic
            ephemeralKey := ephemeralPublic
            usedSignedPreKeyID := bobBundle.signedPreKey.keyID
            usedOneTimePreKeyID := (opk.map OneTimePreKey.keyID).getD 0
            ciphertext := [] } }

/-- `X3DHResponder` without the deletion. The ID of the signed prekey is not looked at. -/
def responderSecret (K : Suite) (bobIdentity : IdentityKeyPair)
    (bobSignedPreKey : SignedPreKeyPrivate) (usedOPK : Option OneTimePreKeyPrivate)
    (initialMsg : InitialMessage) : ByteArr 32 :=
  let dh1 := K.scalarMult bobSignedPreKey.privateKey initialMsg.identityKey
  let dh2 := K.scalarMult bobIdentity.dhPrivate initialMsg.ephemeralKey
  let dh3 := K.scalarMult bobSignedPreKey.privateKey initialMsg.ephemeralKey
  let dh4 := usedOPK.map fun k => K.scalarMult k.privateKey initialMsg.ephemeralKey
  x3dhSecret K dh1 dh2 dh3 dh4

/-- `X3DHResponder`: the pool it leaves and the shared secret. -/
def x3dhResponder (K : Suite) (bobIdentity : IdentityKeyPair)
    (bobSignedPreKey : SignedPreKeyPrivate) (bobOneTimePreKeys : PreKeyPool)
    (initialMsg : InitialMessage) : PreKeyPool × Except String (ByteArr 32) :=
  if initialMsg.usedOneTimePreKeyID ≠ 0 then
    match bobOneTimePreKeys.lookup initialMsg.usedOneTimePreKeyID with
    | none =>
      (bobOneTimePreKeys,
        .error ("one-time prekey not found: " ++ toString initialMsg.usedOneTimePreKeyID))
    | some usedOPK =>
      (bobOneTimePreKeys.erase initialMsg.usedOneTimePreKeyID,
        .ok (responderSecret K bobIdentity bobSignedPreKey (some usedOPK) initialMsg))
  else
    (bobOneTimePreKeys, .ok (responderSecret K bobIdentity bobSignedPreKey none initialMsg))

/-! ## The initial message on the wire -/

namespace InitialMessage

def encode (im : InitialMessage) : Bytes :=
  im.senderAddress.bytes ++ (im.identityKey.bytes ++ (im.ephemeralKey.bytes ++
    (putUint32 im.usedSignedPreKeyID ++ (putUint32 im.usedOneTimePreKeyID ++
      (putUint32 (UInt32.ofNat im.ciphertext.length) ++ im.ciphertext)))))

def decode (buf : Bytes) : Except String InitialMessage :=
  if buf.length < 20 + 32 + 32 + 4 + 4 + 4 then
    .error "buffer too short for initial message"
  else
    let ciphertextLen := (getUint32 (slice buf 92 4)).toNat
    if buf.length < 96 + ciphertextLen then .error "buffer too short for ciphertext"
    else .ok
      { senderAddress := ofSlice 20 (slice buf 0 20)
        identityKey := ofSlice 32 (slice buf 20 32)
        ephemeralKey := ofSlice 32 (slice buf 52 32)
        usedSignedPreKeyID := getUint32 (slice buf 84 4)
        usedOneTimePreKeyID := getUint32 (slice buf 88 4)
        ciphertext := slice buf 96 ciphertextLen }

@[simp] theorem length_encode (im : InitialMessage) :
    im.encode.length = 96 + im.ciphertext.length := by
  simp [encode]
  omega

variable {im : InitialMessage}

/-- An initial message is read back from its encoding, whatever follows it. -/
theorem decode_append (hlen : im.ciphertext.length < 2 ^ 32) (t : Bytes) :
    decode (im.encode ++ t) = .ok im := by
  have hcount : (UInt32.ofNat im.ciphertext.length).toNat = im.ciphertext.length :=
    UInt32.toNat_ofNat_of_lt' hlen
  have hfield : slice (im.encode ++ t) 92 4 = putUint32 (UInt32.ofNat im.ciphertext.length) := by
    simp (disch := simp) only [encode, List.append_assoc, slice_append_right, slice_append_left,
      length_bytes, length_putUint32, Nat.reduceSub]
  have hsize : (im.encode ++ t).length = 96 + im.ciphertext.length + t.length := by simp
  rw [decode, if_neg (by omega), hfield]
  simp only [getUint32_putUint32, hcount]
  rw [if_neg (by omega)]
  simp (disch := simp) only [encode, List.append_assoc, slice_append_right, slice_append_left,
    length_bytes, length_putUint32, Nat.reduceSub, ofSlice_bytes,
    getUint32_putUint32]

theorem decode_encode (hlen : im.ciphertext.length < 2 ^ 32) : decode im.encode = .ok im := by
  simpa using im.decode_append hlen []

end InitialMessage

/-! ## Both ends agree -/

def IdentityKeyPair.Valid (K : Suite) (k : IdentityKeyPair) : Prop :=
  k.dhPublic = K.scalarBaseMult k.dhPrivate

def SignedPreKeyPrivate.Valid (K : Suite) (k : SignedPreKeyPrivate) : Prop :=
  k.publicKey = K.scalarBaseMult k.privateKey

def OneTimePreKeyPrivate.Valid (K : Suite) (k : OneTimePreKeyPrivate) : Prop :=
  k.publicKey = K.scalarBaseMult k.privateKey

def PreKeyPool.without (pool : PreKeyPool) (used : Option OneTimePreKeyPrivate) : PreKeyPool :=
  match used with
  | some k => pool.erase k.keyID
  | none => pool

theorem x3dhInitiator_bundle (address bobAddress : Address) (alice bob : IdentityKeyPair)
    (spk : SignedPreKeyPrivate) (opks : List OneTimePreKeyPrivate) (regID : UInt32)
    (eph : ByteArr 32) :
    x3dhInitiator K address alice (createKeyBundle bobAddress bob spk opks regID) (.ok eph) = .ok
      { sharedSecret := x3dhSecret K (K.scalarMult alice.dhPrivate spk.publicKey)
          (K.scalarMult eph bob.dhPublic) (K.scalarMult eph spk.publicKey)
          (opks.head?.map fun k => K.scalarMult eph k.publicKey)
        ephemeralPrivate := eph
        ephemeralPublic := K.scalarBaseMult eph
        initialMsg :=
          { senderAddress := address
            identityKey := alice.dhPublic
            ephemeralKey := K.scalarBaseMult eph
            usedSignedPreKeyID := spk.keyID
            usedOneTimePreKeyID := (opks.head?.map OneTimePreKeyPrivate.keyID).getD 0
            ciphertext := [] } } := by
  cases opks <;> rfl

/-- A responder that holds the keys of the bundle computes the initiator's secret, and removes
exactly the one-time prekey that was used. -/
theorem x3dhResponder_agrees (hdh : K.DHCommutes) {address bobAddress : Address}
    {alice bob : IdentityKeyPair} {spk : SignedPreKeyPrivate} {opks : List OneTimePreKeyPrivate}
    {pool : PreKeyPool} {regID : UInt32} {rand : Except String (ByteArr 32)}
    {out : InitiatorOutput} (halice : alice.Valid K) (hbob : bob.Valid K) (hspk : spk.Valid K)
    (hopk : ∀ k, opks.head? = some k →
      k.Valid K ∧ k.keyID ≠ 0 ∧ pool.lookup k.keyID = some k)
    (hinit : x3dhInitiator K address alice (createKeyBundle bobAddress bob spk opks regID) rand =
      .ok out) :
    x3dhResponder K bob spk pool out.initialMsg =
      (pool.without opks.head?, .ok out.sharedSecret) := by
  cases rand with
  | error e => cases hinit
  | ok eph =>
    rw [x3dhInitiator_bundle] at hinit
    cases hinit
    -- each DH output, computed with the roles swapped
    have h1 : K.scalarMult alice.dhPrivate spk.publicKey =
        K.scalarMult spk.privateKey alice.dhPublic := by
      rw [hspk, halice]; exact hdh _ _
    have h2 : K.scalarMult eph bob.dhPublic =
        K.scalarMult bob.dhPrivate (K.scalarBaseMult eph) := by
      rw [hbob]; exact hdh _ _
    have h3 : K.scalarMult eph spk.publicKey =
        K.scalarMult spk.privateKey (K.scalarBaseMult eph) := by
      rw [hspk]; exact hdh _ _
    cases hhead : opks.head? with
    | none =>
      simp only [x3dhResponder, responderSecret, PreKeyPool.without, map_none,
        getD_none, ne_eq, not_true_eq_false, if_false, h1, h2, h3]
    | some k =>
      obtain ⟨hk, hid, hheld⟩ := hopk k hhead
      have h4 : K.scalarMult eph k.publicKey =
          K.scalarMult k.privateKey (K.scalarBaseMult eph) := by
        rw [hk]; exact hdh _ _
      simp only [x3dhResponder, responderSecret, PreKeyPool.without, map_some,
        getD_some, ne_eq, hid, not_false_eq_true, if_true, hheld, h1, h2, h3, h4]

end Zentalk
