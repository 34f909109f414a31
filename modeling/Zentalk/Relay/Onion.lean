import Zentalk.Lib.Reader
import Zentalk.Protocol.Keys

/-!
# Onion layers

The cryptography and JSON are parameters (`OnionSuite.RoundTrips`, `buildLayer_decrypts`).
-/

namespace Zentalk

open Wire UInt16

structure OnionLayer where
  nextHop : Address
  payload : Bytes
  payloadHash : ByteArr 32

/-- What `onion.go` takes from other packages. -/
structure OnionSuite where
  PublicKey : Type
  /-- A key that `GenerateRSAKeyPair` makes. -/
  PrivateKey : Type
  /-- What `rsa.EncryptOAEP` reads from its source of randomness. -/
  Seed : Type
  publicKey : PrivateKey → PublicKey
  /-- `rsa.EncryptOAEP` with SHA-256 and no label. -/
  encryptOAEP : Seed → Bytes → PublicKey → Option Bytes
  decryptOAEP : Bytes → PrivateKey → Option Bytes
  /-- `gcm.Seal` under a nonce, without the nonce that the caller puts in front. -/
  gcmSeal : ByteArr 12 → Bytes → Bytes → Bytes
  /-- `gcm.Open`; `none` when the tag does not verify. -/
  gcmOpen : ByteArr 12 → Bytes → Bytes → Option Bytes
  /-- `Hash`, which is BLAKE2b-256 and does not fail. -/
  hash : Bytes → ByteArr 32
  /-- `json.Marshal`. -/
  marshal : OnionLayer → Except String Bytes
  /-- `json.Unmarshal`. -/
  unmarshal : Bytes → Option OnionLayer

structure RelayInfo (S : OnionSuite) where
  address : Address
  publicKey : S.PublicKey

/-- What the sources of randomness answer while one layer is built. -/
structure LayerRand (S : OnionSuite) where
  aesKey : Except String (ByteArr 32)
  nonce : Except String (ByteArr 12)
  seed : S.Seed

/-! ## Encryption -/

variable {S : OnionSuite}

def rsaEncrypt (seed : S.Seed) (data : Bytes) (publicKey : S.PublicKey) : Except String Bytes :=
  match S.encryptOAEP seed data publicKey with
  | none => .error "encryption failed"
  | some ciphertext => .ok ciphertext

def rsaDecrypt (ciphertext : Bytes) (privateKey : S.PrivateKey) : Except String Bytes :=
  match S.decryptOAEP ciphertext privateKey with
  | none => .error "decryption failed"
  | some plaintext => .ok plaintext

/-- `aes.NewCipher`. -/
def newCipher (key : Bytes) : Except String Unit :=
  if key.length = 16 ∨ key.length = 24 ∨ key.length = 32 then .ok ()
  else .error ("crypto/aes: invalid key size " ++ toString key.length)

variable (S) in
def aesEncrypt (rand : Except String (ByteArr 12)) (plaintext key : Bytes) :
    Except String Bytes := do
  newCipher key
  let nonce ← rand
  return nonce.bytes ++ S.gcmSeal nonce plaintext key

variable (S) in
def aesDecrypt (ciphertext key : Bytes) : Except String Bytes := do
  newCipher key
  if ciphertext.length < 12 then .error "ciphertext too short"
  else
    match S.gcmOpen (ByteArr.ofSlice 12 (slice ciphertext 0 12)) (ciphertext.drop 12) key with
    | none => .error "cipher: message authentication failed"
    | some plaintext => return plaintext

variable (S) in
def verifyHash (data expectedHash : Bytes) : Bool := decide ((S.hash data).bytes = expectedHash)

/-! ## Building an onion -/

/-- The encrypted key and the encrypted data, behind the length of the key in two bytes. -/
def combine (encryptedKey encryptedData : Bytes) : Bytes :=
  putUint 2 (UInt16.ofNat encryptedKey.length).toNat ++ (encryptedKey ++ encryptedData)

/-- One round of the loop of `BuildOnionLayers`. -/
def buildLayer (rand : LayerRand S) (relay : RelayInfo S) (nextHop : Address)
    (currentPayload : Bytes) : Except String Bytes := do
  let layerJSON ← S.marshal ⟨nextHop, currentPayload, S.hash currentPayload⟩
  let aesKey ← rand.aesKey
  let encryptedData ← aesEncrypt S rand.nonce layerJSON aesKey.bytes
  let encryptedKey ← rsaEncrypt rand.seed aesKey.bytes relay.publicKey
  return combine encryptedKey encryptedData

/-- The next hop of a relay, given the relays after it. -/
def nextHopOf (recipientAddr : Address) : List (RelayInfo S) → Address
  | [] => recipientAddr
  | next :: _ => next.address

/-- The loop of `BuildOnionLayers` for the relays from index `i` on. It runs from the last relay to
the first. -/
def buildFrom (rand : ℕ → LayerRand S) (recipientAddr : Address) (finalPayload : Bytes) :
    ℕ → List (RelayInfo S) → Except String Bytes
  | _, [] => .ok finalPayload
  | i, relay :: rest => do
    let currentPayload ← buildFrom rand recipientAddr finalPayload (i + 1) rest
    buildLayer (rand i) relay (nextHopOf recipientAddr rest) currentPayload

def buildOnionLayers (rand : ℕ → LayerRand S) (path : List (RelayInfo S)) (recipientAddr : Address)
    (finalPayload : Bytes) : Except String Bytes :=
  if path.length = 0 then .error "invalid path"
  else buildFrom rand recipientAddr finalPayload 0 path

/-! ## Taking a layer off -/

/-- `DecryptOnionLayer` behind the split into key and data. -/
def openLayer (encryptedKey encryptedData : Bytes) (privateKey : S.PrivateKey) :
    Except String OnionLayer := do
  let aesKey ← rsaDecrypt encryptedKey privateKey
  let decrypted ← aesDecrypt S encryptedData aesKey
  match S.unmarshal decrypted with
  | none => .error "invalid onion layer"
  | some layer =>
    if verifyHash S layer.payload layer.payloadHash.bytes then return layer
    else .error "payload hash mismatch"

def decryptOnionLayer (encryptedLayer : Bytes) (privateKey : S.PrivateKey) :
    Except Fault OnionLayer :=
  if encryptedLayer.length < 2 then .error (.error "encrypted layer too short")
  else
    let keyLen := UInt16.ofNat (getUint (slice encryptedLayer 0 2))
    -- `2+keyLen` is computed in `uint16`
    let keyEnd := 2 + keyLen
    if encryptedLayer.length < keyEnd.toNat then .error (.error "encrypted layer incomplete")
    else if keyEnd < 2 then .error .panic
    else
      (openLayer (slice encryptedLayer 2 (keyEnd.toNat - 2)) (encryptedLayer.drop keyEnd.toNat)
        privateKey).mapError Fault.error

/-! ## What is assumed -/

/-- `gcm.Open` undoes `gcm.Seal` under the same nonce and key. -/
def OnionSuite.GcmOpens (S : OnionSuite) : Prop :=
  ∀ (nonce : ByteArr 12) (plaintext : Bytes) (key : ByteArr 32),
    S.gcmOpen nonce (S.gcmSeal nonce plaintext key.bytes) key.bytes = some plaintext

/-- RSA-OAEP decrypts what it encrypts of an AES key, with a ciphertext shorter than 65534 bytes,
`gcm.Open` undoes `gcm.Seal`, and `json.Unmarshal` undoes `json.Marshal`. -/
structure OnionSuite.RoundTrips (S : OnionSuite) : Prop where
  rsa : ∀ (seed : S.Seed) (key : ByteArr 32) (privateKey : S.PrivateKey), ∃ ciphertext,
    S.encryptOAEP seed key.bytes (S.publicKey privateKey) = some ciphertext ∧
      ciphertext.length < 65534 ∧ S.decryptOAEP ciphertext privateKey = some key.bytes
  gcm : ∀ (nonce : ByteArr 12) (plaintext : Bytes) (key : ByteArr 32),
    S.gcmOpen nonce (S.gcmSeal nonce plaintext key.bytes) key.bytes = some plaintext
  json : ∀ layer, ∃ encoded, S.marshal layer = .ok encoded ∧ S.unmarshal encoded = some layer

structure LayerRand.Answers (rand : LayerRand S) : Prop where
  aesKey : ∃ key, rand.aesKey = .ok key
  nonce : ∃ nonce, rand.nonce = .ok nonce

/-! ## One layer -/

theorem newCipher_ok (key : ByteArr 32) : newCipher key.bytes = .ok () := by
  simp [newCipher]

theorem aesEncrypt_ok (nonce : ByteArr 12) (plaintext : Bytes) (key : ByteArr 32) :
    aesEncrypt S (.ok nonce) plaintext key.bytes =
      .ok (nonce.bytes ++ S.gcmSeal nonce plaintext key.bytes) := by
  rw [aesEncrypt, newCipher_ok]
  rfl

theorem aesDecrypt_seal (h : S.GcmOpens) (nonce : ByteArr 12) (plaintext : Bytes)
    (key : ByteArr 32) :
    aesDecrypt S (nonce.bytes ++ S.gcmSeal nonce plaintext key.bytes) key.bytes =
      .ok plaintext := by
  have hlen : ¬ (nonce.bytes ++ S.gcmSeal nonce plaintext key.bytes).length < 12 := by
    rw [List.length_append, nonce.size_eq]
    omega
  have hnonce : slice (nonce.bytes ++ S.gcmSeal nonce plaintext key.bytes) 0 12 = nonce.bytes :=
    slice_append_left nonce.size_eq _
  have hrest : (nonce.bytes ++ S.gcmSeal nonce plaintext key.bytes).drop 12 =
      S.gcmSeal nonce plaintext key.bytes := List.drop_left' nonce.size_eq
  rw [aesDecrypt, newCipher_ok, if_neg hlen, hnonce, hrest, ByteArr.ofSlice_bytes, h]
  rfl

theorem verifyHash_hash (data : Bytes) : verifyHash S data (S.hash data).bytes = true := by
  simp [verifyHash]

/-- The bound keeps `2+keyLen` from wrapping. -/
theorem decryptOnionLayer_combine {encryptedKey : Bytes} (hkey : encryptedKey.length < 65534)
    (encryptedData : Bytes) (privateKey : S.PrivateKey) :
    decryptOnionLayer (combine encryptedKey encryptedData) privateKey =
      (openLayer encryptedKey encryptedData privateKey).mapError Fault.error := by
  have hlen : (combine encryptedKey encryptedData).length =
      2 + (encryptedKey.length + encryptedData.length) := by
    simp [combine]
  have hwidth : (ofNat encryptedKey.length).toNat = encryptedKey.length :=
    toNat_ofNat_of_lt' (hkey.trans (by decide))
  have hkeyLen : ofNat (getUint (slice (combine encryptedKey encryptedData) 0 2)) =
      ofNat encryptedKey.length := by
    have hslice : slice (combine encryptedKey encryptedData) 0 2 = putUint 2 _ :=
      slice_append_left (length_putUint 2 _) _
    rw [hslice, getUint_putUint, hwidth, Nat.mod_eq_of_lt (by omega)]
  have hend : (2 + ofNat encryptedKey.length).toNat = 2 + encryptedKey.length := by
    rw [UInt16.toNat_add, hwidth]
    have hsmall : 2 + encryptedKey.length < 2 ^ 16 := by omega
    exact Nat.mod_eq_of_lt hsmall
  have hnowrap : ¬ 2 + ofNat encryptedKey.length < 2 := by
    rw [lt_iff_toNat_lt, hend]
    exact Nat.not_lt.mpr (Nat.le_add_right 2 _)
  have hkeyBytes : slice (combine encryptedKey encryptedData) 2 encryptedKey.length =
      encryptedKey := by
    exact slice_append_left rfl _
  have hdata : (combine encryptedKey encryptedData).drop (2 + encryptedKey.length) =
      encryptedData := by
    rw [combine, ← List.append_assoc]
    exact List.drop_left' (by simp)
  have hshort : ¬ (combine encryptedKey encryptedData).length < 2 := by omega
  have hincomplete : ¬ (combine encryptedKey encryptedData).length < 2 + encryptedKey.length := by
    omega
  simp only [decryptOnionLayer, hkeyLen, hend, if_neg hshort, if_neg hincomplete, if_neg hnowrap,
    Nat.add_sub_cancel_left, hkeyBytes, hdata]

/-- The relay whose key a layer is built for gets back the next hop and the payload. -/
theorem buildLayer_decrypts (hsuite : S.RoundTrips) {rand : LayerRand S} (hrand : rand.Answers)
    {relay : RelayInfo S} {privateKey : S.PrivateKey}
    (hkey : relay.publicKey = S.publicKey privateKey) (nextHop : Address) (payload : Bytes) :
    ∃ encryptedLayer, buildLayer rand relay nextHop payload = .ok encryptedLayer ∧
      decryptOnionLayer encryptedLayer privateKey = .ok ⟨nextHop, payload, S.hash payload⟩ := by
  obtain ⟨encoded, hmarshal, hunmarshal⟩ := hsuite.json ⟨nextHop, payload, S.hash payload⟩
  obtain ⟨aesKey, haesKey⟩ := hrand.aesKey
  obtain ⟨nonce, hnonce⟩ := hrand.nonce
  obtain ⟨encryptedKey, hencrypt, hshort, hdecrypt⟩ := hsuite.rsa rand.seed aesKey privateKey
  have hrsaEncrypt : rsaEncrypt rand.seed aesKey.bytes relay.publicKey = .ok encryptedKey := by
    rw [rsaEncrypt, hkey, hencrypt]
  have hrsaDecrypt : rsaDecrypt encryptedKey privateKey = .ok aesKey.bytes := by
    rw [rsaDecrypt, hdecrypt]
  refine ⟨combine encryptedKey (nonce.bytes ++ S.gcmSeal nonce encoded aesKey.bytes), ?_, ?_⟩
  · simp only [buildLayer, bind, Except.bind, hmarshal, haesKey, hnonce, aesEncrypt_ok,
      hrsaEncrypt, pure, Except.pure]
  · have hopen : openLayer encryptedKey (nonce.bytes ++ S.gcmSeal nonce encoded aesKey.bytes)
        privateKey = .ok ⟨nextHop, payload, S.hash payload⟩ := by
      simp only [openLayer, bind, Except.bind, hrsaDecrypt, aesDecrypt_seal hsuite.gcm, hunmarshal,
        verifyHash_hash, if_true, pure, Except.pure]
    rw [decryptOnionLayer_combine hshort, hopen]
    rfl

end Zentalk
