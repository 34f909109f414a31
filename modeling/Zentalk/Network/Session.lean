import Zentalk.Protocol.X3dh

/-!
# The client's ratchet sessions

A session is a pointer: what is done to it is seen at once, also after an error. What is
assumed of AES-GCM can be met (`freeSuite_gcmOpens`).
-/

namespace Zentalk

open Wire

/-! ## Frames on the relay connection -/

/-- The protocol header of a frame. -/
structure Header where
  magic : UInt32
  version : UInt16
  type : UInt16
  length : UInt32
  flags : UInt16
  messageID : ByteArr 16
  reserved : UInt16

/-- The header of a `RelayForward` frame for an onion. -/
def relayForwardHeader (onion : Bytes) (messageID : ByteArr 16) : Header :=
  { magic := 0x5A54414C
    version := 0x0100
    type := 0x0100
    length := UInt32.ofNat onion.length
    flags := 0x0001
    messageID := messageID
    reserved := 0 }

/-- A frame the client started to write: its header, the payload inside the onion with the
address it is for, and the onion if it was written behind the header. -/
structure Frame where
  header : Header
  recipient : Address
  payload : Bytes
  onion : Option Bytes

def Frame.Complete (f : Frame) : Prop := f.onion.isSome

instance (f : Frame) : Decidable f.Complete := inferInstanceAs (Decidable (f.onion.isSome = true))

/-- What the outside answers while one frame is sent. -/
structure FrameEnv where
  buildOnion : Bytes → Except String Bytes
  messageID : ByteArr 16
  writeHeader : Except String Unit
  writeOnion : Except String Unit

/-- The common end of the send paths: wrap the payload in an onion, write the header, write the
onion. -/
def sendFrame (recipient : Address) (payload : Bytes) (env : FrameEnv) :
    List Frame × Except String Unit :=
  match env.buildOnion payload with
  | .error e => ([], .error e)
  | .ok onion =>
    let header := relayForwardHeader onion env.messageID
    match env.writeHeader with
    | .error e => ([], .error e)
    | .ok () =>
      match env.writeOnion with
      | .error e => ([⟨header, recipient, payload, none⟩], .error e)
      | .ok () => ([⟨header, recipient, payload, some onion⟩], .ok ())

/-! ## Payloads -/

variable {K : Suite}

/-- `AESEncryptGCM`; `rand` is what `rand.Read` answers for the nonce. -/
def aesEncryptGCM (rand : Except String (ByteArr 12)) (plaintext : Bytes) (key : K.MessageKey) :
    Except String Bytes :=
  match rand with
  | .error e => .error e
  | .ok nonce => .ok (nonce.bytes ++ K.gcmSeal nonce plaintext key)

def aesDecryptGCM (ciphertext : Bytes) (key : K.MessageKey) : Except String Bytes :=
  if ciphertext.length < 12 then .error "ciphertext too short"
  else
    match K.gcmOpen (ByteArr.ofSlice 12 (slice ciphertext 0 12)) (ciphertext.drop 12) key with
    | none => .error "cipher: message authentication failed"
    | some plaintext => .ok plaintext

/-- `gcm.Open` undoes `gcm.Seal` under the same nonce and key. -/
def Suite.GcmOpens (K : Suite) : Prop :=
  ∀ nonce plaintext key, K.gcmOpen nonce (K.gcmSeal nonce plaintext key) key = some plaintext

theorem aesDecryptGCM_seal (h : K.GcmOpens) (nonce : ByteArr 12) (plaintext : Bytes)
    (key : K.MessageKey) :
    aesDecryptGCM (nonce.bytes ++ K.gcmSeal nonce plaintext key) key = .ok plaintext := by
  have hlen : ¬ (nonce.bytes ++ K.gcmSeal nonce plaintext key).length < 12 := by
    rw [List.length_append, nonce.size_eq]
    omega
  have hnonce : slice (nonce.bytes ++ K.gcmSeal nonce plaintext key) 0 12 = nonce.bytes :=
    slice_append_left nonce.size_eq _
  have hrest : (nonce.bytes ++ K.gcmSeal nonce plaintext key).drop 12 =
      K.gcmSeal nonce plaintext key := List.drop_left' nonce.size_eq
  rw [aesDecryptGCM, if_neg hlen, hnonce, hrest, ByteArr.ofSlice_bytes, h]

theorem freeSuite_gcmOpens : freeSuite.GcmOpens := by
  intro nonce plaintext key
  simp only [freeSuite, List.prefix_append, if_true, List.drop_left]

/-- The marker in front of an initial message. -/
def x3dhMarker : Bytes := asciiBytes "X3DH"

def initialPayload (initialMsg : InitialMessage) : Bytes := x3dhMarker ++ initialMsg.encode

/-- The payload of a ratchet message: the header length, the header and the ciphertext. -/
def ratchetPayload (ratchetHeader ciphertext : Bytes) : Bytes :=
  putUint 2 ratchetHeader.length ++ (ratchetHeader ++ ciphertext)

/-! ## The client -/

abbrev SessionMap (K : Suite) := Finmap fun _ : Address => RatchetState K

/-- What `ratchet_sessions.gob` holds. -/
inductive SessionFile (K : Suite)
  | missing
  | sessions (m : SessionMap K)
  | corrupt

/-- How `saveAllRatchetSessions` ended: the file was written, not created, or cut off. -/
inductive WriteOutcome
  | written
  | notCreated (e : String)
  | cutOff (e : String)

/-- `LoadAllRatchetSessions`. -/
def SessionFile.load : SessionFile K → Except String (SessionMap K)
  | .missing => .ok ∅
  | .sessions m => .ok m
  | .corrupt => .error "failed to decode ratchet sessions"

def SessionFile.saveRatchetSession (file : SessionFile K) (addr : Address)
    (session : RatchetState K) (outcome : WriteOutcome) : SessionFile K × Except String Unit :=
  match file.load with
  | .error e => (file, .error e)
  | .ok loaded =>
    match outcome with
    | .written => (.sessions (loaded.insert addr session), .ok ())
    | .notCreated e => (file, .error ("failed to create ratchet sessions file: " ++ e))
    | .cutOff e => (.corrupt, .error ("failed to encode ratchet sessions: " ++ e))

/-- The fields of `Client` that the session code reads or writes. -/
structure Client (K : Suite) where
  address : Address
  connected : Bool
  x3dhIdentity : Option IdentityKeyPair
  signedPreKey : Option SignedPreKeyPrivate
  oneTimePreKeys : PreKeyPool
  ratchetSessions : SessionMap K
  keyBundleCache : Finmap fun _ : Address => KeyBundle
  sessionStorage : Option (SessionFile K)

def Client.setSession (c : Client K) (addr : Address) (session : RatchetState K) : Client K :=
  { c with ratchetSessions := c.ratchetSessions.insert addr session }

/-- Persist a session if storage is attached. A failed save is only logged. -/
def Client.persist (c : Client K) (addr : Address) (session : RatchetState K)
    (outcome : WriteOutcome) : Client K :=
  { c with
    sessionStorage := c.sessionStorage.map fun file =>
      (file.saveRatchetSession addr session outcome).1 }

/-! ## Sending -/

/-- What the outside answers during one `SendRatchetMessage`. -/
structure SendEnv where
  randEphemeral : Except String (ByteArr 32)
  saveNew : WriteOutcome
  initial : FrameEnv
  randNonce : Except String (ByteArr 12)
  saveSent : WriteOutcome
  message : FrameEnv

def sendX3DHInitialMessage (recipient : Address) (initialMsg : InitialMessage) (env : FrameEnv) :
    List Frame × Except String Unit :=
  sendFrame recipient (initialPayload initialMsg) env

/-- What `SendRatchetMessage` leaves: the client, the frames it wrote and its result. -/
structure SendOutcome (K : Suite) where
  client : Client K
  frames : List Frame
  result : Except String Unit

/-- `SendRatchetMessage` from `RatchetEncrypt` on. -/
def sendWithSession (c : Client K) (recipient : Address) (session : RatchetState K)
    (plaintext : Bytes) (env : SendEnv) : SendOutcome K :=
  match ratchetEncrypt session plaintext (aesEncryptGCM env.randNonce) with
  | (session', .error e) =>
    ⟨c.setSession recipient session', [], .error ("ratchet encryption failed: " ++ e)⟩
  | (session', .ok (ratchetHeader, ciphertext)) =>
    let sent := sendFrame recipient (ratchetPayload ratchetHeader ciphertext) env.message
    ⟨(c.setSession recipient session').persist recipient session' env.saveSent, sent.1, sent.2⟩

/-- `X3DHInitiator`, then `NewRatchetState` with the ephemeral key pair and the peer's signed
prekey. -/
def openSession (K : Suite) (address recipient : Address) (identity : IdentityKeyPair)
    (bundle : KeyBundle) (rand : Except String (ByteArr 32)) :
    Except String (RatchetState K × InitialMessage) :=
  match x3dhInitiator K address identity bundle rand with
  | .error e => .error ("X3DH failed: " ++ e)
  | .ok out =>
    .ok (newRatchetState out.sharedSecret bundle.signedPreKey.publicKey out.ephemeralPrivate
      out.ephemeralPublic address recipient, out.initialMsg)

/-- `%x` of a byte string. -/
def hexBytes (b : Bytes) : String :=
  String.ofList (b.flatMap fun x => [Nat.digitChar (x.toNat / 16), Nat.digitChar (x.toNat % 16)])

def sendRatchetMessage (c : Client K) (recipient : Address)
    (recipientKeyBundle : Option KeyBundle) (plaintext : Bytes) (env : SendEnv) : SendOutcome K :=
  if c.connected = false then ⟨c, [], .error "not connected"⟩
  else
    match c.x3dhIdentity with
    | none => ⟨c, [], .error "X3DH not initialized - call InitializeX3DH() first"⟩
    | some identity =>
      match c.ratchetSessions.lookup recipient with
      | some session => sendWithSession c recipient session plaintext env
      | none =>
        match recipientKeyBundle.or (c.keyBundleCache.lookup recipient) with
        | none =>
          ⟨c, [], .error ("no key bundle available for " ++ hexBytes (recipient.bytes.take 8) ++
            " - provide bundle or cache it first")⟩
        | some bundle =>
          match openSession K c.address recipient identity bundle env.randEphemeral with
          | .error e => ⟨c, [], .error e⟩
          | .ok (session, initialMsg) =>
            -- the session is stored before its initial message is sent
            let c₁ := (c.setSession recipient session).persist recipient session env.saveNew
            match sendX3DHInitialMessage recipient initialMsg env.initial with
            | (frames, .error e) =>
              ⟨c₁, frames, .error ("failed to send X3DH initial message: " ++ e)⟩
            | (frames, .ok ()) =>
              let sent := sendWithSession c₁ recipient session plaintext env
              ⟨sent.client, frames ++ sent.frames, sent.result⟩

/-! ## Receiving -/

/-- `NewRatchetStateReceiver` with the signed prekey pair, then the initial DH for the receiving
chain. The sending chain key keeps its zero value. -/
def responderSession (sharedSecret : ByteArr 32) (signedPreKey : SignedPreKeyPrivate)
    (ephemeralKey : ByteArr 32) (localAddr remoteAddr : Address) : RatchetState K :=
  let session : RatchetState K := newRatchetStateReceiver sharedSecret signedPreKey.privateKey
    signedPreKey.publicKey localAddr remoteAddr
  let derived := K.kdfRK session.rootKey (K.dh session.dhSendingPrivate ephemeralKey)
  { session with
    dhReceivingPublic := ephemeralKey
    rootKey := derived.1
    receivingChainKey := derived.2 }

/-- `InitializeRatchetSession`. An existing session is kept and the message ignored. -/
def initializeRatchetSession (c : Client K) (sender : Address) (initialMsg : InitialMessage)
    (outcome : WriteOutcome) : Client K × Except String Unit :=
  match c.x3dhIdentity, c.signedPreKey with
  | some identity, some signedPreKey =>
    match c.ratchetSessions.lookup sender with
    | some _ => (c, .ok ())
    | none =>
      match x3dhResponder K identity signedPreKey c.oneTimePreKeys initialMsg with
      | (pool, .error e) =>
        ({ c with oneTimePreKeys := pool }, .error ("X3DH responder failed: " ++ e))
      | (pool, .ok sharedSecret) =>
        let session := responderSession sharedSecret signedPreKey initialMsg.ephemeralKey
          c.address sender
        let c₁ := { c with oneTimePreKeys := pool }
        ((c₁.setSession sender session).persist sender session outcome, .ok ())
  | _, _ => (c, .error "X3DH not initialized")

/-- What `handleDirectMessage` made of a payload: a session was set up (or was there
already), an initial message was refused, a session decrypted the payload, or the payload
went on to the other decoders. -/
inductive Incoming
  | sessionReady (sender : Address)
  | initialRefused (e : String)
  | decrypted (sender : Address) (plaintext : Bytes)
  | passedOn (payload : Bytes)
deriving DecidableEq

/-- The loop over `ratchetSessions`: every session tries to decrypt until one succeeds. A session
that fails keeps what the attempt did to it. -/
def trySessions (ratchetHeader ciphertext : Bytes) (rand : Address → RandomKey) :
    List Address → Client K → Client K × Option (Address × Bytes)
  | [], c => (c, none)
  | addr :: rest, c =>
    match c.ratchetSessions.lookup addr with
    | none => trySessions ratchetHeader ciphertext rand rest c
    | some session =>
      match ratchetDecrypt session ratchetHeader ciphertext (rand addr) aesDecryptGCM with
      | (session', .ok plaintext) => (c.setSession addr session', some (addr, plaintext))
      | (session', .error _) =>
        trySessions ratchetHeader ciphertext rand rest (c.setSession addr session')

/-- What the outside answers while a payload is handled: RSA decryption under the client's
key, the order in which Go iterates over the sessions, and the random bytes of each. -/
structure ReceiveEnv where
  rsaDecrypt : Bytes → Option Bytes
  order : List Address
  rand : Address → RandomKey
  saveNew : WriteOutcome

/-- `handleDirectMessage` up to the end of its ratchet branch. -/
def handleDirectMessage (c : Client K) (payload : Bytes) (env : ReceiveEnv) : Client K × Incoming :=
  let decrypted := (env.rsaDecrypt payload).getD payload
  if 4 < decrypted.length ∧ slice decrypted 0 4 = x3dhMarker then
    match InitialMessage.decode (decrypted.drop 4) with
    | .error e => (c, .initialRefused e)
    | .ok initialMsg =>
      match initializeRatchetSession c initialMsg.senderAddress initialMsg env.saveNew with
      | (c', .error e) => (c', .initialRefused e)
      | (c', .ok ()) => (c', .sessionReady initialMsg.senderAddress)
  else
    let headerLen := getUint (slice decrypted 0 2)
    if 2 < decrypted.length ∧ 40 ≤ headerLen ∧ headerLen ≤ 200 ∧
        2 + headerLen ≤ decrypted.length then
      match trySessions (slice decrypted 2 headerLen) (decrypted.drop (2 + headerLen)) env.rand
          env.order c with
      | (c', some (sender, plaintext)) => (c', .decrypted sender plaintext)
      | (c', none) => (c', .passedOn decrypted)
    else (c, .passedOn decrypted)

/-! ## The other ways to change a session -/

def setRatchetSession (c : Client K) (addr : Address) (session : RatchetState K)
    (outcome : WriteOutcome) : Client K :=
  (c.setSession addr session).persist addr session outcome

/-- The end of `tryDecryptRatchetMessage`: the session is saved after a success. -/
def Client.settle (c : Client K) (sender : Address) (outcome : WriteOutcome) :
    RatchetState K × Except String Bytes → Client K × Option Bytes
  | (session', .error _) => (c.setSession sender session', none)
  | (session', .ok plaintext) =>
    ((c.setSession sender session').persist sender session' outcome, some plaintext)

/-- `tryDecryptRatchetMessage`, which the handler does not call. -/
def tryDecryptRatchetMessage (c : Client K) (payload : Bytes) (sender : Address)
    (rand : RandomKey) (outcome : WriteOutcome) : Client K × Option Bytes :=
  if payload.length < 2 then (c, none)
  else
    let headerLen := getUint (slice payload 0 2)
    if headerLen < 40 ∨ 200 < headerLen ∨ payload.length < 2 + headerLen then (c, none)
    else
      match c.ratchetSessions.lookup sender with
      | none => (c, none)
      | some session =>
        c.settle sender outcome (ratchetDecrypt session (slice payload 2 headerLen)
          (payload.drop (2 + headerLen)) rand aesDecryptGCM)

end Zentalk
