import Zentalk.Relay.Routing

/-!
# The relay's acknowledgement

Errors of `forwardToNextHop` and `deliverMessage` are ignored (`acknowledged_iff`).
-/

namespace Zentalk

open Wire Runs List Option

variable {S : OnionSuite} {ι : Type*}

/-! ## Lengths -/

/-- What AES-GCM opens is no longer than what it is given, and the payload in a JSON text is no
longer than the text. -/
structure OnionSuite.Shrinks (S : OnionSuite) : Prop where
  gcm : ∀ nonce sealed key plaintext, S.gcmOpen nonce sealed key = some plaintext →
    plaintext.length ≤ sealed.length
  json : ∀ encoded layer, S.unmarshal encoded = some layer → layer.payload.length ≤ encoded.length

namespace RelayAction

def nextHop : RelayAction → Address
  | forwardToNextHop nextHop _ => nextHop
  | deliverMessage recipientAddr _ => recipientAddr

def payload : RelayAction → Bytes
  | forwardToNextHop _ payload => payload
  | deliverMessage _ encryptedPayload => encryptedPayload

end RelayAction

section

theorem length_aesDecrypt (hS : S.Shrinks) {ciphertext key plaintext : Bytes}
    (h : aesDecrypt S ciphertext key = .ok plaintext) : plaintext.length ≤ ciphertext.length := by
  unfold aesDecrypt at h
  cases hcipher : newCipher key with
  | error e => rw [hcipher] at h; cases h
  | ok u =>
    rw [hcipher] at h
    split at h
    · cases h
    · split at h
      · cases h
      · next hopen =>
        cases h
        have hle := hS.gcm _ _ _ _ hopen
        rw [length_drop] at hle
        omega

variable {privateKey : S.PrivateKey} {layer : OnionLayer}

theorem length_openLayer (hS : S.Shrinks) {encryptedKey encryptedData : Bytes}
    (h : openLayer encryptedKey encryptedData privateKey = .ok layer) :
    layer.payload.length ≤ encryptedData.length := by
  unfold openLayer at h
  cases hkey : rsaDecrypt encryptedKey privateKey with
  | error e => rw [hkey] at h; cases h
  | ok aesKey =>
    rw [hkey] at h
    cases hdata : aesDecrypt S encryptedData aesKey with
    | error e => simp only [bind, Except.bind, hdata] at h; cases h
    | ok decrypted =>
      simp only [bind, Except.bind, hdata] at h
      split at h
      · cases h
      · next found hjson =>
        split at h
        · cases h
          exact (hS.json _ _ hjson).trans (length_aesDecrypt hS hdata)
        · cases h

theorem length_decryptOnionLayer (hS : S.Shrinks) {encryptedLayer : Bytes}
    (h : decryptOnionLayer encryptedLayer privateKey = .ok layer) :
    layer.payload.length ≤ encryptedLayer.length := by
  unfold decryptOnionLayer at h
  dsimp only at h
  split at h
  · cases h
  · split at h
    · cases h
    · split at h
      · cases h
      · generalize UInt16.toNat _ = keyEnd at h
        cases hopen : openLayer (slice encryptedLayer 2 (keyEnd - 2))
            (encryptedLayer.drop keyEnd) privateKey with
        | error e => rw [hopen] at h; cases h
        | ok found =>
          rw [hopen] at h
          cases h
          have hle := length_openLayer hS hopen
          rw [length_drop] at hle
          omega

theorem length_readFull {n : ℕ} {stream payload rest : Bytes}
    (h : readFull n stream = .ok (payload, rest)) : payload.length = n := by
  unfold readFull at h
  split at h
  · next hzero => cases h; exact hzero.symm
  · split at h
    · cases h
    · split at h
      · cases h
      · next hlong =>
        cases h
        rw [length_take, Nat.min_eq_left (not_lt.mp hlong)]

theorem relayAction_of (peer? : Option (Peer ι)) (layer : OnionLayer) :
    (relayAction peer? layer).nextHop = layer.nextHop ∧
      (relayAction peer? layer).payload = layer.payload := by
  unfold relayAction
  split
  · exact ⟨rfl, rfl⟩
  · split <;> exact ⟨rfl, rfl⟩

theorem small_payload (hS : S.Shrinks) {peers : Address → Option (Peer ι)} {header : Header}
    {stream : Bytes} {action : RelayAction}
    (h : handleRelayForward privateKey peers header stream = .ok action) :
    action.payload.length < 2 ^ 32 := by
  obtain ⟨payload, rest, layer, hread, hdecrypt, -, rfl⟩ :=
    handleRelayForward_ok_iff.mp h
  calc (relayAction (peers layer.nextHop) layer).payload.length
      = layer.payload.length := congrArg List.length (relayAction_of _ layer).2
    _ ≤ payload.length := length_decryptOnionLayer hS hdecrypt
    _ = header.length.toNat := length_readFull hread
    _ < 2 ^ 32 := header.length.toNat_lt

end

/-! ## The model -/

/-- How a `Write` ends: it takes all bytes, or it fails before it has taken the last one. -/
inductive ConnWrite
  | wrote
  | broke (n : ℕ) (err : String)

namespace ConnWrite

def taken (b : Bytes) : ConnWrite → Bytes
  | wrote => b
  | broke n _ => b.take (min n (b.length - 1))

def result : ConnWrite → Except String Unit
  | wrote => .ok ()
  | broke _ err => .error err

end ConnWrite

/-- What a call of `handleRelayForward` meets. -/
structure ForwardEnv (ι : Type*) where
  /-- The peers when `handleRelayForward` looks. -/
  peers : Address → Option (Peer ι)
  /-- The peers when the function looks that it calls. -/
  peersAfter : Address → Option (Peer ι)
  /-- The ID that is generated for a header or a row. -/
  messageID : ByteArr 16
  headerWrite : ConnWrite
  payloadWrite : ConnWrite
  ackWrite : ConnWrite
  /-- A failure of the database. -/
  queueErr : Option String
  now : ℤ

/-- The part of `RelayServer` that a call changes. -/
structure RelayServer where
  messageQueue : Option Queue
  messagesRelayed : UInt64

/-- What `forwardToNextHop` and `deliverMessage` do: to the queue, and what they write to a
connection. -/
structure HopResult (ι : Type*) where
  messageQueue : Option Queue
  sent : Option (ι × Bytes)
  result : Except String Unit

/-- What a call of `handleRelayForward` does. `acked` is written to the connection that submitted
the frame, `fault` is logged or ends the relay. -/
structure ForwardResult (ι : Type*) where
  server : RelayServer
  sent : Option (ι × Bytes)
  acked : Bytes
  fault : Option Fault

def writeSend (send : RelaySend) (env : ForwardEnv ι) : Bytes × Except String Unit :=
  match env.headerWrite with
  | .wrote =>
    (send.header.encode ++ env.payloadWrite.taken send.payloadBytes, env.payloadWrite.result)
  | .broke n err => ((ConnWrite.broke n err).taken send.header.encode, .error err)

namespace RelayServer

def forwardToNextHop (rs : RelayServer) (nextHop : Address) (payload : Payload)
    (env : ForwardEnv ι) : HopResult ι :=
  match env.peersAfter nextHop with
  | none => ⟨rs.messageQueue, none, .error ("peer not connected: " ++ hexBytes nextHop.bytes)⟩
  | some peer =>
    let written := writeSend (.forwardToNextHop payload env.messageID) env
    ⟨rs.messageQueue, some (peer.conn, written.1), written.2⟩

/-- `QueueMessage` for an offline recipient. -/
def queueMessage (queue : Queue) (recipientAddr : Address) (encryptedPayload : Payload)
    (env : ForwardEnv ι) : Except String Queue :=
  match env.queueErr with
  | some err => .error ("failed to queue message: " ++ err)
  | none => queue.queueMessage env.now recipientAddr env.messageID encryptedPayload

def deliverMessage (rs : RelayServer) (recipientAddr : Address) (encryptedPayload : Payload)
    (env : ForwardEnv ι) : HopResult ι :=
  match env.peersAfter recipientAddr with
  | none =>
    match rs.messageQueue with
    | none => ⟨none, none, .error ("recipient not connected: " ++ hexBytes recipientAddr.bytes)⟩
    | some queue =>
      match queueMessage queue recipientAddr encryptedPayload env with
      | .error err => ⟨some queue, none, .error ("recipient offline and queue failed: " ++ err)⟩
      | .ok queue => ⟨some queue, none, .ok ()⟩
  | some peer =>
    let written := writeSend (.deliverMessage encryptedPayload env.messageID) env
    ⟨rs.messageQueue, some (peer.conn, written.1), written.2⟩

/-- The call for a layer. -/
def hop (rs : RelayServer) (action : RelayAction) (payload : Payload) (env : ForwardEnv ι) :
    HopResult ι :=
  match action with
  | .forwardToNextHop nextHop _ => rs.forwardToNextHop nextHop payload env
  | .deliverMessage recipientAddr _ => rs.deliverMessage recipientAddr payload env

def handleRelayForward (hS : S.Shrinks) (privateKey : S.PrivateKey) (rs : RelayServer)
    (header : Header) (stream : Bytes) (env : ForwardEnv ι) : ForwardResult ι :=
  match h : Zentalk.handleRelayForward privateKey env.peers header stream with
  | .error fault => ⟨rs, none, [], some fault⟩
  | .ok action =>
    let called := rs.hop action ⟨action.payload, small_payload hS h⟩ env
    match env.peers action.nextHop with
    | none => ⟨{ rs with messageQueue := called.messageQueue }, called.sent, [], none⟩
    | some _ =>
      { server := ⟨called.messageQueue, rs.messagesRelayed + 1⟩
        sent := called.sent
        acked := env.ackWrite.taken (RelaySend.sendAck header.messageID).header.encode
        fault := none }

end RelayServer

/-! ## What becomes of the payload -/

variable {rs : RelayServer} {env : ForwardEnv ι} {action : RelayAction} {payload : Payload}

def Holds (messageQueue : Option Queue) (recipientAddr : Address) (payload : Bytes) : Prop :=
  ∃ queue, messageQueue = some queue ∧ ∃ row ∈ queue.rows,
    row.recipientAddr = recipientAddr ∧ row.encryptedPayload.bytes = payload

def PassedOn (env : ForwardEnv ι) (action : RelayAction) (payload : Payload)
    (messageQueue : Option Queue) (sent : Option (ι × Bytes)) : Prop :=
  (∃ peer, env.peersAfter action.nextHop = some peer ∧
    sent = some (peer.conn, (action.send env.messageID payload).header.encode ++ payload.bytes)) ∨
  Holds messageQueue action.nextHop payload.bytes

/-- A write of no bytes may fail. -/
def ForwardEnv.Writes (env : ForwardEnv ι) (action : RelayAction) : Prop :=
  (env.peersAfter action.nextHop).isSome ∧ env.headerWrite = .wrote ∧
    (env.payloadWrite = .wrote ∨ action.payload = [])

/-- `deliverMessage` is called for a recipient that is not registered, and the database accepts the
row. -/
def ForwardEnv.Queues (env : ForwardEnv ι) (rs : RelayServer) (action : RelayAction) : Prop :=
  env.peersAfter action.nextHop = none ∧
    action = .deliverMessage action.nextHop action.payload ∧ env.queueErr = none ∧
    ∃ queue, rs.messageQueue = some queue ∧
      env.messageID ∉ queue.rows.map QueuedMessage.messageID

section

theorem taken_eq_iff (w : ConnWrite) (b : Bytes) : w.taken b = b ↔ w = .wrote ∨ b = [] := by
  cases w with
  | wrote => exact iff_of_true rfl (.inl rfl)
  | broke n err =>
    constructor
    · intro h
      have hlen := congrArg List.length h
      rw [ConnWrite.taken, length_take] at hlen
      exact .inr (eq_nil_of_length_eq_zero (by omega))
    · rintro (h | rfl)
      · cases h
      · exact take_nil

theorem encode_ne_nil (header : Header) : header.encode ≠ [] := by
  intro hnil
  have hlen := congrArg List.length hnil
  cases hlen

theorem taken_header_ne (n : ℕ) (err : String) (header : Header) (b : Bytes) :
    (ConnWrite.broke n err).taken header.encode ≠ header.encode ++ b := by
  intro h
  have hlen := congrArg List.length h
  rw [ConnWrite.taken, length_take, length_append, Header.length_encode] at hlen
  omega

theorem writeSend_eq_iff (send : RelaySend) (env : ForwardEnv ι) :
    (writeSend send env).1 = send.header.encode ++ send.payloadBytes ↔
      env.headerWrite = .wrote ∧ (env.payloadWrite = .wrote ∨ send.payloadBytes = []) := by
  unfold writeSend
  cases env.headerWrite with
  | wrote =>
    rw [append_right_inj, taken_eq_iff]
    exact (and_iff_right rfl).symm
  | broke n err => exact iff_of_false (taken_header_ne n err _ _) (by simp)

theorem payload_eq {payload payload' : Payload} (h : payload.bytes = payload'.bytes) :
    payload = payload' := by
  cases payload
  cases payload'
  cases h
  rfl

theorem payloadBytes_send (action : RelayAction) (messageID : ByteArr 16) (payload : Payload) :
    (action.send messageID payload).payloadBytes = payload.bytes := by
  cases action <;> rfl

variable (rs payload) in
theorem hop_registered {peer : Peer ι} (hpeer : env.peersAfter action.nextHop = some peer) :
    (rs.hop action payload env).messageQueue = rs.messageQueue ∧
      (rs.hop action payload env).sent =
        some (peer.conn, (writeSend (action.send env.messageID payload) env).1) := by
  cases action with
  | forwardToNextHop nextHop b =>
    have hpeer : env.peersAfter nextHop = some peer := hpeer
    rw [RelayServer.hop, RelayServer.forwardToNextHop, hpeer]
    exact ⟨rfl, rfl⟩
  | deliverMessage recipientAddr b =>
    have hpeer : env.peersAfter recipientAddr = some peer := hpeer
    rw [RelayServer.hop, RelayServer.deliverMessage, hpeer]
    exact ⟨rfl, rfl⟩

variable (rs payload) in
theorem holds_deliverMessage {recipientAddr : Address}
    (hpeer : env.peersAfter recipientAddr = none) :
    Holds (rs.deliverMessage recipientAddr payload env).messageQueue recipientAddr payload.bytes ↔
      Holds rs.messageQueue recipientAddr payload.bytes ∨
        env.queueErr = none ∧ ∃ queue, rs.messageQueue = some queue ∧
          env.messageID ∉ queue.rows.map QueuedMessage.messageID := by
  unfold RelayServer.deliverMessage
  rw [hpeer]
  cases rs.messageQueue with
  | none => simp [Holds]
  | some queue =>
    unfold RelayServer.queueMessage
    cases env.queueErr with
    | some err => simp
    | none =>
      dsimp only
      by_cases hnew : env.messageID ∉ queue.rows.map QueuedMessage.messageID
      · refine iff_of_true ?_ (.inr ⟨rfl, queue, rfl, hnew⟩)
        rw [Queue.queueMessage, dif_pos hnew]
        exact ⟨_, rfl, _, mem_append_right _ mem_cons_self, rfl, rfl⟩
      · rw [Queue.queueMessage, dif_neg hnew]
        simp only [some.injEq, exists_eq_left', hnew, and_false, or_false]

variable (rs env) in
theorem passedOn_iff (hpayload : payload.bytes = action.payload) :
    PassedOn env action payload (rs.hop action payload env).messageQueue
        (rs.hop action payload env).sent ↔
      Holds rs.messageQueue action.nextHop action.payload ∨ env.Writes action ∨
        env.Queues rs action := by
  unfold PassedOn ForwardEnv.Writes ForwardEnv.Queues
  cases hpeer : env.peersAfter action.nextHop with
  | some peer =>
    obtain ⟨hqueue, hsent⟩ := hop_registered rs payload hpeer
    have hwritten := writeSend_eq_iff (action.send env.messageID payload) env
    rw [payloadBytes_send, hpayload] at hwritten
    rw [hqueue, hsent, hpayload]
    simp [hwritten, or_comm]
  | none =>
    cases action with
    | forwardToNextHop nextHop b =>
      have hpeer : env.peersAfter nextHop = none := hpeer
      rw [RelayServer.hop, RelayServer.forwardToNextHop, hpeer]
      simp [hpayload]
    | deliverMessage recipientAddr b =>
      have hholds := holds_deliverMessage rs payload hpeer
      have hhop : rs.hop (.deliverMessage recipientAddr b) payload env =
        rs.deliverMessage recipientAddr payload env := rfl
      rw [hpayload] at hholds ⊢
      rw [hhop]
      simpa [RelayAction.nextHop, RelayAction.payload] using hholds

variable {privateKey : S.PrivateKey}

theorem handleRelayForward_error (hS : S.Shrinks) (rs : RelayServer) {header : Header}
    {stream : Bytes} {fault : Fault}
    (h : handleRelayForward privateKey env.peers header stream = .error fault) :
    rs.handleRelayForward hS privateKey header stream env = ⟨rs, none, [], some fault⟩ := by
  unfold RelayServer.handleRelayForward
  split
  · next h' => cases h'.symm.trans h; rfl
  · next h' => cases h'.symm.trans h

theorem handleRelayForward_ok (hS : S.Shrinks) (rs : RelayServer)
    {header : Header} {stream : Bytes} {action : RelayAction}
    (h : handleRelayForward privateKey env.peers header stream = .ok action) :
    ∃ payload : Payload, payload.bytes = action.payload ∧
      (rs.handleRelayForward hS privateKey header stream env).server.messageQueue =
        (rs.hop action payload env).messageQueue ∧
      (rs.handleRelayForward hS privateKey header stream env).sent =
        (rs.hop action payload env).sent ∧
      ((rs.handleRelayForward hS privateKey header stream env).acked =
          (RelaySend.sendAck header.messageID).header.encode ↔
        (env.peers action.nextHop).isSome ∧ env.ackWrite = .wrote) := by
  have hframe := encode_ne_nil (RelaySend.sendAck header.messageID).header
  refine ⟨⟨action.payload, small_payload hS h⟩, rfl, ?_⟩
  unfold RelayServer.handleRelayForward
  split
  · next h' => cases h'.symm.trans h
  · next h' =>
    cases h'.symm.trans h
    cases env.peers action.nextHop with
    | none => exact ⟨rfl, rfl, iff_of_false hframe.symm (by simp)⟩
    | some peer => exact ⟨rfl, rfl, by simp [taken_eq_iff, hframe]⟩

end

/-! ## Acknowledgement -/

/-- A call that acknowledges only what is passed on, and that loses no payload: with a queue, one
whose write to a registered next hop fails is passed on all the same. -/
structure AcknowledgesHonestly (hS : S.Shrinks) (privateKey : S.PrivateKey) (rs : RelayServer)
    (header : Header) (stream : Bytes) (env : ForwardEnv ι) : Prop where
  honest : (rs.handleRelayForward hS privateKey header stream env).acked =
      (RelaySend.sendAck header.messageID).header.encode →
    ∃ action payload, handleRelayForward privateKey env.peers header stream = .ok action ∧
      payload.bytes = action.payload ∧
      PassedOn env action payload
        (rs.handleRelayForward hS privateKey header stream env).server.messageQueue
        (rs.handleRelayForward hS privateKey header stream env).sent
  kept : ∀ action payload, handleRelayForward privateKey env.peers header stream = .ok action →
    payload.bytes = action.payload → rs.messageQueue.isSome →
    (env.peersAfter action.nextHop).isSome →
    env.headerWrite ≠ .wrote ∨ env.payloadWrite ≠ .wrote →
    PassedOn env action payload
      (rs.handleRelayForward hS privateKey header stream env).server.messageQueue
      (rs.handleRelayForward hS privateKey header stream env).sent

/-- A call is honest and loses nothing exactly if the payload is in the queue already, is written
without a failure or gets queued, or if no acknowledgement is sent and nothing is written that a
queue would have to keep. -/
theorem acknowledged_iff (hS : S.Shrinks) (privateKey : S.PrivateKey) (rs : RelayServer)
    (header : Header) (stream : Bytes) (env : ForwardEnv ι) :
    AcknowledgesHonestly hS privateKey rs header stream env ↔
      ∀ action, handleRelayForward privateKey env.peers header stream = .ok action →
        (Holds rs.messageQueue action.nextHop action.payload ∨ env.Writes action ∨
          env.Queues rs action) ∨
        (env.peers action.nextHop = none ∨ env.ackWrite ≠ .wrote) ∧
          (rs.messageQueue = none ∨ env.peersAfter action.nextHop = none) := by
  cases h : handleRelayForward privateKey env.peers header stream with
  | error fault =>
    refine iff_of_true ⟨fun hack => ?_, fun action _ haction => ?_⟩ fun action haction => ?_
    · rw [handleRelayForward_error hS rs h] at hack
      exact absurd hack.symm (encode_ne_nil _)
    · cases h.symm.trans haction
    · cases haction
  | ok action =>
    obtain ⟨payload, hpayload, hqueue, hsent, hacked⟩ := handleRelayForward_ok hS rs h
    have hpassed := passedOn_iff rs env hpayload
    rw [← hqueue, ← hsent] at hpassed
    constructor
    · rintro hcall _ ⟨⟩
      rw [or_iff_not_imp_left]
      intro hlost
      constructor
      · by_contra hsend
        rw [not_or, not_not, ← ne_eq, ne_none_iff_isSome] at hsend
        obtain ⟨action', payload', haction, heq, hpass⟩ := hcall.honest (hacked.mpr hsend)
        cases h.symm.trans haction
        obtain rfl := payload_eq (heq.trans hpayload.symm)
        exact hlost (hpassed.mp hpass)
      · by_contra hwrite
        rw [not_or, ← ne_eq, ← ne_eq, ne_none_iff_isSome, ne_none_iff_isSome]
          at hwrite
        refine hlost (hpassed.mp (hcall.kept action payload h hpayload hwrite.1 hwrite.2 ?_))
        by_contra hfine
        rw [not_or, not_not, not_not] at hfine
        exact hlost (.inr (.inl ⟨hwrite.2, hfine.1, .inl hfine.2⟩))
    · intro hcond
      refine ⟨fun hack => ?_, fun action' payload' haction heq hattached hpeer _ => ?_⟩
      · obtain ⟨hpeer, hwrote⟩ := hacked.mp hack
        rcases hcond action rfl with hpass | ⟨hnone | hbroke, -⟩
        · exact ⟨action, payload, h, hpayload, hpassed.mpr hpass⟩
        · rw [hnone] at hpeer; cases hpeer
        · exact absurd hwrote hbroke
      · cases h.symm.trans haction
        obtain rfl := payload_eq (heq.trans hpayload.symm)
        rcases hcond action rfl with hpass | ⟨-, hnone | hnone⟩
        · exact hpassed.mpr hpass
        · rw [hnone] at hattached; cases hattached
        · rw [hnone] at hpeer; cases hpeer

/-! ## Samples -/

theorem tagSuite_shrinks : tagSuite.Shrinks where
  gcm nonce sealed key plaintext h := by
    dsimp only [tagSuite] at h
    split at h
    · cases h
      rw [length_drop]
      exact Nat.sub_le _ _
    · cases h
  json encoded layer h := by
    cases h
    exact (length_drop ..).trans_le (Nat.sub_le _ _)

theorem sample_frame (peers : Address → Option (Peer ℕ)) : ∃ header stream,
    handleRelayForward (S := tagSuite) (1 : UInt8) peers header stream =
      .ok (relayAction (peers (sampleAddress 2))
        ⟨sampleAddress 2, [7], tagSuite.hash [7]⟩) := by
  have hkey : (sampleRelay 1).publicKey = tagSuite.publicKey (1 : UInt8) := rfl
  obtain ⟨onion, hbuild, hdecrypt⟩ := buildLayer_decrypts tagSuite_roundTrips (tagRand_answers 0)
    hkey (sampleAddress 2) [7]
  have hfrom : buildFrom tagRand (sampleAddress 2) [7] 0 [sampleRelay 1] = .ok onion := by
    exact hbuild
  have hlen : onion.length = 131 * 1 + 1 := length_tag_buildFrom hfrom
  have hlength : (UInt32.ofNat onion.length).toNat = onion.length :=
    UInt32.toNat_ofNat_of_lt' (by rw [hlen]; decide)
  refine ⟨relayHeader msgTypeRelayForward onion.length 0 (ByteArr.zero 16), onion ++ [],
    handleRelayForward_ok_iff.mpr ⟨onion, [], _, ?_, hdecrypt, by decide, rfl⟩⟩
  exact readFull_append hlength.symm []

def sampleEnv (headerWrite : ConnWrite) : ForwardEnv ℕ where
  peers _ := some ⟨2, clientTypeUser⟩
  peersAfter _ := some ⟨2, clientTypeUser⟩
  messageID := ByteArr.zero 16
  headerWrite := headerWrite
  payloadWrite := .wrote
  ackWrite := .wrote
  queueErr := none
  now := 0

theorem acknowledged_delivery : ∃ header stream,
    handleRelayForward (S := tagSuite) (1 : UInt8) (sampleEnv .wrote).peers header stream =
      .ok (.deliverMessage (sampleAddress 2) [7]) ∧
    AcknowledgesHonestly tagSuite_shrinks (1 : UInt8) ⟨some (.empty 0), 0⟩ header stream
      (sampleEnv .wrote) := by
  obtain ⟨header, stream, h⟩ := sample_frame (sampleEnv .wrote).peers
  refine ⟨header, stream, h, (acknowledged_iff _ _ _ _ _ _).mpr fun action haction => ?_⟩
  cases h.symm.trans haction
  exact .inl (.inr (.inl ⟨rfl, rfl, .inl rfl⟩))

/-- The connection of the next hop breaks before the first byte. The relay has a queue. -/
theorem dishonest_ack : ∃ header stream,
    (RelayServer.handleRelayForward tagSuite_shrinks (1 : UInt8) ⟨some (.empty 0), 0⟩ header stream
      (sampleEnv (.broke 0 "broken pipe"))).acked =
        (RelaySend.sendAck header.messageID).header.encode ∧
    (RelayServer.handleRelayForward tagSuite_shrinks (1 : UInt8) ⟨some (.empty 0), 0⟩ header stream
      (sampleEnv (.broke 0 "broken pipe"))).sent = some (2, []) ∧
    (RelayServer.handleRelayForward tagSuite_shrinks (1 : UInt8) ⟨some (.empty 0), 0⟩ header stream
      (sampleEnv (.broke 0 "broken pipe"))).server.messageQueue = some (.empty 0) := by
  obtain ⟨header, stream, h⟩ := sample_frame (sampleEnv (.broke 0 "broken pipe")).peers
  obtain ⟨payload, -, hqueue, hsent, hacked⟩ :=
    handleRelayForward_ok tagSuite_shrinks ⟨some (.empty 0), 0⟩ h
  exact ⟨header, stream, hacked.mpr ⟨rfl, rfl⟩, hsent, hqueue⟩

end Zentalk
