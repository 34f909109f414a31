import Zentalk.Lib.Layout
import Zentalk.Lib.Reader
import Zentalk.Network.Framing
import Zentalk.Network.Ordering

/-!
# The messages of the protocol

`Small` is what the length fields can hold. A `reads` for each message says what its decoder
accepts.
-/

namespace Zentalk

open Wire Reader List Layout Reads

/-! ## Direct messages -/

namespace DirectMessage

def layout (m : DirectMessage) : Layout where
  size := 20 + 20 + 8 + 8 + 1 + 16 + 4 + m.content.length + 4 + m.signature.length
  writes :=
    [.copy m.fromAddr.bytes,
      .copy m.toAddr.bytes,
      .put (putUint 8 m.timestamp.toNat),
      .put (putUint 8 m.sequenceNumber.toNat),
      .put [m.contentType],
      .copy m.replyTo.bytes,
      .put (putUint 4 m.content.length),
      .copy m.content,
      .put (putUint 4 m.signature.length),
      .copy m.signature]

def read : Reader DirectMessage := do
  let fromAddr ← array 20
  let toAddr ← array 20
  let timestamp ← uint64
  let sequenceNumber ← uint64
  let contentType ← byte
  let replyTo ← array 16
  let content ← counted
  let signature ← counted
  return { fromAddr, toAddr, timestamp, sequenceNumber, contentType, replyTo, content, signature }

def Small (m : DirectMessage) : Prop := m.content.length < 2 ^ 32 ∧ m.signature.length < 2 ^ 32

theorem content_layout (m : DirectMessage) : m.layout.content = m.encode := by
  simp [layout, encode]

theorem layout_run (m : DirectMessage) : m.layout.run = some m.encode := by
  rw [← content_layout]
  refine run_eq ?_
  simp [layout]
  omega

theorem reads : Reads read (fun m used => used = m.encode ∧ m.Small) := by
  refine ((reads_array 20).bind fun _ => (reads_array 20).bind fun _ => reads_uint64.bind fun _ =>
    reads_uint64.bind fun _ => reads_byte.bind fun _ => (reads_array 16).bind fun _ =>
    reads_counted.bind fun _ => reads_counted.bind fun _ => .pure _).congr fun m used => ?_
  obtain ⟨⟩ := m
  simp [encode, Small]

end DirectMessage

/-! ## Acknowledgements -/

namespace AckMessage

def layout (a : AckMessage) : Layout where
  size := 20 + 20 + 16 + 8 + 8
  writes :=
    [.copy a.fromAddr.bytes,
      .copy a.toAddr.bytes,
      .copy a.messageID.bytes,
      .put (putUint 8 a.sequenceNumber.toNat),
      .put (putUint 8 a.timestamp.toNat)]

def read : Reader AckMessage := do
  need 72 "buffer too short for ACK message"
  let fromAddr ← array 20
  let toAddr ← array 20
  let messageID ← array 16
  let sequenceNumber ← uint64
  let timestamp ← uint64
  return { fromAddr, toAddr, messageID, sequenceNumber, timestamp }

theorem content_layout (a : AckMessage) : a.layout.content = a.encode := by
  simp [layout, encode]

theorem layout_run (a : AckMessage) : a.layout.run = some a.encode := by
  refine run_eq ?_
  simp [layout]

theorem reads : Reads read (fun a used => used = a.encode) := by
  refine need (.congr ((reads_array 20).bind fun _ => (reads_array 20).bind fun _ =>
    (reads_array 16).bind fun _ => reads_uint64.bind fun _ => reads_uint64.bind fun _ =>
    .pure _) fun a used => ?_) ?_ _
  · obtain ⟨⟩ := a
    simp [encode]
  · rintro a _ rfl
    exact a.length_encode.ge

end AckMessage

structure NackMessage where
  fromAddr : Address
  toAddr : Address
  messageID : ByteArr 16
  sequenceNumber : UInt64
  timestamp : UInt64
  errorCode : UInt8
  errorMessage : Bytes

namespace NackMessage

def layout (n : NackMessage) : Layout where
  size := 20 + 20 + 16 + 8 + 8 + 1 + 2 + n.errorMessage.length
  writes :=
    [.copy n.fromAddr.bytes,
      .copy n.toAddr.bytes,
      .copy n.messageID.bytes,
      .put (putUint 8 n.sequenceNumber.toNat),
      .put (putUint 8 n.timestamp.toNat),
      .put [n.errorCode],
      .put (putUint 2 n.errorMessage.length),
      .copy n.errorMessage]

def encode (n : NackMessage) : Bytes := n.layout.content

/-- The error message in `NackMessage.Decode`. -/
def readErrorMessage : Reader Bytes := do
  let errorMsgLen ← uint16
  room errorMsgLen.toNat "buffer too short for error message"
  sub errorMsgLen.toNat

def read : Reader NackMessage := do
  need 75 "buffer too short for NACK message"
  let fromAddr ← array 20
  let toAddr ← array 20
  let messageID ← array 16
  let sequenceNumber ← uint64
  let timestamp ← uint64
  let errorCode ← byte
  let errorMessage ← readErrorMessage
  return { fromAddr, toAddr, messageID, sequenceNumber, timestamp, errorCode, errorMessage }

/-- The length of the error message has two bytes only. -/
def Small (n : NackMessage) : Prop := n.errorMessage.length < 2 ^ 16

theorem layout_run (n : NackMessage) : n.layout.run = some n.encode := by
  refine run_eq ?_
  simp [layout]
  omega

theorem reads_errorMessage : Reads readErrorMessage
    (fun b used => b.length < 2 ^ 16 ∧ used = putUint 2 b.length ++ b) := by
  refine (reads_uint16.bind fun n => room (reads_sub n.toNat) ?_ _).congr fun b used => ?_
  · rintro _ _ ⟨-, hlen⟩
    exact hlen.ge
  · constructor
    · rintro ⟨n, _, _, rfl, rfl, rfl, hlen⟩
      exact ⟨hlen ▸ n.toNat_lt, by rw [hlen]⟩
    · rintro ⟨hlt, rfl⟩
      have hlen : (UInt16.ofNat b.length).toNat = b.length := UInt16.toNat_ofNat_of_lt' hlt
      exact ⟨UInt16.ofNat b.length, _, b, rfl, by rw [hlen], rfl, hlen.symm⟩

theorem reads : Reads read (fun n used => used = n.encode ∧ n.Small) := by
  refine need (.congr ((reads_array 20).bind fun _ => (reads_array 20).bind fun _ =>
    (reads_array 16).bind fun _ => reads_uint64.bind fun _ => reads_uint64.bind fun _ =>
    reads_byte.bind fun _ => reads_errorMessage.bind fun _ => .pure _) fun n used => ?_) ?_ _
  · obtain ⟨⟩ := n
    simp [encode, layout, Small]
  · rintro n _ ⟨rfl, -⟩
    simp [encode, layout]
    omega

end NackMessage

/-! ## Group messages -/

structure GroupMessage where
  fromAddr : Address
  groupID : ByteArr 32
  timestamp : UInt64
  contentType : UInt8
  content : Bytes
  signature : Bytes

namespace GroupMessage

def layout (m : GroupMessage) : Layout where
  size := 20 + 32 + 8 + 1 + 4 + m.content.length + 4 + m.signature.length
  writes :=
    [.copy m.fromAddr.bytes,
      .copy m.groupID.bytes,
      .put (putUint 8 m.timestamp.toNat),
      .put [m.contentType],
      .put (putUint 4 m.content.length),
      .copy m.content,
      .put (putUint 4 m.signature.length),
      .copy m.signature]

def encode (m : GroupMessage) : Bytes := m.layout.content

def read : Reader GroupMessage := do
  let fromAddr ← array 20
  let groupID ← array 32
  let timestamp ← uint64
  let contentType ← byte
  let content ← counted
  let signature ← counted
  return { fromAddr, groupID, timestamp, contentType, content, signature }

def Small (m : GroupMessage) : Prop := m.content.length < 2 ^ 32 ∧ m.signature.length < 2 ^ 32

theorem layout_run (m : GroupMessage) : m.layout.run = some m.encode := by
  refine run_eq ?_
  simp [layout]
  omega

theorem reads : Reads read (fun m used => used = m.encode ∧ m.Small) := by
  refine ((reads_array 20).bind fun _ => (reads_array 32).bind fun _ => reads_uint64.bind fun _ =>
    reads_byte.bind fun _ => reads_counted.bind fun _ => reads_counted.bind fun _ =>
    .pure _).congr fun m used => ?_
  obtain ⟨⟩ := m
  simp [encode, layout, Small]

end GroupMessage

structure GroupCreateMessage where
  groupID : ByteArr 32
  groupName : Bytes
  creatorAddr : Address
  timestamp : UInt64
  members : List Address

namespace GroupCreateMessage

def layout (m : GroupCreateMessage) : Layout where
  size := 32 + 4 + m.groupName.length + 20 + 8 + 4 + m.members.length * 20
  writes :=
    [.copy m.groupID.bytes,
      .put (putUint 4 m.groupName.length),
      .copy m.groupName,
      .copy m.creatorAddr.bytes,
      .put (putUint 8 m.timestamp.toNat),
      .put (putUint 4 m.members.length)] ++
    m.members.map fun member => .copy member.bytes

def encode (m : GroupCreateMessage) : Bytes := m.layout.content

def read : Reader GroupCreateMessage := do
  let groupID ← array 32
  let groupName ← counted
  let creatorAddr ← array 20
  let timestamp ← uint64
  let members ← items (array 20)
  return { groupID, groupName, creatorAddr, timestamp, members }

def Small (m : GroupCreateMessage) : Prop := m.groupName.length < 2 ^ 32 ∧ m.members.length < 2 ^ 32

theorem layout_run (m : GroupCreateMessage) : m.layout.run = some m.encode := by
  refine run_eq ?_
  simp [layout, flatMap_map]
  omega

theorem reads : Reads read (fun m used => used = m.encode ∧ m.Small) := by
  refine ((reads_array 32).bind fun _ => reads_counted.bind fun _ => (reads_array 20).bind fun _ =>
    reads_uint64.bind fun _ => (reads_array 20).items.bind fun _ => .pure _).congr
    fun m used => ?_
  obtain ⟨⟩ := m
  simp [encode, layout, Small, flatMap_map]

end GroupCreateMessage

structure GroupJoinMessage where
  groupID : ByteArr 32
  memberAddr : Address
  timestamp : UInt64
  signature : Bytes

namespace GroupJoinMessage

def layout (m : GroupJoinMessage) : Layout where
  size := 32 + 20 + 8 + 4 + m.signature.length
  writes :=
    [.copy m.groupID.bytes,
      .copy m.memberAddr.bytes,
      .put (putUint 8 m.timestamp.toNat),
      .put (putUint 4 m.signature.length),
      .copy m.signature]

def encode (m : GroupJoinMessage) : Bytes := m.layout.content

def read : Reader GroupJoinMessage := do
  let groupID ← array 32
  let memberAddr ← array 20
  let timestamp ← uint64
  let signature ← counted
  return { groupID, memberAddr, timestamp, signature }

def Small (m : GroupJoinMessage) : Prop := m.signature.length < 2 ^ 32

theorem layout_run (m : GroupJoinMessage) : m.layout.run = some m.encode := by
  refine run_eq ?_
  simp [layout]
  omega

theorem reads : Reads read (fun m used => used = m.encode ∧ m.Small) := by
  refine ((reads_array 32).bind fun _ => (reads_array 20).bind fun _ => reads_uint64.bind fun _ =>
    reads_counted.bind fun _ => .pure _).congr fun m used => ?_
  obtain ⟨⟩ := m
  simp [encode, layout, Small]

end GroupJoinMessage

/-- `GroupLeaveMessage`: it has the fields of a `GroupJoinMessage`, and the same code encodes and
decodes them. -/
abbrev GroupLeaveMessage := GroupJoinMessage

def GroupLeaveMessage.layout : GroupLeaveMessage → Layout := GroupJoinMessage.layout

def GroupLeaveMessage.read : Reader GroupLeaveMessage := GroupJoinMessage.read

structure GroupUpdateMessage where
  groupID : ByteArr 32
  updateType : UInt8
  updatedBy : Address
  timestamp : UInt64
  newGroupName : Bytes
  memberAddr : Address
  signature : Bytes

namespace GroupUpdateMessage

def layout (m : GroupUpdateMessage) : Layout where
  size := 32 + 1 + 20 + 8 + 4 + m.newGroupName.length + 20 + 4 + m.signature.length
  writes :=
    [.copy m.groupID.bytes,
      .put [m.updateType],
      .copy m.updatedBy.bytes,
      .put (putUint 8 m.timestamp.toNat),
      .put (putUint 4 m.newGroupName.length),
      .copy m.newGroupName,
      .copy m.memberAddr.bytes,
      .put (putUint 4 m.signature.length),
      .copy m.signature]

def encode (m : GroupUpdateMessage) : Bytes := m.layout.content

def read : Reader GroupUpdateMessage := do
  let groupID ← array 32
  let updateType ← byte
  let updatedBy ← array 20
  let timestamp ← uint64
  let newGroupName ← counted
  let memberAddr ← array 20
  let signature ← counted
  return { groupID, updateType, updatedBy, timestamp, newGroupName, memberAddr, signature }

def Small (m : GroupUpdateMessage) : Prop :=
  m.newGroupName.length < 2 ^ 32 ∧ m.signature.length < 2 ^ 32

theorem layout_run (m : GroupUpdateMessage) : m.layout.run = some m.encode := by
  refine run_eq ?_
  simp [layout]
  omega

theorem reads : Reads read (fun m used => used = m.encode ∧ m.Small) := by
  refine ((reads_array 32).bind fun _ => reads_byte.bind fun _ => (reads_array 20).bind fun _ =>
    reads_uint64.bind fun _ => reads_counted.bind fun _ => (reads_array 20).bind fun _ =>
    reads_counted.bind fun _ => .pure _).congr fun m used => ?_
  obtain ⟨⟩ := m
  simp [encode, layout, Small]

end GroupUpdateMessage

/-! ## Read receipts and typing indicators -/

structure ReadReceipt where
  fromAddr : Address
  toAddr : Address
  messageID : ByteArr 16
  timestamp : UInt64
  readStatus : UInt8

namespace ReadReceipt

def layout (r : ReadReceipt) : Layout where
  size := 1 + 20 + 20 + 16 + 8 + 1
  writes :=
    [.put [0x02],
      .copy r.fromAddr.bytes,
      .copy r.toAddr.bytes,
      .copy r.messageID.bytes,
      .put (putUint 8 r.timestamp.toNat),
      .put [r.readStatus]]

def encode (r : ReadReceipt) : Bytes := r.layout.content

def read : Reader ReadReceipt := do
  need 66 "buffer too short for read receipt"
  expect 0x02 "invalid message type for read receipt"
  let fromAddr ← array 20
  let toAddr ← array 20
  let messageID ← array 16
  let timestamp ← uint64
  let readStatus ← byte
  return { fromAddr, toAddr, messageID, timestamp, readStatus }

theorem layout_run (r : ReadReceipt) : r.layout.run = some r.encode := by
  refine run_eq ?_
  simp [layout]

theorem reads : Reads read (fun r used => used = r.encode) := by
  refine need (.congr ((reads_expect 0x02 _).bind fun _ => (reads_array 20).bind fun _ =>
    (reads_array 20).bind fun _ => (reads_array 16).bind fun _ => reads_uint64.bind fun _ =>
    reads_byte.bind fun _ => .pure _) fun r used => ?_) ?_ _
  · obtain ⟨⟩ := r
    simp [encode, layout]
  · rintro r _ rfl
    simp [encode, layout]

end ReadReceipt

structure TypingIndicator where
  fromAddr : Address
  toAddr : Address
  timestamp : UInt64
  isTyping : Bool

namespace TypingIndicator

def layout (t : TypingIndicator) : Layout where
  size := 1 + 20 + 20 + 8 + 1
  writes :=
    [.put [0x01],
      .copy t.fromAddr.bytes,
      .copy t.toAddr.bytes,
      .put (putUint 8 t.timestamp.toNat),
      .put [if t.isTyping then 1 else 0]]

def encode (t : TypingIndicator) : Bytes := t.layout.content

def read : Reader TypingIndicator := do
  need 50 "buffer too short for typing indicator"
  expect 0x01 "invalid message type for typing indicator"
  let fromAddr ← array 20
  let toAddr ← array 20
  let timestamp ← uint64
  let isTyping ← byte
  return { fromAddr, toAddr, timestamp, isTyping := isTyping == 1 }

theorem layout_run (t : TypingIndicator) : t.layout.run = some t.encode := by
  refine run_eq ?_
  simp [layout]

theorem reads : Reads read (fun t used => ∃ v : UInt8, t.isTyping = (v == 1) ∧
    used = [0x01] ++ t.fromAddr.bytes ++ t.toAddr.bytes ++ putUint 8 t.timestamp.toNat ++ [v]) := by
  refine need (.congr ((reads_expect 0x01 _).bind fun _ => (reads_array 20).bind fun _ =>
    (reads_array 20).bind fun _ => reads_uint64.bind fun _ => reads_byte.bind fun _ =>
    .pure _) fun t used => ?_) ?_ _
  · obtain ⟨⟩ := t
    simp [and_comm]
  · rintro t _ ⟨v, -, rfl⟩
    simp

end TypingIndicator

/-! ## Handshakes and forwards -/

structure HandshakeMessage where
  protocolVersion : UInt16
  address : Address
  publicKey : Bytes
  clientType : UInt8
  timestamp : UInt64
  signature : Bytes

namespace HandshakeMessage

def layout (m : HandshakeMessage) : Layout where
  size := 2 + 20 + 4 + m.publicKey.length + 1 + 8 + 4 + m.signature.length
  writes :=
    [.put (putUint 2 m.protocolVersion.toNat),
      .copy m.address.bytes,
      .put (putUint 4 m.publicKey.length),
      .copy m.publicKey,
      .put [m.clientType],
      .put (putUint 8 m.timestamp.toNat),
      .put (putUint 4 m.signature.length),
      .copy m.signature]

def encode (m : HandshakeMessage) : Bytes := m.layout.content

/-- `HandshakeMessage.Decode` up to the length of the signature. -/
def readHead : Reader (HandshakeMessage × UInt32) := do
  let protocolVersion ← uint16
  let address ← array 20
  let publicKey ← counted
  let clientType ← byte
  let timestamp ← uint64
  let sigLen ← uint32
  return ({ protocolVersion, address, publicKey, clientType, timestamp, signature := [] }, sigLen)

def read : Reader HandshakeMessage := do
  let (m, sigLen) ← readHead
  let signature ← sub sigLen.toNat
  return { m with signature }

def Small (m : HandshakeMessage) : Prop := m.publicKey.length < 2 ^ 32 ∧ m.signature.length < 2 ^ 32

def head (m : HandshakeMessage) (sigLen : UInt32) : Bytes :=
  putUint 2 m.protocolVersion.toNat ++ m.address.bytes ++ putUint 4 m.publicKey.length ++
    m.publicKey ++ [m.clientType] ++ putUint 8 m.timestamp.toNat ++ putUint32 sigLen

theorem length_head (m : HandshakeMessage) (sigLen : UInt32) :
    (m.head sigLen).length = 39 + m.publicKey.length := by
  simp [head]
  omega

theorem encode_eq {m : HandshakeMessage} {sigLen : UInt32}
    (h : m.signature.length = sigLen.toNat) : m.encode = m.head sigLen ++ m.signature := by
  simp [encode, layout, head, putUint32, h]

theorem layout_run (m : HandshakeMessage) : m.layout.run = some m.encode := by
  refine run_eq ?_
  simp [layout]
  omega

theorem readsHead : Reads readHead (fun out used => used = out.1.head out.2 ∧
    out.1.publicKey.length < 2 ^ 32 ∧ out.1.signature = []) := by
  refine (reads_uint16.bind fun _ => (reads_array 20).bind fun _ => reads_counted.bind fun _ =>
    reads_byte.bind fun _ => reads_uint64.bind fun _ => reads_uint32.bind fun _ =>
    .pure _).congr fun out used => ?_
  obtain ⟨⟨⟩, _⟩ := out
  simp [head, and_comm]

theorem reads : Reads read (fun m used => used = m.encode ∧ m.Small) := by
  refine (readsHead.bind fun out => (reads_sub out.2.toNat).bind fun signature =>
    .pure { out.1 with signature }).congr fun m used => ?_
  constructor
  · rintro ⟨⟨m, sigLen⟩, _, _, rfl, ⟨rfl, hkey, -⟩, _, signature, _, rfl, ⟨rfl, hlen⟩, rfl, rfl⟩
    refine ⟨?_, hkey, hlen ▸ sigLen.toNat_lt⟩
    rw [encode_eq hlen, append_nil]
    rfl
  · rintro ⟨rfl, hkey, hsig⟩
    have hlen : m.signature.length = (UInt32.ofNat m.signature.length).toNat :=
      (UInt32.toNat_ofNat_of_lt' hsig).symm
    refine ⟨({ m with signature := [] }, _), _, _, encode_eq hlen, ⟨rfl, hkey, rfl⟩, m.signature,
      m.signature, [], (append_nil _).symm, ⟨rfl, hlen⟩, rfl, rfl⟩

end HandshakeMessage

structure RelayForward where
  nextHop : Address
  ttl : UInt8
  payload : Bytes
  payloadHash : ByteArr 32

namespace RelayForward

def layout (m : RelayForward) : Layout where
  size := 20 + 1 + 4 + m.payload.length + 32
  writes :=
    [.copy m.nextHop.bytes,
      .put [m.ttl],
      .put (putUint 4 m.payload.length),
      .copy m.payload,
      .copy m.payloadHash.bytes]

def encode (m : RelayForward) : Bytes := m.layout.content

def read : Reader RelayForward := do
  let nextHop ← array 20
  let ttl ← byte
  let payload ← counted
  let payloadHash ← array 32
  return { nextHop, ttl, payload, payloadHash }

def Small (m : RelayForward) : Prop := m.payload.length < 2 ^ 32

theorem layout_run (m : RelayForward) : m.layout.run = some m.encode := by
  refine run_eq ?_
  simp [layout]
  omega

theorem reads : Reads read (fun m used => used = m.encode ∧ m.Small) := by
  refine ((reads_array 20).bind fun _ => reads_byte.bind fun _ => reads_counted.bind fun _ =>
    (reads_array 32).bind fun _ => .pure _).congr fun m used => ?_
  obtain ⟨⟩ := m
  simp [encode, layout, Small]

end RelayForward

/-! ## Profiles -/

structure ProfileUpdate where
  address : Address
  username : ByteArr 32
  avatarChunkID : UInt64
  avatarKey : ByteArr 32
  bio : ByteArr 256
  publicKey : Bytes
  timestamp : UInt64
  signature : Bytes

namespace ProfileUpdate

def layout (m : ProfileUpdate) : Layout where
  size := 20 + 32 + 8 + 32 + 256 + 4 + m.publicKey.length + 8 + 4 + m.signature.length
  writes :=
    [.copy m.address.bytes,
      .copy m.username.bytes,
      .put (putUint 8 m.avatarChunkID.toNat),
      .copy m.avatarKey.bytes,
      .copy m.bio.bytes,
      .put (putUint 4 m.publicKey.length),
      .copy m.publicKey,
      .put (putUint 8 m.timestamp.toNat),
      .put (putUint 4 m.signature.length),
      .copy m.signature]

def encode (m : ProfileUpdate) : Bytes := m.layout.content

def read : Reader ProfileUpdate := do
  let address ← array 20
  let username ← array 32
  let avatarChunkID ← uint64
  let avatarKey ← array 32
  let bio ← array 256
  let publicKey ← counted
  let timestamp ← uint64
  let signature ← counted
  return { address, username, avatarChunkID, avatarKey, bio, publicKey, timestamp, signature }

def Small (m : ProfileUpdate) : Prop := m.publicKey.length < 2 ^ 32 ∧ m.signature.length < 2 ^ 32

theorem layout_run (m : ProfileUpdate) : m.layout.run = some m.encode := by
  refine run_eq ?_
  simp [layout]
  omega

theorem reads : Reads read (fun m used => used = m.encode ∧ m.Small) := by
  refine ((reads_array 20).bind fun _ => (reads_array 32).bind fun _ => reads_uint64.bind fun _ =>
    (reads_array 32).bind fun _ => (reads_array 256).bind fun _ => reads_counted.bind fun _ =>
    reads_uint64.bind fun _ => reads_counted.bind fun _ => .pure _).congr fun m used => ?_
  obtain ⟨⟩ := m
  simp [encode, layout, Small]

end ProfileUpdate

/-! ## Key bundles -/

namespace OneTimePreKey

/-- The statements of the loop in `KeyBundle.Encode`. -/
def writes (opk : OneTimePreKey) : List Write :=
  [.put (putUint32 opk.keyID), .copy opk.publicKey.bytes]

/-- The loop in `DecodeKeyBundle`. -/
def read : Reader OneTimePreKey := do
  let keyID ← uint32
  let publicKey ← array 32
  return { keyID, publicKey }

theorem reads : Reads read (fun opk used => used = opk.writes.flatMap Write.bytes) := by
  refine (reads_uint32.bind fun _ => (reads_array 32).bind fun _ => .pure _).congr
    fun opk used => ?_
  obtain ⟨⟩ := opk
  simp [writes]

end OneTimePreKey

namespace KeyBundle

def layout (kb : KeyBundle) : Layout where
  size := 20 + 32 + 4 + 108 + 4 + kb.oneTimePreKeys.length * 36
  writes :=
    [.copy kb.address.bytes,
      .copy kb.identityKey.bytes,
      .put (putUint32 kb.registrationID),
      .put (putUint32 kb.signedPreKey.keyID),
      .copy kb.signedPreKey.publicKey.bytes,
      .copy kb.signedPreKey.signature.bytes,
      .put (putUint 8 kb.signedPreKey.timestamp.toNat),
      .put (putUint 4 kb.oneTimePreKeys.length)] ++
    kb.oneTimePreKeys.flatMap OneTimePreKey.writes

def encode (kb : KeyBundle) : Bytes := kb.layout.content

/-- The fields that `DecodeKeyBundle` reads. -/
def readFields : Reader KeyBundle := do
  let address ← array 20
  let identityKey ← array 32
  let registrationID ← uint32
  let keyID ← uint32
  let publicKey ← array 32
  let signature ← array 64
  let timestamp ← uint64
  let oneTimePreKeys ← items OneTimePreKey.read
  let signedPreKey : SignedPreKey := { keyID, publicKey, signature, timestamp }
  return { address, identityKey, signedPreKey, oneTimePreKeys, registrationID }

def read : Reader KeyBundle := do
  need (20 + 32 + 4 + 108 + 4) "buffer too short for key bundle"
  readFields

def Small (kb : KeyBundle) : Prop := kb.oneTimePreKeys.length < 2 ^ 32

theorem length_oneTimePreKeys (opks : List OneTimePreKey) :
    ((opks.flatMap OneTimePreKey.writes).flatMap Write.bytes).length = opks.length * 36 := by
  induction opks with
  | nil => rfl
  | cons opk opks ih =>
    rw [flatMap_cons, flatMap_append, length_append, ih]
    simp [OneTimePreKey.writes]
    omega

theorem layout_run (kb : KeyBundle) : kb.layout.run = some kb.encode := by
  refine run_eq ?_
  rw [layout, content_mk, flatMap_append, length_append, length_oneTimePreKeys]
  simp

theorem readsFields : Reads readFields (fun kb used => used = kb.encode ∧ kb.Small) := by
  refine ((reads_array 20).bind fun _ => (reads_array 32).bind fun _ => reads_uint32.bind fun _ =>
    reads_uint32.bind fun _ => (reads_array 32).bind fun _ => (reads_array 64).bind fun _ =>
    reads_uint64.bind fun _ => OneTimePreKey.reads.items.bind fun _ => .pure _).congr
    fun kb used => ?_
  obtain ⟨_, _, ⟨⟩, _, _⟩ := kb
  simp [encode, layout, Small, flatMap_assoc]

theorem reads : Reads read (fun kb used => used = kb.encode ∧ kb.Small) := by
  refine readsFields.need ?_ _
  rintro kb _ ⟨rfl, -⟩
  simp [encode, layout]
  omega

end KeyBundle

end Zentalk
