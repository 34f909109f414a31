import Zentalk.Lib.TwoPart
import Zentalk.Network.Framing

/-!
# The relay's writes to one connection

Most sends write a header and then, in a second `Write`, the payload (`whole_frames`).
-/

namespace Zentalk

open Wire Runs TwoPart List

/-! ## What is sent -/

/-- A payload. Its length fits the header's field, as it came in such a frame. -/
structure Payload where
  bytes : Bytes
  small : bytes.length < 2 ^ 32

/-- The sends to a peer connection, with the payload and the message ID that the call has.
`deliverQueuedMessages` makes one for each queued message. -/
inductive RelaySend
  | forwardToNextHop (payload : Payload) (messageID : ByteArr 16)
  | deliverMessage (encryptedPayload : Payload) (messageID : ByteArr 16)
  | deliverQueuedMessages (encryptedPayload : Payload) (messageID : ByteArr 16)
  | handlePing (messageID : ByteArr 16)
  | sendHandshakeAck (handshake : Payload) (messageID : ByteArr 16)
  | sendAck (messageID : ByteArr 16)

def msgTypeHandshakeAck : UInt16 := 0x0002
def flagEncrypted : UInt16 := 0x0001

/-- A header as the relay's functions build it. -/
def relayHeader (type : UInt16) (length : ℕ) (flags : UInt16) (messageID : ByteArr 16) : Header :=
  { magic := 0x5A54414C
    version := 0x0100
    type := type
    length := UInt32.ofNat length
    flags := flags
    messageID := messageID
    reserved := 0 }

namespace RelaySend

/-- What the second `Write` is for; `none` if there is none. -/
def payload : RelaySend → Option Payload
  | forwardToNextHop payload _ => some payload
  | deliverMessage encryptedPayload _ => some encryptedPayload
  | deliverQueuedMessages encryptedPayload _ => some encryptedPayload
  | handlePing _ => none
  | sendHandshakeAck handshake _ => some handshake
  | sendAck _ => none

def payloadBytes (send : RelaySend) : Bytes := (send.payload.map Payload.bytes).getD []

/-- The header of the first `Write`. -/
def header (send : RelaySend) : Header :=
  let length := send.payloadBytes.length
  match send with
  | forwardToNextHop _ messageID => relayHeader msgTypeRelayForward length 0 messageID
  | deliverMessage _ messageID => relayHeader msgTypeDirectMessage length flagEncrypted messageID
  | deliverQueuedMessages _ messageID =>
    relayHeader msgTypeDirectMessage length flagEncrypted messageID
  | handlePing messageID => relayHeader msgTypePong length 0 messageID
  | sendHandshakeAck _ messageID => relayHeader msgTypeHandshakeAck length 0 messageID
  | sendAck messageID => relayHeader msgTypeAck length 0 messageID

variable (send : RelaySend)

theorem length_header : send.header.length = UInt32.ofNat send.payloadBytes.length := by
  cases send <;> rfl

theorem validate_header : send.header.validate = .ok () := by
  cases send <;> rfl

theorem small_payloadBytes : send.payloadBytes.length < 2 ^ 32 := by
  unfold payloadBytes
  cases send.payload with
  | none => decide
  | some payload => exact payload.small

def frame (send : RelaySend) : WireFrame where
  header := send.header
  payload := send.payloadBytes
  valid := send.validate_header
  length_eq := by
    rw [length_header, UInt32.toNat_ofNat_of_lt' send.small_payloadBytes]

end RelaySend

/-! ## Goroutines -/

def headerWrite (send : RelaySend) : Bytes := send.header.encode

def payloadWrite (send : RelaySend) : Option Bytes := send.payload.map Payload.bytes

/-- What a peer has received, and which goroutines are between the two writes of a send. -/
abbrev PeerConn (ι : Type*) := TwoPart.State ι RelaySend UInt8

/-- One `Write` of one of the goroutines to the connection. A goroutine that is not in the middle of
a send may start any; it goes on to its next send when a write has failed. -/
abbrev RelayStep {ι : Type*} [DecidableEq ι] :
    PeerConn ι → TwoPart.Event ι RelaySend → PeerConn ι → Prop :=
  TwoPart.Step headerWrite payloadWrite

theorem record_eq (send : RelaySend) :
    record headerWrite payloadWrite send = send.header.encode ++ send.frame.payload := rfl

theorem streamOf_map_frame (sends : List RelaySend) :
    sends.flatMap (record headerWrite payloadWrite) = streamOf (sends.map RelaySend.frame) := by
  rw [streamOf, flatMap_map]
  exact flatMap_congr fun send _ => record_eq send

/-- What the peer received are the frames of the sends that were started, in their order. While
a goroutine is in the middle of a send, only the header of the last one is there. -/
inductive ReceivesFrames {ι : Type*} (evs : List (TwoPart.Event ι RelaySend)) (s : PeerConn ι) :
    Prop
  | whole : (∀ i, s.midway i = none) → s.log = streamOf ((begun evs).map RelaySend.frame) →
      ReceivesFrames evs s
  | midway (send : RelaySend) (done : List RelaySend) : begun evs = done ++ [send] →
      (∃ i, s.midway i = some send) →
      s.log = streamOf (done.map RelaySend.frame) ++ send.header.encode → ReceivesFrames evs s

/-- If a header is only written while no send is in progress, and no payload write fails, the peer
receives whole frames, each header followed by its own payload. -/
theorem whole_frames {ι : Type*} [DecidableEq ι] {evs : List (TwoPart.Event ι RelaySend)}
    {s : PeerConn ι} (hrun : Run RelayStep State.init evs s)
    (halone : Guarded RelayStep State.init (fun _ s e => Alone s e) evs) :
    ReceivesFrames evs s := by
  cases whole_run hrun halone with
  | idle hidle hlog => exact .whole hidle (hlog.trans (streamOf_map_frame _))
  | midway i send done hmidway _ hbegun hlog =>
    refine .midway send done hbegun ⟨i, hmidway⟩ ?_
    rw [hlog, streamOf_map_frame]
    rfl

def sampleDelivery : RelaySend := .deliverMessage ⟨[7], by decide⟩ (ByteArr.zero 16)

def samplePong : RelaySend := .handlePing (ByteArr.zero 16)

/-- One goroutine delivers a message, and another one answers a ping after it. -/
theorem whole_frames_delivery : ∃ (evs : List (TwoPart.Event Bool RelaySend)) (s : PeerConn Bool),
    Run RelayStep State.init evs s ∧ begun evs = [sampleDelivery, samplePong] ∧
      ReceivesFrames evs s := by
  have hbegan : Run RelayStep (State.init : PeerConn Bool) ([] ++ [.began true sampleDelivery]) _ :=
    Run.nil.snoc (.began true sampleDelivery rfl)
  have hrun := (hbegan.snoc (.ended true sampleDelivery rfl)).snoc (.began false samplePong rfl)
  refine ⟨_, _, hrun, rfl, whole_frames hrun
    (((Guarded.nil.snoc ?_).snoc fun _ _ => trivial).snoc ?_)⟩
  · intro s hs j
    rw [← Run.nil_inv hs]
    rfl
  · intro s hs j
    obtain ⟨s₁, hs₁, hended⟩ := hs.snoc_inv
    obtain ⟨s₀, hs₀, hbegan⟩ := hs₁.snoc_inv
    cases hs₀.nil_inv
    cases hbegan
    cases hended
    cases j <;> rfl

/-- A ping is answered between the header and the payload of a delivery. -/
def tornEvents : List (TwoPart.Event Bool RelaySend) :=
  [.began true sampleDelivery, .began false samplePong, .ended true]

/-- What the peer has received then. -/
def tornStream : Bytes := sampleDelivery.header.encode ++ samplePong.header.encode ++ [7]

def HeaderCall.failure (call : HeaderCall) : Option String :=
  match call.result with
  | .error e => some e
  | .ok _ => none

theorem tornStream_ne (frames : List WireFrame) : tornStream ≠ streamOf frames := by
  have hfailures : (readLoop (fun header => header.length.toNat) 2 0 tornStream).map
      HeaderCall.failure = [none, some "invalid protocol magic"] := by
    decide +kernel
  have hmem : some "invalid protocol magic" ∈ (readLoop (fun header => header.length.toNat) 2 0
      tornStream).map HeaderCall.failure := by
    exact mem_cons_of_mem _ (mem_singleton_self _)
  obtain ⟨call, hcall, hfailure⟩ := mem_map.mp hmem
  have herror : call.result = .error "invalid protocol magic" := by
    unfold HeaderCall.failure at hfailure
    split at hfailure
    · next heq => rw [heq, Option.some.inj hfailure]
    · cases hfailure
  exact not_streamOf hcall herror (by decide) frames

/-- What the peer receives in this order is no sequence of frames. -/
theorem torn_frame : ∃ s : PeerConn Bool, Run RelayStep State.init tornEvents s ∧
    (∀ i, s.midway i = none) ∧ (∀ frames, s.log ≠ streamOf frames) ∧
    ¬ ReceivesFrames tornEvents s := by
  have hrun : Run RelayStep (State.init : PeerConn Bool) tornEvents _ :=
    ((Run.nil.snoc (.began true sampleDelivery rfl)).snoc (.began false samplePong rfl)).snoc
      (.ended true sampleDelivery rfl)
  refine ⟨_, hrun, ?_, tornStream_ne, ?_⟩
  · rintro (_ | _) <;> rfl
  · rintro (⟨-, hlog⟩ | ⟨send, done, -, ⟨i, hmidway⟩, -⟩)
    · exact tornStream_ne _ hlog
    · rcases i with _ | _ <;> cases hmidway

end Zentalk
