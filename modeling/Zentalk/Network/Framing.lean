import Zentalk.Network.Session

/-!
# Frames on a connection

Some branches do not read the payload that the header announces (`frames_synchronised_iff`).
-/

namespace Zentalk

open Wire List ByteArr

/-! ## Headers -/

namespace Header

def encode (h : Header) : Bytes :=
  putUint32 h.magic ++ (putUint 2 h.version.toNat ++ (putUint 2 h.type.toNat ++
    (putUint32 h.length ++ (putUint 2 h.flags.toNat ++
      (h.messageID.bytes ++ putUint 2 h.reserved.toNat)))))

def decode (buf : Bytes) : Except String Header :=
  if buf.length < 32 then .error "invalid header"
  else .ok
    { magic := getUint32 (slice buf 0 4)
      version := UInt16.ofNat (getUint (slice buf 4 2))
      type := UInt16.ofNat (getUint (slice buf 6 2))
      length := getUint32 (slice buf 8 4)
      flags := UInt16.ofNat (getUint (slice buf 12 2))
      messageID := ofSlice 16 (slice buf 14 16)
      reserved := UInt16.ofNat (getUint (slice buf 30 2)) }

def validate (h : Header) : Except String Unit :=
  if h.magic ≠ 0x5A54414C then .error "invalid protocol magic"
  else if h.version ≠ 0x0100 then .error "unsupported protocol version"
  else .ok ()

@[simp] theorem length_encode (h : Header) : h.encode.length = 32 := by
  simp [encode]

theorem ofNat_getUint_putUint (v : UInt16) : UInt16.ofNat (getUint (putUint 2 v.toNat)) = v := by
  have hlt : v.toNat < 256 ^ 2 := v.toNat_lt
  rw [getUint_putUint, Nat.mod_eq_of_lt hlt, UInt16.ofNat_toNat]

theorem decode_append (h : Header) (t : Bytes) : decode (h.encode ++ t) = .ok h := by
  have hlen : ¬ (h.encode ++ t).length < 32 := by simp
  rw [decode, if_neg hlen]
  simp (disch := simp) only [encode, append_assoc, slice_append_right, slice_append_left,
    length_bytes, length_putUint32, length_putUint, Nat.reduceSub, ofSlice_bytes,
    getUint32_putUint32, ofNat_getUint_putUint]

theorem decode_encode (h : Header) : decode h.encode = .ok h := by
  simpa using h.decode_append []

end Header

/-- `io.ReadFull` of `n` bytes from the bytes that are still to come: those read and the rest. -/
def readFull (n : ℕ) (stream : Bytes) : Except String (Bytes × Bytes) :=
  if n = 0 then .ok ([], stream)
  else if stream = [] then .error "EOF"
  else if stream.length < n then .error "unexpected EOF"
  else .ok (stream.take n, stream.drop n)

def readHeader (stream : Bytes) : Except String (Header × Bytes) :=
  match readFull 32 stream with
  | .error e => .error e
  | .ok (buf, rest) =>
    match Header.decode buf with
    | .error e => .error e
    | .ok header =>
      match header.validate with
      | .error e => .error e
      | .ok () => .ok (header, rest)

/-- A valid header is read back, whatever follows it. -/
theorem readHeader_append {h : Header} (hvalid : h.validate = .ok ()) (rest : Bytes) :
    readHeader (h.encode ++ rest) = .ok (h, rest) := by
  have hlen : (h.encode ++ rest).length = 32 + rest.length := by simp
  have hne : h.encode ++ rest ≠ [] := by
    intro hnil
    rw [hnil] at hlen
    simp at hlen
    omega
  rw [readHeader, readFull, if_neg (by decide), if_neg hne, if_neg (by omega),
    take_left' h.length_encode, drop_left' h.length_encode]
  simp only [Header.decode_encode, hvalid]

/-! ## The two loops -/

def msgTypeHandshake : UInt16 := 0x0001
def msgTypePing : UInt16 := 0x0003
def msgTypePong : UInt16 := 0x0004
def msgTypeRelayForward : UInt16 := 0x0100
def msgTypeDirectMessage : UInt16 := 0x0200
def msgTypeTyping : UInt16 := 0x0202
def msgTypeReadReceipt : UInt16 := 0x0203
def msgTypeAck : UInt16 := 0x0501
def msgTypeNack : UInt16 := 0x0502

/-- The branches of `handleConnection`. -/
inductive RelayBranch
  | handleHandshake
  | handleRelayForward
  | handlePing
  | unknown

/-- The `switch` of `handleConnection`. -/
def RelayBranch.of (type : UInt16) : RelayBranch :=
  if type = msgTypeHandshake then handleHandshake
  else if type = msgTypeRelayForward then handleRelayForward
  else if type = msgTypePing then handlePing
  else unknown

/-- How many bytes the branch tries to read behind the header: `handleHandshake` and
`handleRelayForward` read the announced length, `handlePing` only writes. -/
def RelayBranch.reads (header : Header) : RelayBranch → ℕ
  | handleHandshake => header.length.toNat
  | handleRelayForward => header.length.toNat
  | handlePing => 0
  | unknown => 0

/-- The branches of `receiveLoop`. -/
inductive ClientBranch
  | handleDirectMessage
  | handleTypingIndicator
  | handleReadReceipt
  | pong
  | handleAckMessage
  | handleNackMessage
  | unknown

/-- The `switch` of `receiveLoop`. -/
def ClientBranch.of (type : UInt16) : ClientBranch :=
  if type = msgTypeDirectMessage then handleDirectMessage
  else if type = msgTypeTyping then handleTypingIndicator
  else if type = msgTypeReadReceipt then handleReadReceipt
  else if type = msgTypePong then pong
  else if type = msgTypeAck then handleAckMessage
  else if type = msgTypeNack then handleNackMessage
  else unknown

/-- How many bytes the branch tries to read behind the header. -/
def ClientBranch.reads (header : Header) : ClientBranch → ℕ
  | handleDirectMessage => header.length.toNat
  | handleTypingIndicator => header.length.toNat
  | handleReadReceipt => header.length.toNat
  | pong => 0
  | handleAckMessage => header.length.toNat
  | handleNackMessage => header.length.toNat
  | unknown => 0

/-- A call of `ReadHeader`: where in the stream it starts, and what it returns. -/
structure HeaderCall where
  offset : ℕ
  result : Except String Header

/-- The calls of `ReadHeader` in a loop of at most this many rounds. `reads` is what the branch for
a header reads; a read that runs into the end of the stream uses up what is left. -/
def readLoop (reads : Header → ℕ) : ℕ → ℕ → Bytes → List HeaderCall
  | 0, _, _ => []
  | rounds + 1, offset, stream =>
    match readHeader stream with
    | .error e => [⟨offset, .error e⟩]
    | .ok (header, rest) =>
      let used := min (reads header) rest.length
      ⟨offset, .ok header⟩ :: readLoop reads rounds (offset + 32 + used) (rest.drop used)

def handleConnection (rounds : ℕ) (stream : Bytes) : List HeaderCall :=
  readLoop (fun header => (RelayBranch.of header.type).reads header) rounds 0 stream

def receiveLoop (rounds : ℕ) (stream : Bytes) : List HeaderCall :=
  readLoop (fun header => (ClientBranch.of header.type).reads header) rounds 0 stream

/-! ## Frames -/

/-- A well-formed frame: the header is valid and announces the length of the payload. -/
structure WireFrame where
  header : Header
  payload : Bytes
  valid : header.validate = .ok ()
  length_eq : payload.length = header.length.toNat

def streamOf (frames : List WireFrame) : Bytes :=
  frames.flatMap fun f => f.header.encode ++ f.payload

/-- One call of `ReadHeader` per frame, at its start, and one at the end of the stream. -/
def frameCalls : ℕ → List WireFrame → List HeaderCall
  | offset, [] => [⟨offset, .error "EOF"⟩]
  | offset, f :: frames =>
    ⟨offset, .ok f.header⟩ :: frameCalls (offset + 32 + f.payload.length) frames

def Synchronised (loop : ℕ → Bytes → List HeaderCall) (frames : List WireFrame) : Prop :=
  ∀ rounds, loop rounds (streamOf frames) = (frameCalls 0 frames).take rounds

section

variable {reads : Header → ℕ} {offset : ℕ} {f : WireFrame} {frames : List WireFrame}

theorem readLoop_frame (hle : reads f.header ≤ f.header.length.toNat) (rounds : ℕ) :
    readLoop reads (rounds + 1) offset (streamOf (f :: frames)) =
      ⟨offset, .ok f.header⟩ :: readLoop reads rounds (offset + 32 + reads f.header)
        (f.payload.drop (reads f.header) ++ streamOf frames) := by
  have hused : min (reads f.header) (f.payload ++ streamOf frames).length = reads f.header := by
    rw [length_append, f.length_eq]
    omega
  have hread : readHeader (streamOf (f :: frames)) =
      .ok (f.header, f.payload ++ streamOf frames) := by
    rw [streamOf, flatMap_cons, append_assoc]
    exact readHeader_append f.valid _
  rw [readLoop, hread]
  simp only [hused]
  rw [drop_append_of_le_length (by rw [f.length_eq]; exact hle)]

theorem readLoop_head (reads : Header → ℕ) (rounds offset : ℕ) (stream : Bytes) :
    (readLoop reads (rounds + 1) offset stream).head?.map HeaderCall.offset = some offset := by
  rw [readLoop]
  split <;> rfl

theorem frameCalls_head (offset : ℕ) (frames : List WireFrame) :
    (frameCalls offset frames).head?.map HeaderCall.offset = some offset := by
  cases frames <;> rfl

theorem readLoop_end (reads : Header → ℕ) (rounds offset : ℕ) :
    readLoop reads rounds offset (streamOf []) = (frameCalls offset []).take rounds := by
  cases rounds with
  | zero => rfl
  | succ rounds =>
    rw [frameCalls, take_succ_cons, take_nil]
    rfl

/-- A loop that never reads more than the announced length stays in step exactly when it reads the
whole payload of each frame. -/
theorem readLoop_synchronised_iff (hle : ∀ header, reads header ≤ header.length.toNat)
    (offset : ℕ) (frames : List WireFrame) :
    (∀ rounds, readLoop reads rounds offset (streamOf frames) =
      (frameCalls offset frames).take rounds) ↔
    ∀ f ∈ frames, reads f.header = f.payload.length := by
  induction frames generalizing offset with
  | nil => exact iff_of_true (readLoop_end reads · offset) fun _ h => (nomatch h)
  | cons f frames ih =>
    rw [forall_mem_cons]
    constructor
    · intro hsync
      -- the second call shows where the first frame's branch stopped reading
      have hfirst : reads f.header = f.payload.length := by
        have hcalls := hsync 2
        rw [readLoop_frame (hle _), frameCalls, take_succ_cons] at hcalls
        have hhead := congrArg (·.head?.map HeaderCall.offset) (cons.inj hcalls).2
        simp only [readLoop_head, head?_take, Nat.succ_ne_zero, if_false, frameCalls_head] at hhead
        have hoffset := Option.some.inj hhead
        omega
      refine ⟨hfirst, (ih (offset + 32 + f.payload.length)).mp fun rounds => ?_⟩
      have hcalls := hsync (rounds + 1)
      rw [readLoop_frame (hle _), frameCalls, take_succ_cons, hfirst, drop_length,
        nil_append] at hcalls
      exact (cons.inj hcalls).2
    · rintro ⟨hfirst, hrest⟩ rounds
      cases rounds with
      | zero => rfl
      | succ rounds =>
        rw [readLoop_frame (hle _), frameCalls, take_succ_cons, hfirst, drop_length,
          nil_append, (ih _).mpr hrest]

theorem frameCalls_error {offset : ℕ} {frames : List WireFrame} {call : HeaderCall} {e : String}
    (hcall : call ∈ frameCalls offset frames) (herror : call.result = .error e) : e = "EOF" := by
  induction frames generalizing offset with
  | nil =>
    rw [mem_singleton.mp hcall] at herror
    cases herror
    rfl
  | cons f frames ih =>
    rcases mem_cons.mp hcall with rfl | hcall
    · cases herror
    · exact ih hcall

theorem not_streamOf {stream : Bytes} {rounds : ℕ} {call : HeaderCall} {e : String}
    (hcall : call ∈ readLoop (fun header => header.length.toNat) rounds 0 stream)
    (herror : call.result = .error e) (hne : e ≠ "EOF") (frames : List WireFrame) :
    stream ≠ streamOf frames := by
  rintro rfl
  have hsync := (readLoop_synchronised_iff (fun _ => Nat.le_refl _) 0 frames).mpr
    (fun f _ => f.length_eq.symm) rounds
  rw [hsync] at hcall
  exact hne (frameCalls_error (mem_of_mem_take hcall) herror)

theorem reads_iff (f : WireFrame) (P : Prop) [Decidable P] :
    (if P then f.header.length.toNat else 0) = f.payload.length ↔ P ∨ f.payload = [] := by
  by_cases h : P
  · rw [if_pos h]
    exact iff_of_true f.length_eq.symm (.inl h)
  · rw [if_neg h, eq_comm, length_eq_zero_iff]
    exact ⟨.inr, fun hor => hor.resolve_left h⟩

variable (header : Header)

theorem relay_reads :
    (RelayBranch.of header.type).reads header =
      if header.type = msgTypeHandshake ∨ header.type = msgTypeRelayForward then
        header.length.toNat
      else 0 := by
  unfold RelayBranch.of
  split
  · next h => rw [if_pos (.inl h), RelayBranch.reads]
  next h₁ =>
  split
  · next h => rw [if_pos (.inr h), RelayBranch.reads]
  next h₂ =>
  rw [if_neg (not_or.mpr ⟨h₁, h₂⟩)]
  split <;> rfl

theorem client_reads :
    (ClientBranch.of header.type).reads header =
      if header.type = msgTypeDirectMessage ∨ header.type = msgTypeTyping ∨
          header.type = msgTypeReadReceipt ∨ header.type = msgTypeAck ∨
          header.type = msgTypeNack then
        header.length.toNat
      else 0 := by
  unfold ClientBranch.of
  split
  · next h => rw [if_pos (.inl h), ClientBranch.reads]
  next h₁ =>
  split
  · next h => rw [if_pos (.inr (.inl h)), ClientBranch.reads]
  next h₂ =>
  split
  · next h => rw [if_pos (.inr (.inr (.inl h))), ClientBranch.reads]
  next h₃ =>
  split
  · next h =>
    rw [h, if_neg (by decide), ClientBranch.reads]
  split
  · next h => rw [if_pos (.inr (.inr (.inr (.inl h)))), ClientBranch.reads]
  next h₄ =>
  split
  · next h => rw [if_pos (.inr (.inr (.inr (.inr h)))), ClientBranch.reads]
  next h₅ =>
  rw [if_neg (by simp only [h₁, h₂, h₃, h₄, h₅, or_self, not_false_eq_true]), ClientBranch.reads]

theorem relay_reads_le : (RelayBranch.of header.type).reads header ≤ header.length.toNat := by
  cases RelayBranch.of header.type <;> simp [RelayBranch.reads]

theorem client_reads_le : (ClientBranch.of header.type).reads header ≤ header.length.toNat := by
  cases ClientBranch.of header.type <;> simp [ClientBranch.reads]

end

/-- The `k`-th call of `ReadHeader` reads the `k`-th header: at the relay exactly when every frame
but handshakes and relay forwards has an empty payload, at the client exactly when every frame has
that is not of one of the five types with a handler. -/
theorem frames_synchronised_iff (frames : List WireFrame) :
    (Synchronised handleConnection frames ↔ ∀ f ∈ frames,
      (f.header.type = msgTypeHandshake ∨ f.header.type = msgTypeRelayForward) ∨
      f.payload = []) ∧
    (Synchronised receiveLoop frames ↔ ∀ f ∈ frames,
      (f.header.type = msgTypeDirectMessage ∨ f.header.type = msgTypeTyping ∨
        f.header.type = msgTypeReadReceipt ∨ f.header.type = msgTypeAck ∨
        f.header.type = msgTypeNack) ∨
      f.payload = []) := by
  constructor
  · refine (readLoop_synchronised_iff relay_reads_le 0 frames).trans (forall₂_congr fun f _ => ?_)
    rw [relay_reads]
    exact reads_iff f _
  · refine (readLoop_synchronised_iff client_reads_le 0 frames).trans (forall₂_congr fun f _ => ?_)
    rw [client_reads]
    exact reads_iff f _

/-! ## Acknowledgements -/

structure AckMessage where
  fromAddr : Address
  toAddr : Address
  messageID : ByteArr 16
  sequenceNumber : UInt64
  timestamp : UInt64

def AckMessage.encode (ack : AckMessage) : Bytes :=
  ack.fromAddr.bytes ++ (ack.toAddr.bytes ++ (ack.messageID.bytes ++
    (putUint 8 ack.sequenceNumber.toNat ++ putUint 8 ack.timestamp.toNat)))

@[simp] theorem AckMessage.length_encode (ack : AckMessage) : ack.encode.length = 72 := by
  simp [AckMessage.encode]

/-- The frame that `Client.sendAck` writes to the relay. -/
def ackFrame (ack : AckMessage) (messageID : ByteArr 16) : WireFrame where
  header :=
    { magic := 0x5A54414C
      version := 0x0100
      type := msgTypeAck
      length := UInt32.ofNat ack.encode.length
      flags := 0
      messageID := messageID
      reserved := 0 }
  payload := ack.encode
  valid := rfl
  length_eq := by
    rw [AckMessage.length_encode]
    rfl

def sampleAck : WireFrame :=
  ackFrame ⟨⟨replicate 20 1, rfl⟩, ⟨replicate 20 2, rfl⟩, zero 16, 0, 0⟩
    (zero 16)

/-- The relay reads the acknowledgement's payload as a header, and gives up the connection. -/
theorem ack_desynchronises_relay :
    (handleConnection 3 (streamOf [sampleAck])).map HeaderCall.offset = [0, 32] ∧
    (frameCalls 0 [sampleAck]).map HeaderCall.offset = [0, 104] ∧
    ¬ Synchronised handleConnection [sampleAck] := by
  have hcalls : (handleConnection 3 (streamOf [sampleAck])).map HeaderCall.offset = [0, 32] := by
    decide +kernel
  have hframes : (frameCalls 0 [sampleAck]).map HeaderCall.offset = [0, 104] := by decide +kernel
  refine ⟨hcalls, hframes, fun hsync => ?_⟩
  rw [hsync 3, map_take, hframes] at hcalls
  exact absurd hcalls (by decide)

end Zentalk
