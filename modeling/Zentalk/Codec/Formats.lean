import Zentalk.Codec.Messages

/-!
# Wire formats

All formats are `Exact` but that of typing indicators (`exact_of_mem`).
-/

namespace Zentalk

open Wire Reader List Option ByteArr Except Layout

/-- An encoder, which is `none` where it panics, a decoder, and the messages whose variable-length
fields fit their length fields. -/
structure WireFormat where
  Message : Type
  encode : Message → Option Bytes
  decode : Bytes → Except Fault Message
  Small : Message → Prop

namespace WireFormat

def ofReader {α : Type} (layout : α → Layout) (read : Reader α) (Small : α → Prop) :
    WireFormat where
  Message := α
  encode m := (layout m).run
  decode b := read.run (.full b)
  Small := Small

/-- A format whose decoder checks all lengths beforehand. -/
def ofChecked {α : Type} (layout : α → Layout) (decode : Bytes → Except String α)
    (Small : α → Prop) : WireFormat where
  Message := α
  encode m := (layout m).run
  decode b := (decode b).mapError .error
  Small := Small

/-- The encoder never panics, and the decoder returns `m` just for the strings that start with the
encoding of `m`. -/
structure Exact (F : WireFormat) : Prop where
  encodes : ∀ m, ∃ e, F.encode m = some e
  decode_ok_iff : ∀ (b : Bytes) (m : F.Message), F.decode b = .ok m ↔
    ∃ e t, F.encode m = some e ∧ F.Small m ∧ b = e ++ t

theorem ofReader_exact {α : Type} {layout : α → Layout} {read : Reader α} {Small : α → Prop}
    {encode : α → Bytes} (hrun : ∀ m, (layout m).run = some (encode m))
    (hreads : Reads read (fun m used => used = encode m ∧ Small m)) :
    (ofReader layout read Small).Exact := by
  refine ⟨fun m => ⟨encode m, hrun m⟩, fun b m => ?_⟩
  refine (hreads.run_ok_iff b m).trans ?_
  constructor
  · rintro ⟨_, t, hb, rfl, hsmall⟩
    exact ⟨encode m, t, hrun m, hsmall, hb⟩
  · rintro ⟨e, t, he, hsmall, hb⟩
    obtain rfl : encode m = e := some.inj ((hrun m).symm.trans he)
    exact ⟨encode m, t, hb, rfl, hsmall⟩

theorem mapError_eq_ok {α : Type} (x : Except String α) (a : α) :
    x.mapError Fault.error = .ok a ↔ x = .ok a := by
  cases x <;> simp [Except.mapError]

theorem ofChecked_exact {α : Type} {layout : α → Layout} {decode : Bytes → Except String α}
    {Small : α → Prop} {encode : α → Bytes} (hrun : ∀ m, (layout m).run = some (encode m))
    (hround : ∀ m t, Small m → decode (encode m ++ t) = .ok m)
    (hconverse : ∀ b m, decode b = .ok m → Small m ∧ ∃ t, b = encode m ++ t) :
    (ofChecked layout decode Small).Exact := by
  refine ⟨fun m => ⟨encode m, hrun m⟩, fun b m => ?_⟩
  refine (mapError_eq_ok (decode b) m).trans ?_
  constructor
  · intro hdecode
    obtain ⟨hsmall, t, hb⟩ := hconverse b m hdecode
    exact ⟨encode m, t, hrun m, hsmall, hb⟩
  · rintro ⟨e, t, he, hsmall, rfl⟩
    obtain rfl : encode m = e := some.inj ((hrun m).symm.trans he)
    exact hround m t hsmall

end WireFormat

/-! ## Decoders that check all lengths beforehand -/

section

variable {b : Bytes} {off : ℕ}

theorem bytes_ofSlice {n : ℕ} (h : off + n ≤ b.length) :
    (ofSlice n (slice b off n)).bytes = slice b off n :=
  congrArg bytes (ofSlice_bytes ⟨slice b off n, length_slice h⟩)

theorem putUint16_getUint (h : off + 2 ≤ b.length) :
    putUint 2 (UInt16.ofNat (getUint (slice b off 2))).toNat = slice b off 2 := by
  have hlen := length_slice h
  have hlt : getUint (slice b off 2) < 256 ^ 2 := by simpa [hlen] using getUint_lt (slice b off 2)
  rw [UInt16.toNat_ofNat_of_lt' hlt, putUint_getUint hlen]

theorem putUint32_getUint32 (h : off + 4 ≤ b.length) :
    putUint32 (getUint32 (slice b off 4)) = slice b off 4 := by
  have hlen := length_slice h
  have hlt : getUint (slice b off 4) < 256 ^ 4 := by simpa [hlen] using getUint_lt (slice b off 4)
  rw [putUint32, getUint32, UInt32.toNat_ofNat_of_lt' hlt, putUint_getUint hlen]

end

namespace Header

/-- `Header.Encode`. -/
def layout (h : Header) : Layout where
  size := 32
  writes :=
    [.put (putUint32 h.magic),
      .put (putUint 2 h.version.toNat),
      .put (putUint 2 h.type.toNat),
      .put (putUint32 h.length),
      .put (putUint 2 h.flags.toNat),
      .copy h.messageID.bytes,
      .put (putUint 2 h.reserved.toNat)]

theorem layout_run (h : Header) : h.layout.run = some h.encode := by
  have hcontent : h.layout.content = h.encode := by simp [layout, encode]
  refine run_eq ?_
  simp [layout]

theorem decode_converse {b : Bytes} {h : Header} (hdecode : decode b = .ok h) :
    ∃ t, b = h.encode ++ t := by
  unfold decode at hdecode
  split at hdecode
  · cases hdecode
  · next hlen =>
    cases hdecode
    refine ⟨b.drop 32, ?_⟩
    simp (disch := omega) only [encode, bytes_ofSlice, putUint32_getUint32, putUint16_getUint,
      append_assoc, slice_append_drop b]
    rfl

end Header

namespace MessageHeader

/-- `MessageHeader.Encode`. -/
def layout (h : MessageHeader) : Layout where
  size := 32 + 4 + 4
  writes :=
    [.copy h.dhPublicKey.bytes,
      .put (putUint32 h.previousChainLen),
      .put (putUint32 h.messageNum)]

theorem layout_run (h : MessageHeader) : h.layout.run = some h.encode := by
  have hcontent : h.layout.content = h.encode := by simp [layout, encode]
  refine run_eq ?_
  simp [layout]

theorem decode_converse {b : Bytes} {h : MessageHeader} (hdecode : decode b = .ok h) :
    ∃ t, b = h.encode ++ t := by
  unfold decode at hdecode
  split at hdecode
  · cases hdecode
  · next hlen =>
    cases hdecode
    refine ⟨b.drop 40, ?_⟩
    simp (disch := omega) only [encode, bytes_ofSlice, putUint32_getUint32, append_assoc,
      slice_append_drop b]
    rfl

end MessageHeader

namespace InitialMessage

/-- `InitialMessage.Encode`. -/
def layout (im : InitialMessage) : Layout where
  size := 20 + 32 + 32 + 4 + 4 + 4 + im.ciphertext.length
  writes :=
    [.copy im.senderAddress.bytes,
      .copy im.identityKey.bytes,
      .copy im.ephemeralKey.bytes,
      .put (putUint32 im.usedSignedPreKeyID),
      .put (putUint32 im.usedOneTimePreKeyID),
      .put (putUint32 (UInt32.ofNat im.ciphertext.length)),
      .copy im.ciphertext]

def Small (im : InitialMessage) : Prop := im.ciphertext.length < 2 ^ 32

theorem layout_run (im : InitialMessage) : im.layout.run = some im.encode := by
  have hcontent : im.layout.content = im.encode := by simp [layout, encode]
  rw [← hcontent]
  refine run_eq ?_
  simp [layout]
  omega

theorem decode_converse {b : Bytes} {im : InitialMessage} (hdecode : decode b = .ok im) :
    im.Small ∧ ∃ t, b = im.encode ++ t := by
  unfold decode at hdecode
  split at hdecode
  · cases hdecode
  · next hlen =>
    dsimp only at hdecode
    generalize hcount : getUint32 (slice b 92 4) = ciphertextLen at hdecode
    split at hdecode
    · cases hdecode
    · next hroom =>
      cases hdecode
      have htext : (slice b 96 ciphertextLen.toNat).length = ciphertextLen.toNat :=
        length_slice (by omega)
      have hfield : putUint32 ciphertextLen = slice b 92 4 := by
        rw [← hcount, putUint32_getUint32 (by omega)]
      refine ⟨?_, b.drop (96 + ciphertextLen.toNat), ?_⟩
      · rw [Small, htext]
        exact ciphertextLen.toNat_lt
      · simp (disch := omega) only [encode, bytes_ofSlice, putUint32_getUint32, htext,
          UInt32.ofNat_toNat, hfield, append_assoc, slice_append_drop b]
        rfl

end InitialMessage

/-! ## The formats -/

namespace WireFormat

def header : WireFormat := ofChecked Header.layout Header.decode fun _ => True

def directMessage : WireFormat :=
  ofReader DirectMessage.layout DirectMessage.read DirectMessage.Small

def ackMessage : WireFormat := ofReader AckMessage.layout AckMessage.read fun _ => True

def nackMessage : WireFormat := ofReader NackMessage.layout NackMessage.read NackMessage.Small

def groupMessage : WireFormat := ofReader GroupMessage.layout GroupMessage.read GroupMessage.Small

def readReceipt : WireFormat := ofReader ReadReceipt.layout ReadReceipt.read fun _ => True

def typingIndicator : WireFormat :=
  ofReader TypingIndicator.layout TypingIndicator.read fun _ => True

def handshakeMessage : WireFormat :=
  ofReader HandshakeMessage.layout HandshakeMessage.read HandshakeMessage.Small

def relayForward : WireFormat := ofReader RelayForward.layout RelayForward.read RelayForward.Small

def groupCreateMessage : WireFormat :=
  ofReader GroupCreateMessage.layout GroupCreateMessage.read GroupCreateMessage.Small

def groupJoinMessage : WireFormat :=
  ofReader GroupJoinMessage.layout GroupJoinMessage.read GroupJoinMessage.Small

def groupLeaveMessage : WireFormat :=
  ofReader GroupLeaveMessage.layout GroupLeaveMessage.read GroupJoinMessage.Small

def groupUpdateMessage : WireFormat :=
  ofReader GroupUpdateMessage.layout GroupUpdateMessage.read GroupUpdateMessage.Small

def profileUpdate : WireFormat :=
  ofReader ProfileUpdate.layout ProfileUpdate.read ProfileUpdate.Small

def keyBundle : WireFormat := ofReader KeyBundle.layout KeyBundle.read KeyBundle.Small

def initialMessage : WireFormat :=
  ofChecked InitialMessage.layout InitialMessage.decode InitialMessage.Small

def messageHeader : WireFormat := ofChecked MessageHeader.layout MessageHeader.decode fun _ => True

/-- The formats for which what is decoded determines the bytes. -/
def canonicalFormats : List WireFormat :=
  [header, directMessage, ackMessage, nackMessage, groupMessage, readReceipt, handshakeMessage,
    relayForward, groupCreateMessage, groupJoinMessage, groupLeaveMessage, groupUpdateMessage,
    profileUpdate, keyBundle, initialMessage, messageHeader]

variable {F : WireFormat}

theorem exact_of_mem (hmem : F ∈ canonicalFormats) : F.Exact := by
  have hall : ∀ F ∈ canonicalFormats, F.Exact := by
    simp only [canonicalFormats, forall_mem_cons]
    refine ⟨?_, ?_, ?_, ?_, ?_, ?_, ?_, ?_, ?_, ?_, ?_, ?_, ?_, ?_, ?_, ?_, forall_mem_nil _⟩
    · exact ofChecked_exact Header.layout_run (fun h t _ => h.decode_append t)
        fun b h hdecode => ⟨trivial, Header.decode_converse hdecode⟩
    · exact ofReader_exact DirectMessage.layout_run DirectMessage.reads
    · exact ofReader_exact AckMessage.layout_run (AckMessage.reads.congr fun _ _ => by simp)
    · exact ofReader_exact NackMessage.layout_run NackMessage.reads
    · exact ofReader_exact GroupMessage.layout_run GroupMessage.reads
    · exact ofReader_exact ReadReceipt.layout_run (ReadReceipt.reads.congr fun _ _ => by simp)
    · exact ofReader_exact HandshakeMessage.layout_run HandshakeMessage.reads
    · exact ofReader_exact RelayForward.layout_run RelayForward.reads
    · exact ofReader_exact GroupCreateMessage.layout_run GroupCreateMessage.reads
    · exact ofReader_exact GroupJoinMessage.layout_run GroupJoinMessage.reads
    · exact ofReader_exact GroupJoinMessage.layout_run GroupJoinMessage.reads
    · exact ofReader_exact GroupUpdateMessage.layout_run GroupUpdateMessage.reads
    · exact ofReader_exact ProfileUpdate.layout_run ProfileUpdate.reads
    · exact ofReader_exact KeyBundle.layout_run KeyBundle.reads
    · exact ofChecked_exact InitialMessage.layout_run (fun im t h => im.decode_append h t)
        fun b im => InitialMessage.decode_converse
    · exact ofChecked_exact MessageHeader.layout_run (fun h t _ => h.decode_append t)
        fun b h hdecode => ⟨trivial, MessageHeader.decode_converse hdecode⟩
  exact hall F hmem

/-! ## Round trips -/

def RoundTrips (F : WireFormat) : Prop :=
  ∀ m : F.Message, F.Small m → ∃ e, F.encode m = some e ∧ ∀ t, F.decode (e ++ t) = .ok m

theorem Exact.roundTrips (h : F.Exact) : F.RoundTrips := by
  intro m hsmall
  obtain ⟨e, he⟩ := h.encodes m
  exact ⟨e, he, fun t => (h.decode_ok_iff (e ++ t) m).mpr ⟨e, t, he, hsmall, rfl⟩⟩

theorem typingIndicator_roundTrips : typingIndicator.RoundTrips := by
  rintro (m : TypingIndicator) -
  refine ⟨m.encode, m.layout_run, fun t => ?_⟩
  refine (TypingIndicator.reads.run_ok_iff _ m).mpr ⟨m.encode, t, rfl, ?_⟩
  refine ⟨if m.isTyping then 1 else 0, ?_, ?_⟩
  · cases m.isTyping <;> rfl
  · simp [TypingIndicator.encode, TypingIndicator.layout]

def roundTripFormats : List WireFormat :=
  [header, directMessage, ackMessage, groupMessage, readReceipt, typingIndicator, handshakeMessage,
    relayForward, groupCreateMessage, groupJoinMessage, groupLeaveMessage, groupUpdateMessage,
    profileUpdate, keyBundle, initialMessage, messageHeader]

/-- A message with fields shorter than `2 ^ 32` is decoded from its encoding and any more bytes. -/
theorem decode_encode_append {F : WireFormat} (hF : F ∈ roundTripFormats) (m : F.Message)
    (hsmall : F.Small m) : ∃ e, F.encode m = some e ∧ ∀ t, F.decode (e ++ t) = .ok m := by
  have hcases : ∀ F ∈ roundTripFormats, F = typingIndicator ∨ F ∈ canonicalFormats := by
    simp [roundTripFormats, canonicalFormats]
  rcases hcases F hF with rfl | hmem
  · exact typingIndicator_roundTrips m hsmall
  · exact (exact_of_mem hmem).roundTrips m hsmall

def sampleGroupCreate : GroupCreateMessage :=
  { groupID := zero 32
    groupName := [97, 98]
    creatorAddr := zero 20
    timestamp := 1
    members := [zero 20] }

theorem decode_encode_append_groupCreate :
    groupCreateMessage ∈ roundTripFormats ∧ groupCreateMessage.Small sampleGroupCreate ∧
      ∃ e, groupCreateMessage.encode sampleGroupCreate = some e ∧
        ∀ t, groupCreateMessage.decode (e ++ t) = .ok sampleGroupCreate := by
  have hmem : groupCreateMessage ∈ roundTripFormats := by simp [roundTripFormats]
  have hsmall : groupCreateMessage.Small sampleGroupCreate := ⟨by decide, by decide⟩
  exact ⟨hmem, hsmall, decode_encode_append hmem sampleGroupCreate hsmall⟩

/-! ## The length of a NACK -/

/-- What the two bytes of the length field leave of a NACK. -/
def cutNack (n : NackMessage) : NackMessage :=
  { n with errorMessage := n.errorMessage.take (n.errorMessage.length % 2 ^ 16) }

theorem encode_nack (n : NackMessage) : nackMessage.encode n = some n.encode := n.layout_run

/-- The decoder finds the cut message, followed by what was cut off. -/
theorem decode_nack (n : NackMessage) : nackMessage.decode n.encode = .ok (cutNack n) := by
  have hlen : (cutNack n).errorMessage.length = n.errorMessage.length % 2 ^ 16 :=
    length_take_of_le (Nat.mod_le _ _)
  have hsmall : (cutNack n).Small := by
    rw [NackMessage.Small, hlen]
    exact Nat.mod_lt _ (by norm_num)
  have hfield : putUint 2 (cutNack n).errorMessage.length = putUint 2 n.errorMessage.length := by
    rw [hlen]
    exact putUint_mod 2 _
  refine (NackMessage.reads.run_ok_iff n.encode (cutNack n)).mpr
    ⟨_, n.errorMessage.drop (n.errorMessage.length % 2 ^ 16), ?_, rfl, hsmall⟩
  simp only [NackMessage.encode, NackMessage.layout, content, flatMap_cons, hfield]
  simp [cutNack]

/-- `Encode` never rejects a NACK, and `Decode` returns its error message up to the length modulo
2^16: the whole message exactly if it is shorter than that. -/
theorem nack_round_trip_iff (n : NackMessage) :
    ∃ e, nackMessage.encode n = some e ∧ nackMessage.decode e = .ok (cutNack n) ∧
      (nackMessage.decode e = .ok n ↔ n.errorMessage.length < 2 ^ 16) := by
  refine ⟨n.encode, encode_nack n, decode_nack n, ?_⟩
  rw [decode_nack]
  constructor
  · intro h
    rw [← ok.inj h]
    exact (length_take_le _ _).trans_lt (Nat.mod_lt _ (by norm_num))
  · intro hlt
    rw [cutNack, Nat.mod_eq_of_lt hlt, take_length]

def longNack : NackMessage where
  fromAddr := zero 20
  toAddr := zero 20
  messageID := zero 16
  sequenceNumber := 1
  timestamp := 1
  errorCode := 2
  errorMessage := List.replicate (2 ^ 16) 97

/-- An error message of 2^16 bytes is lost. -/
theorem nack_text_lost : longNack.errorMessage.length = 2 ^ 16 ∧
    ∃ e, nackMessage.encode longNack = some e ∧
      nackMessage.decode e = .ok { longNack with errorMessage := [] } := by
  have hlen : longNack.errorMessage.length = 2 ^ 16 := by rw [longNack, length_replicate]
  have hcut : cutNack longNack = { longNack with errorMessage := [] } := by
    rw [cutNack, hlen, Nat.mod_self, take_zero]
  exact ⟨hlen, longNack.encode, encode_nack longNack,
    (decode_nack longNack).trans (congrArg ok hcut)⟩

/-! ## Canonical encodings -/

/-- An exact decoder reads the encoding of what it returns, and no more. -/
theorem Exact.decode_take_iff (h : F.Exact) {b e : Bytes} {m : F.Message}
    (hdecode : F.decode b = .ok m) (he : F.encode m = some e) (n : ℕ) (hn : n ≤ b.length) :
    (∃ m', F.decode (b.take n) = .ok m') ↔ e.length ≤ n := by
  obtain ⟨e', t, he', hsmall, hb⟩ := (h.decode_ok_iff b m).mp hdecode
  obtain rfl : e = e' := some.inj (he.symm.trans he')
  constructor
  · rintro ⟨m', hpart⟩
    obtain ⟨e', t', he', hsmall', htake⟩ := (h.decode_ok_iff _ m').mp hpart
    -- the decoder does not look at what follows, so it returns `m'` for the whole buffer too
    have hwhole : F.decode b = .ok m' := by
      refine (h.decode_ok_iff b m').mpr ⟨e', t' ++ b.drop n, he', hsmall', ?_⟩
      rw [← append_assoc, ← htake, take_append_drop]
    obtain rfl : m = m' := ok.inj (hdecode.symm.trans hwhole)
    obtain rfl : e = e' := some.inj (he.symm.trans he')
    have hlen := congrArg List.length htake
    rw [length_take, length_append] at hlen
    omega
  · intro hle
    refine ⟨m, (h.decode_ok_iff _ m).mpr ⟨e, t.take (n - e.length), he, hsmall, ?_⟩⟩
    rw [hb, take_append, take_of_length_le hle]

/-- What was decoded is encoded by a beginning of the buffer, which is all that the decoder
consumed. So strings as long as the encoding of what they decode to decode to different messages. -/
theorem encode_decode_isPrefix {F : WireFormat} (hF : F ∈ canonicalFormats) {b : Bytes}
    {m : F.Message} (hdecode : F.decode b = .ok m) :
    ∃ e, F.encode m = some e ∧ e <+: b ∧
      (∀ n ≤ b.length, (∃ m', F.decode (b.take n) = .ok m') ↔ e.length ≤ n) ∧
      (∀ b', F.decode b' = .ok m → b.length = e.length → b'.length = e.length → b = b') := by
  have hexact := exact_of_mem hF
  obtain ⟨e, t, he, hsmall, hb⟩ := (hexact.decode_ok_iff b m).mp hdecode
  refine ⟨e, he, ⟨t, hb.symm⟩, hexact.decode_take_iff hdecode he, ?_⟩
  intro b' hdecode' hlen hlen'
  obtain ⟨e', t', he', -, hb'⟩ := (hexact.decode_ok_iff b' m).mp hdecode'
  obtain rfl : e = e' := some.inj (he.symm.trans he')
  have hall {b t : Bytes} (hb : b = e ++ t) (hlen : b.length = e.length) : b = e := by
    rw [hb, length_append] at hlen
    rw [hb, length_eq_zero_iff.mp (by omega : t.length = 0), append_nil]
  rw [hall hb hlen, hall hb' hlen']

def sampleHeaderBytes : Bytes := List.replicate 33 0

def zeroHeader : Header :=
  { magic := 0
    version := 0
    type := 0
    length := 0
    flags := 0
    messageID := zero 16
    reserved := 0 }

theorem encode_decode_isPrefix_header : header ∈ canonicalFormats ∧
    header.decode sampleHeaderBytes = .ok zeroHeader ∧
    ∃ e, header.encode zeroHeader = some e ∧ e <+: sampleHeaderBytes ∧
      (∀ n ≤ sampleHeaderBytes.length,
        (∃ m', header.decode (sampleHeaderBytes.take n) = .ok m') ↔ e.length ≤ n) ∧
      (∀ b', header.decode b' = .ok zeroHeader → sampleHeaderBytes.length = e.length →
        b'.length = e.length → sampleHeaderBytes = b') := by
  have hmem : header ∈ canonicalFormats := by simp [canonicalFormats]
  have hdecode : header.decode sampleHeaderBytes = .ok zeroHeader := by rfl
  exact ⟨hmem, hdecode, encode_decode_isPrefix hmem hdecode⟩

end WireFormat

end Zentalk
