import Mathlib.Order.Bounds.Basic
import Zentalk.Codec.Safety

/-!
# Message padding

`AddMessagePadding` and `RemoveMessagePadding` (`padding_round_trip`).
-/

namespace Zentalk

open Wire List ByteArr UInt32

structure Message where
  header : Header
  payload : Bytes

/-- `NewMessage`, where `messageID` is what `GenerateMessageID` returns. -/
def newMessage (msgType : UInt16) (payload : Bytes) (messageID : ByteArr 16) : Message :=
  { header :=
      { magic := 0x5A54414C
        version := 0x0100
        type := msgType
        length := UInt32.ofNat payload.length
        flags := 0
        messageID := messageID
        reserved := 0 }
    payload := payload }

/-- `PaddingScheme`. A value other than the two first ones is treated as `random`. -/
inductive PaddingScheme
  | none
  | fixedSize
  | random
deriving DecidableEq

/-- What `rand.Read` answers during a call: the number of bytes of the random scheme, and the
padding. -/
structure PaddingRand where
  count : Except String UInt8
  fill : (n : ℕ) → Except String (ByteArr n)

def PaddingRand.answers (count : UInt8) (fill : (n : ℕ) → ByteArr n) : PaddingRand :=
  ⟨.ok count, fun n => .ok (fill n)⟩

/-! ## Padding a payload -/

/-- The `targetSize` of the fixed scheme. -/
def cellSize (originalLen : ℕ) : ℕ :=
  if originalLen ≤ 512 then 512
  else if originalLen ≤ 1024 then 1024
  else if originalLen ≤ 4096 then 4096
  else if originalLen ≤ 8192 then 8192
  else (originalLen + 8192 - 1) / 8192 * 8192

/-- The end of `addPadding`, from `paddingLen` on. -/
def padTo (message : Bytes) (targetSize : ℕ) (rand : PaddingRand) : Except String (Bytes × ℕ) :=
  let originalLen := message.length
  let paddingLen := targetSize - originalLen
  if paddingLen = 0 then .ok (message, originalLen)
  else
    match rand.fill paddingLen with
    | .error e => .error e
    | .ok padding => .ok (message ++ padding.bytes, originalLen)

/-- `addPadding`: the padded payload and its original length. -/
def addPadding (message : Bytes) (scheme : PaddingScheme) (rand : PaddingRand) :
    Except String (Bytes × ℕ) :=
  match scheme with
  | .none => .ok (message, message.length)
  | .fixedSize => padTo message (cellSize message.length) rand
  | .random =>
    match rand.count with
    | .error e => .error e
    | .ok count => padTo message (message.length + count.toNat) rand

/-! ## Padding a message -/

namespace Message

def addMessagePadding (msg : Message) (scheme : PaddingScheme) (rand : PaddingRand) :
    Except String Message :=
  if scheme = .none then .ok msg
  else
    match addPadding msg.payload scheme rand with
    | .error e => .error ("failed to add padding: " ++ e)
    | .ok (paddedPayload, originalLen) =>
      let paddedData := putUint32 (UInt32.ofNat originalLen) ++ paddedPayload
      .ok
        { header :=
            { msg.header with
              length := UInt32.ofNat paddedData.length
              flags := msg.header.flags ||| flagPadded }
          payload := paddedData }

def removeMessagePadding (msg : Message) : Except String Message :=
  if msg.header.flags &&& flagPadded = 0 then .ok msg
  else
    match Zentalk.removeMessagePadding msg.header.flags msg.payload with
    | .error e => .error e
    | .ok originalPayload =>
      .ok
        { header :=
            { msg.header with
              length := UInt32.ofNat originalPayload.bytes.length
              flags := msg.header.flags &&& ~~~flagPadded }
          payload := originalPayload.bytes }

end Message

/-! ## Cells -/

/-- The sizes to which the fixed scheme pads. -/
def IsCell (size : ℕ) : Prop := size = 512 ∨ size = 1024 ∨ size = 4096 ∨ (0 < size ∧ 8192 ∣ size)

/-- The cells that hold a payload. -/
def sufficientCells (originalLen : ℕ) : Set ℕ := {size | IsCell size ∧ originalLen ≤ size}

theorem cellSize_isLeast (originalLen : ℕ) :
    IsLeast (sufficientCells originalLen) (cellSize originalLen) := by
  constructor
  · show IsCell (cellSize originalLen) ∧ originalLen ≤ cellSize originalLen
    unfold IsCell cellSize
    split_ifs <;> omega
  · rintro size ⟨hcell, hfits⟩
    unfold IsCell at hcell
    unfold cellSize
    split_ifs <;> omega

/-! ## Round trip -/

section

theorem length_le_cellSize (originalLen : ℕ) : originalLen ≤ cellSize originalLen :=
  (cellSize_isLeast originalLen).1.2

variable (count : UInt8) (fill : (n : ℕ) → ByteArr n)

/-- Padding of length 0 is not drawn, and would not add anything. -/
theorem padTo_answers (message : Bytes) (targetSize : ℕ) :
    padTo message targetSize (.answers count fill) =
      .ok (message ++ (fill (targetSize - message.length)).bytes, message.length) := by
  unfold padTo
  dsimp only
  split
  · next hzero =>
    have hnil : (fill (targetSize - message.length)).bytes = [] := by
      rw [← length_eq_zero_iff, length_bytes, hzero]
    rw [hnil, append_nil]
  · rfl

theorem addPadding_answers (message : Bytes) (scheme : PaddingScheme) :
    ∃ padding, addPadding message scheme (.answers count fill) =
      .ok (message ++ padding, message.length) := by
  cases scheme with
  | none => exact ⟨[], by rw [append_nil]; rfl⟩
  | fixedSize => exact ⟨_, padTo_answers count fill message _⟩
  | random => exact ⟨_, padTo_answers count fill message _⟩

theorem flags_set (flags : UInt16) : (flags ||| flagPadded) &&& flagPadded ≠ 0 := by
  intro h
  have hbit := congrArg (fun f : UInt16 => f.toBitVec.getLsbD 5) h
  simp [flagPadded] at hbit

theorem flags_cleared {flags : UInt16} (hclear : flags &&& flagPadded = 0) :
    (flags ||| flagPadded) &&& ~~~flagPadded = flags := by
  have hbits : flags.toBitVec &&& flagPadded.toBitVec = 0#16 := congrArg UInt16.toBitVec hclear
  refine UInt16.toBitVec_inj.mp ?_
  show (flags.toBitVec ||| flagPadded.toBitVec) &&& ~~~flagPadded.toBitVec = flags.toBitVec
  ext i hi
  have hbit : (flags.toBitVec[i] && flagPadded.toBitVec[i]) = false := by
    rw [← BitVec.getElem_and, hbits, BitVec.getElem_zero]
  rw [BitVec.getElem_and, BitVec.getElem_or, BitVec.getElem_not]
  revert hbit
  cases flags.toBitVec[i] <;> cases flagPadded.toBitVec[i] <;> decide

theorem removeMessagePadding_padded {flags : UInt16} (hset : flags &&& flagPadded ≠ 0)
    {payload : Bytes} (hsmall : payload.length < 2 ^ 32) (padding : Bytes) :
    Zentalk.removeMessagePadding flags
      (putUint32 (UInt32.ofNat payload.length) ++ (payload ++ padding)) =
        .ok ⟨payload, padding⟩ := by
  have hprefix : slice (putUint32 (ofNat payload.length) ++ (payload ++ padding)) 0 4 =
      putUint32 (ofNat payload.length) := slice_append_left (length_putUint32 _) _
  have hrest : (putUint32 (ofNat payload.length) ++ (payload ++ padding)).drop 4 =
      payload ++ padding := drop_left' (length_putUint32 _)
  have hlong : ¬ (putUint32 (ofNat payload.length) ++ (payload ++ padding)).length < 4 := by
    rw [length_append, length_putUint32]
    omega
  have hfits : ¬ payload.length > (payload ++ padding).length := by
    rw [length_append]
    omega
  rw [Zentalk.removeMessagePadding, if_neg hset, if_neg hlong, hprefix, hrest]
  simp only [getUint32_putUint32, toNat_ofNat_of_lt' hsmall, if_neg hfits, take_left, drop_left]

theorem removeMessagePadding_add {msg : Message}
    (hlength : msg.header.length.toNat = msg.payload.length)
    (hclear : msg.header.flags &&& flagPadded = 0) (scheme : PaddingScheme) :
    ∃ padded, msg.addMessagePadding scheme (.answers count fill) = .ok padded ∧
      padded.removeMessagePadding = .ok msg := by
  by_cases hnone : scheme = .none
  · refine ⟨msg, if_pos hnone, ?_⟩
    rw [Message.removeMessagePadding, if_pos hclear]
  · obtain ⟨padding, hpadding⟩ := addPadding_answers count fill msg.payload scheme
    have hset := flags_set msg.header.flags
    have hsmall : msg.payload.length < 2 ^ 32 := by
      rw [← hlength]
      exact msg.header.length.toNat_lt
    have hheader : ofNat msg.payload.length = msg.header.length := by
      rw [← hlength, UInt32.ofNat_toNat]
    refine ⟨_, by rw [Message.addMessagePadding, if_neg hnone, hpadding], ?_⟩
    rw [Message.removeMessagePadding, if_neg hset, removeMessagePadding_padded hset hsmall]
    simp only [flags_cleared hclear, hheader]

theorem length_addMessagePadding_fixed (msg : Message) :
    ∃ padded, msg.addMessagePadding .fixedSize (.answers count fill) = .ok padded ∧
      padded.payload.length = cellSize msg.payload.length + 4 := by
  have hpadding : addPadding msg.payload .fixedSize (.answers count fill) = .ok _ :=
    padTo_answers count fill msg.payload (cellSize msg.payload.length)
  refine ⟨_, by rw [Message.addMessagePadding, if_neg (by decide), hpadding], ?_⟩
  have hle := length_le_cellSize msg.payload.length
  simp only [length_append, length_putUint32, length_bytes]
  omega

end

/-- Padding a message whose header has the payload's length and not the flag, and removing it, gives
the message back. The fixed scheme pads messages with the same smallest cell to one length, that
cell and four bytes. -/
theorem padding_round_trip {msg : Message} (hlength : msg.header.length.toNat = msg.payload.length)
    (hclear : msg.header.flags &&& flagPadded = 0) (count : UInt8) (fill : (n : ℕ) → ByteArr n) :
    (∀ scheme, ∃ padded, msg.addMessagePadding scheme (.answers count fill) = .ok padded ∧
      padded.removeMessagePadding = .ok msg) ∧
    ∀ (other : Message) (count' : UInt8) (fill' : (n : ℕ) → ByteArr n) (cell : ℕ),
      IsLeast (sufficientCells msg.payload.length) cell →
      IsLeast (sufficientCells other.payload.length) cell →
      ∃ padded padded', msg.addMessagePadding .fixedSize (.answers count fill) = .ok padded ∧
        other.addMessagePadding .fixedSize (.answers count' fill') = .ok padded' ∧
        padded.payload.length = cell + 4 ∧ padded'.payload.length = cell + 4 := by
  refine ⟨removeMessagePadding_add count fill hlength hclear, ?_⟩
  intro other count' fill' cell hcell hcell'
  obtain ⟨padded, hpadded, hlen⟩ := length_addMessagePadding_fixed count fill msg
  obtain ⟨padded', hpadded', hlen'⟩ := length_addMessagePadding_fixed count' fill' other
  refine ⟨padded, padded', hpadded, hpadded', ?_, ?_⟩
  · rw [hlen, (cellSize_isLeast _).unique hcell]
  · rw [hlen', (cellSize_isLeast _).unique hcell']

/-- Three bytes and an exact fit of 512 bytes share their cell. -/
theorem padding_round_trip_short :
    (∀ scheme, ∃ padded, (newMessage 0x0200 [1, 2, 3] (zero 16)).addMessagePadding scheme
        (.answers 7 zero) = .ok padded ∧
      padded.removeMessagePadding = .ok (newMessage 0x0200 [1, 2, 3] (zero 16))) ∧
    ∃ padded padded',
      (newMessage 0x0200 [1, 2, 3] (zero 16)).addMessagePadding .fixedSize
        (.answers 7 zero) = .ok padded ∧
      (newMessage 0x0200 (List.replicate 512 9) (zero 16)).addMessagePadding .fixedSize
        (.answers 8 zero) = .ok padded' ∧
      padded.payload.length = 512 + 4 ∧ padded'.payload.length = 512 + 4 := by
  have hlength : (newMessage 0x0200 [1, 2, 3] (zero 16)).header.length.toNat = 3 := rfl
  have hclear : (newMessage 0x0200 [1, 2, 3] (zero 16)).header.flags &&& flagPadded = 0 :=
    rfl
  have hboth := padding_round_trip hlength hclear 7 zero
  have hfull : (newMessage 0x0200 (List.replicate 512 9) (zero 16)).payload.length = 512 :=
    length_replicate
  refine ⟨hboth.1, hboth.2 _ 8 zero 512 (cellSize_isLeast 3) ?_⟩
  rw [hfull]
  exact cellSize_isLeast 512

/-! ## The padding of `pkg/crypto` -/

/-- The number of a scheme. -/
def PaddingScheme.value : PaddingScheme → ℤ
  | none => 0
  | fixedSize => 1
  | random => 2

namespace Crypto

/-- The `targetSize` of `addFixedSizePadding`. -/
def targetSize (originalLen : ℕ) : ℕ :=
  if originalLen ≤ 512 then 512
  else if originalLen ≤ 1024 then 1024
  else if originalLen ≤ 4096 then 4096
  else if originalLen ≤ 8192 then 8192
  else (originalLen + 8192 - 1) / 8192 * 8192

def addFixedSizePadding (message : Bytes) (originalLen : ℕ) (rand : PaddingRand) :
    Except String (Bytes × ℕ) :=
  let paddingLen := targetSize originalLen - originalLen
  if paddingLen = 0 then .ok (message, originalLen)
  else
    match rand.fill paddingLen with
    | .error e => .error ("failed to generate padding: " ++ e)
    | .ok padding => .ok (message ++ padding.bytes, originalLen)

def addRandomPadding (message : Bytes) (originalLen : ℕ) (rand : PaddingRand) :
    Except String (Bytes × ℕ) :=
  match rand.count with
  | .error e => .error ("failed to generate random length: " ++ e)
  | .ok count =>
    let paddingLen := count.toNat
    if paddingLen > 0 then
      match rand.fill paddingLen with
      | .error e => .error ("failed to generate padding: " ++ e)
      | .ok padding => .ok (message ++ padding.bytes, originalLen)
    else .ok (message, originalLen)

/-- `AddPadding`. -/
def addPadding (message : Bytes) (scheme : ℤ) (rand : PaddingRand) : Except String (Bytes × ℕ) :=
  let originalLen := message.length
  if scheme = 0 then .ok (message, originalLen)
  else if scheme = 1 then addFixedSizePadding message originalLen rand
  else if scheme = 2 then addRandomPadding message originalLen rand
  else .error ("unknown padding scheme: " ++ toString scheme)

def estimatePaddedSize (messageLen : ℕ) (scheme : ℤ) : ℕ :=
  if scheme = 0 then messageLen
  else if scheme = 1 then
    if messageLen ≤ 512 then 512
    else if messageLen ≤ 1024 then 1024
    else if messageLen ≤ 4096 then 4096
    else if messageLen ≤ 8192 then 8192
    else (messageLen + 8192 - 1) / 8192 * 8192
  else if scheme = 2 then messageLen + 128
  else messageLen

end Crypto

/-- Both implementations draw the same random bytes and differ in the texts of their errors only. -/
theorem addPadding_toOption (message : Bytes) (scheme : PaddingScheme) (rand : PaddingRand) :
    (Crypto.addPadding message scheme.value rand).toOption =
      (addPadding message scheme rand).toOption := by
  cases scheme with
  | none => rfl
  | fixedSize =>
    show (Crypto.addFixedSizePadding message message.length rand).toOption =
      (padTo message (cellSize message.length) rand).toOption
    have hsize : Crypto.targetSize message.length = cellSize message.length := rfl
    unfold Crypto.addFixedSizePadding padTo
    rw [hsize]
    dsimp only
    split
    · rfl
    · cases rand.fill (cellSize message.length - message.length) <;> rfl
  | random =>
    show (Crypto.addRandomPadding message message.length rand).toOption = _
    unfold Crypto.addRandomPadding addPadding padTo
    cases rand.count with
    | error e => rfl
    | ok count =>
      dsimp only
      rw [Nat.add_sub_cancel_left]
      by_cases hzero : count.toNat = 0
      · rw [if_pos hzero, if_neg (by omega)]
      · rw [if_neg hzero, if_pos (Nat.pos_of_ne_zero hzero)]
        cases rand.fill count.toNat <;> rfl

/-- With the same random bytes the paddings of `pkg/protocol` and of `pkg/crypto` return the same
bytes and the length of the message. The fixed scheme pads to the estimated size, the smallest cell
that holds the message. -/
theorem paddings_agree (message : Bytes) (scheme : PaddingScheme) (count : UInt8)
    (fill : (n : ℕ) → ByteArr n) :
    ∃ padded, addPadding message scheme (.answers count fill) = .ok (padded, message.length) ∧
      Crypto.addPadding message scheme.value (.answers count fill) = .ok (padded, message.length) ∧
      (scheme = .fixedSize →
        padded.length = Crypto.estimatePaddedSize message.length scheme.value ∧
        IsLeast (sufficientCells message.length) padded.length) := by
  obtain ⟨padding, hpadding⟩ := addPadding_answers count fill message scheme
  refine ⟨message ++ padding, hpadding, ?_, ?_⟩
  · have hagree := addPadding_toOption message scheme (.answers count fill)
    rw [hpadding] at hagree
    cases hcrypto : Crypto.addPadding message scheme.value (.answers count fill) with
    | error e => rw [hcrypto] at hagree; cases hagree
    | ok out =>
      rw [hcrypto] at hagree
      rw [Option.some.inj hagree]
  · rintro rfl
    have hcell : addPadding message .fixedSize (.answers count fill) = .ok _ :=
      padTo_answers count fill message (cellSize message.length)
    have hbytes := (Prod.mk.inj (Except.ok.inj (hpadding.symm.trans hcell))).1
    have hlen : (message ++ padding).length = cellSize message.length := by
      rw [hbytes, length_append, length_bytes]
      exact Nat.add_sub_cancel' (length_le_cellSize message.length)
    rw [hlen]
    exact ⟨rfl, cellSize_isLeast message.length⟩

end Zentalk
