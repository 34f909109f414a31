import Zentalk.Lib.Reassembly
import Zentalk.Network.Session

/-!
# Ordered delivery of direct messages

`delivered_in_order`: whatever the order of arrival, up to the first number that is missing.
-/

namespace Zentalk

open Wire Reassembly List Option Finmap Nat

/-! ## The model -/

structure DirectMessage where
  fromAddr : Address
  toAddr : Address
  timestamp : UInt64
  sequenceNumber : UInt64
  contentType : UInt8
  replyTo : ByteArr 16
  content : Bytes
  signature : Bytes
deriving DecidableEq

def DirectMessage.encode (msg : DirectMessage) : Bytes :=
  msg.fromAddr.bytes ++ msg.toAddr.bytes ++ putUint 8 msg.timestamp.toNat ++
    putUint 8 msg.sequenceNumber.toNat ++ [msg.contentType] ++ msg.replyTo.bytes ++
    putUint 4 msg.content.length ++ msg.content ++ putUint 4 msg.signature.length ++ msg.signature

abbrev MessageBuffer := Finmap fun _ : UInt64 => DirectMessage

/-- The maps of `Client` that order incoming messages. A key that is absent stands for Go's zero
value. -/
structure OrderState where
  messageBuffer : Finmap fun _ : Address => MessageBuffer
  receivedMessageIDs : Finmap fun _ : Address => Finmap fun _ : UInt64 => Bool
  receiveSequenceNumbers : Finmap fun _ : Address => UInt64

namespace OrderState

def init : OrderState := ⟨∅, ∅, ∅⟩

/-- `messageBuffer[addr]`. -/
def buffer (s : OrderState) (addr : Address) : MessageBuffer := (s.messageBuffer.lookup addr).getD ∅

/-- `receivedMessageIDs[addr][seqNum]`. -/
def received (s : OrderState) (addr : Address) (seqNum : UInt64) : Bool :=
  (((s.receivedMessageIDs.lookup addr).getD ∅).lookup seqNum).getD false

/-- `receiveSequenceNumbers[addr]`. -/
def expected (s : OrderState) (addr : Address) : UInt64 :=
  (s.receiveSequenceNumbers.lookup addr).getD 0

/-- `messageBuffer[addr] = buffer`. -/
def setBuffer (s : OrderState) (addr : Address) (buffer : MessageBuffer) : OrderState :=
  { s with messageBuffer := s.messageBuffer.insert addr buffer }

/-- `receivedMessageIDs[addr][seqNum] = true`. -/
def markReceived (s : OrderState) (addr : Address) (seqNum : UInt64) : OrderState :=
  { s with
    receivedMessageIDs := s.receivedMessageIDs.insert addr
      (((s.receivedMessageIDs.lookup addr).getD ∅).insert seqNum true) }

/-- `receiveSequenceNumbers[addr] = seqNum`. -/
def setExpected (s : OrderState) (addr : Address) (seqNum : UInt64) : OrderState :=
  { s with receiveSequenceNumbers := s.receiveSequenceNumbers.insert addr seqNum }

def initBuffer (s : OrderState) (addr : Address) : OrderState :=
  if (s.messageBuffer.lookup addr).isNone then s.setBuffer addr ∅ else s

def initReceived (s : OrderState) (addr : Address) : OrderState :=
  if (s.receivedMessageIDs.lookup addr).isNone then
    { s with receivedMessageIDs := s.receivedMessageIDs.insert addr ∅ }
  else s

end OrderState

/-- The loop of `deliverBufferedMessages`: the buffer, the expected number, and the messages for
`deliverMessage`. -/
def deliverLoop : ℕ → MessageBuffer → UInt64 → MessageBuffer × UInt64 × List DirectMessage
  | 0, buffer, expectedSeq => (buffer, expectedSeq, [])
  | fuel + 1, buffer, expectedSeq =>
    match buffer.lookup expectedSeq with
    | none => (buffer, expectedSeq, [])
    | some bufferedMsg =>
      let rest := deliverLoop fuel (buffer.erase expectedSeq) (expectedSeq + 1)
      (rest.1, rest.2.1, bufferedMsg :: rest.2.2)

/-- `deliverBufferedMessages`. Each round takes a message out of the buffer, which bounds the
rounds. -/
def deliverBufferedMessages (s : OrderState) (addr : Address) : OrderState × List DirectMessage :=
  let out := deliverLoop (s.buffer addr).keys.card (s.buffer addr) (s.expected addr)
  ((s.setBuffer addr out.1).setExpected addr out.2.1, out.2.2)

/-- `handleOrderedMessage`, with the messages that it passes to `deliverMessage`, in order. -/
def handleOrderedMessage (s : OrderState) (msg : DirectMessage) : OrderState × List DirectMessage :=
  let s := (s.initBuffer msg.fromAddr).initReceived msg.fromAddr
  if s.received msg.fromAddr msg.sequenceNumber = true then (s, [])
  else
    let s := s.markReceived msg.fromAddr msg.sequenceNumber
    let expectedSeq := s.expected msg.fromAddr
    if msg.sequenceNumber = expectedSeq then
      let out := deliverBufferedMessages (s.setExpected msg.fromAddr (expectedSeq + 1)) msg.fromAddr
      (out.1, msg :: out.2)
    else if msg.sequenceNumber > expectedSeq then
      (s.setBuffer msg.fromAddr ((s.buffer msg.fromAddr).insert msg.sequenceNumber msg), [])
    else (s, [])

/-- Messages are handled one after the other; what was delivered is collected. -/
def handleAll (msgs : List DirectMessage) : OrderState × List DirectMessage :=
  msgs.foldl (fun r msg =>
    ((handleOrderedMessage r.1 msg).1, r.2 ++ (handleOrderedMessage r.1 msg).2)) (.init, [])

/-- The position of a message in the sender's numbering. -/
def DirectMessage.position (msg : DirectMessage) : ℕ := msg.sequenceNumber.toNat

def messagesOf (addr : Address) (msgs : List DirectMessage) : List DirectMessage :=
  msgs.filter fun msg => msg.fromAddr = addr

section

/-! ## Reading the maps -/

theorem getD_insert {β : Type} (m : Finmap fun _ : Address => β) (addr a : Address) (v d : β) :
    ((m.insert addr v).lookup a).getD d = if a = addr then v else (m.lookup a).getD d := by
  split
  · next h => rw [h, lookup_insert, getD_some]
  · next h => rw [lookup_insert_of_ne _ h]

section Maps

variable (s : OrderState) (addr a : Address) (b : MessageBuffer) (q q' : UInt64)

@[simp] theorem buffer_setBuffer :
    (s.setBuffer addr b).buffer a = if a = addr then b else s.buffer a :=
  getD_insert _ _ _ _ _

@[simp] theorem received_setBuffer : (s.setBuffer addr b).received a q = s.received a q := rfl

@[simp] theorem expected_setBuffer : (s.setBuffer addr b).expected a = s.expected a := rfl

@[simp] theorem buffer_setExpected : (s.setExpected addr q).buffer a = s.buffer a := rfl

@[simp] theorem received_setExpected : (s.setExpected addr q).received a q' = s.received a q' := rfl

@[simp] theorem expected_setExpected :
    (s.setExpected addr q).expected a = if a = addr then q else s.expected a :=
  getD_insert _ _ _ _ _

@[simp] theorem buffer_markReceived : (s.markReceived addr q).buffer a = s.buffer a := rfl

@[simp] theorem expected_markReceived : (s.markReceived addr q).expected a = s.expected a := rfl

@[simp] theorem received_markReceived : (s.markReceived addr q).received a q' =
    if a = addr ∧ q' = q then true else s.received a q' := by
  simp only [OrderState.received, OrderState.markReceived, getD_insert]
  by_cases ha : a = addr
  · subst ha
    by_cases hq : q' = q
    · rw [if_pos rfl, if_pos ⟨rfl, hq⟩, hq, lookup_insert, getD_some]
    · rw [if_pos rfl, if_neg fun h => hq h.2, lookup_insert_of_ne _ hq]
  · rw [if_neg ha, if_neg fun h => ha h.1]

theorem getD_insert_none {β : Type} {m : Finmap fun _ : Address => β}
    (h : (m.lookup addr).isNone) (d : β) :
    ((m.insert addr d).lookup a).getD d = (m.lookup a).getD d := by
  rw [getD_insert]
  split
  · next ha => rw [ha, isNone_iff_eq_none.mp h, getD_none]
  · rfl

@[simp] theorem buffer_initBuffer : (s.initBuffer addr).buffer a = s.buffer a := by
  unfold OrderState.initBuffer
  split
  · next h => exact getD_insert_none addr a h ∅
  · rfl

@[simp] theorem received_initBuffer : (s.initBuffer addr).received a q = s.received a q := by
  unfold OrderState.initBuffer
  split <;> rfl

@[simp] theorem expected_initBuffer : (s.initBuffer addr).expected a = s.expected a := by
  unfold OrderState.initBuffer
  split <;> rfl

@[simp] theorem buffer_initReceived : (s.initReceived addr).buffer a = s.buffer a := by
  unfold OrderState.initReceived
  split <;> rfl

@[simp] theorem received_initReceived : (s.initReceived addr).received a q = s.received a q := by
  unfold OrderState.initReceived
  split
  · next h => exact congrArg (fun m => (lookup q m).getD false) (getD_insert_none addr a h ∅)
  · rfl

@[simp] theorem expected_initReceived : (s.initReceived addr).expected a = s.expected a := by
  unfold OrderState.initReceived
  split <;> rfl

end Maps

/-! ## The entries of one peer -/

/-- What was delivered of a peer's messages, and its buffer and expected number, after those in
`arrived`. -/
structure PeerOrdered (arrived delivered : List DirectMessage) (k : ℕ) (buffer : MessageBuffer)
    (expectedSeq : UInt64) : Prop where
  inOrder : InOrder DirectMessage.position arrived delivered k
  buffered : ∀ q, buffer.lookup q = waiting DirectMessage.position arrived k q.toNat
  expected : expectedSeq = UInt64.ofNat k

section Peer

variable {arrived delivered : List DirectMessage} {k : ℕ} {buffer : MessageBuffer}
  {expectedSeq : UInt64} {msg : DirectMessage}

theorem first_of_large (arrived : List DirectMessage) {n : ℕ} (h : 2 ^ 64 ≤ n) :
    first DirectMessage.position arrived n = none := by
  refine first_eq_none.mpr fun m _ heq => ?_
  have hlt := m.sequenceNumber.toNat_lt
  rw [DirectMessage.position] at heq
  omega

variable (h : PeerOrdered arrived delivered k buffer expectedSeq)
include h

theorem PeerOrdered.missing (hnone : buffer.lookup expectedSeq = none) :
    first DirectMessage.position arrived k = none := by
  by_cases hk : k < 2 ^ 64
  · rw [h.buffered, h.expected, UInt64.toNat_ofNat_of_lt' hk, waiting,
      if_pos (le_refl k)] at hnone
    exact hnone
  · exact first_of_large arrived (Nat.le_of_not_lt hk)

theorem PeerOrdered.pass (hmsg : buffer.lookup expectedSeq = some msg) :
    PeerOrdered arrived (delivered ++ [msg]) (k + 1) (buffer.erase expectedSeq)
      (expectedSeq + 1) := by
  have hwait := (h.buffered expectedSeq).symm.trans hmsg
  have hk : k < 2 ^ 64 := by
    by_contra hlarge
    have hlt := expectedSeq.toNat_lt
    rw [waiting, if_neg (by omega)] at hwait
    cases hwait
  have hpos : expectedSeq.toNat = k := by rw [h.expected, UInt64.toNat_ofNat_of_lt' hk]
  rw [hpos, waiting, if_pos (le_refl k)] at hwait
  refine ⟨h.inOrder.pass hwait, fun q => ?_, ?_⟩
  · rw [waiting_succ]
    split
    · next hq => rw [UInt64.toNat_inj.mp (hq.trans hpos.symm), lookup_erase]
    · next hq =>
      rw [lookup_erase_ne (show q ≠ expectedSeq from fun heq => hq (heq ▸ hpos))]
      exact h.buffered q
  · rw [h.expected, UInt64.ofNat_add]
    rfl

/-- The loop hands on what is next until a message is missing. -/
theorem deliverLoop_spec (fuel : ℕ) (hfuel : buffer.keys.card ≤ fuel) :
    ∃ k', PeerOrdered arrived (delivered ++ (deliverLoop fuel buffer expectedSeq).2.2) k'
      (deliverLoop fuel buffer expectedSeq).1 (deliverLoop fuel buffer expectedSeq).2.1 ∧
      first DirectMessage.position arrived k' = none := by
  induction fuel generalizing delivered k buffer expectedSeq with
  | zero =>
    have hempty : buffer.lookup expectedSeq = none := by
      rw [Finmap.lookup_eq_none, ← Finmap.mem_keys, Finset.card_eq_zero.mp (le_zero.mp hfuel)]
      exact Finset.notMem_empty _
    simp only [deliverLoop, append_nil]
    exact ⟨k, h, h.missing hempty⟩
  | succ fuel ih =>
    cases hmsg : buffer.lookup expectedSeq with
    | none =>
      simp only [deliverLoop, hmsg, append_nil]
      exact ⟨k, h, h.missing hmsg⟩
    | some msg =>
      have hmem : expectedSeq ∈ buffer.keys :=
        mem_keys.mpr (mem_of_lookup_eq_some hmsg)
      have hcard : (buffer.erase expectedSeq).keys.card ≤ fuel := by
        rw [keys_erase, Finset.card_erase_of_mem hmem]
        omega
      obtain ⟨k', hrest, hnone⟩ := ih (h.pass hmsg) hcard
      simp only [deliverLoop, hmsg]
      rw [append_assoc, singleton_append] at hrest
      exact ⟨k', hrest, hnone⟩

theorem PeerOrdered.arrive_seen
    (hseen : first DirectMessage.position arrived msg.position ≠ none) :
    PeerOrdered (arrived ++ [msg]) delivered k buffer expectedSeq := by
  refine ⟨h.inOrder.arrive msg, fun q => ?_, h.expected⟩
  rw [waiting_seen hseen]
  exact h.buffered q

section

variable (hnew : first DirectMessage.position arrived msg.position = none)

include hnew

/-- A number that has not arrived is not behind, so the expected number has not wrapped around. -/
theorem PeerOrdered.of_new : k ≤ msg.position ∧ expectedSeq.toNat = k := by
  have hle : k ≤ msg.position := by
    by_contra hlt
    exact h.inOrder.complete _ (Nat.lt_of_not_le hlt) hnew
  refine ⟨hle, ?_⟩
  rw [h.expected, UInt64.toNat_ofNat_of_lt' (lt_of_le_of_lt hle msg.sequenceNumber.toNat_lt)]

theorem PeerOrdered.arrive_ahead :
    PeerOrdered (arrived ++ [msg]) delivered k (buffer.insert msg.sequenceNumber msg)
      expectedSeq := by
  refine ⟨h.inOrder.arrive msg, fun q => ?_, h.expected⟩
  rw [waiting_new hnew (h.of_new hnew).1]
  split
  · next hq => rw [UInt64.toNat_inj.mp hq, lookup_insert]
  · next hq =>
    rw [lookup_insert_of_ne _ (show q ≠ msg.sequenceNumber from fun heq => hq (heq ▸ rfl))]
    exact h.buffered q

theorem PeerOrdered.arrive_next (hnext : msg.sequenceNumber = expectedSeq) :
    PeerOrdered (arrived ++ [msg]) (delivered ++ [msg]) (k + 1) buffer (expectedSeq + 1) := by
  have hmsg : (buffer.insert msg.sequenceNumber msg).lookup expectedSeq = some msg := by
    rw [hnext, lookup_insert]
  have hpass := (h.arrive_ahead hnew).pass hmsg
  refine ⟨hpass.inOrder, fun q => ?_, hpass.expected⟩
  rw [← hpass.buffered q]
  by_cases hq : q = expectedSeq
  · rw [hq, lookup_erase, h.buffered, ← hnext]
    exact (ite_eq_right_iff.mpr fun _ => hnew)
  · rw [lookup_erase_ne hq, hnext, lookup_insert_of_ne _ hq]

end

end Peer

/-! ## One message -/

/-- The entries of a peer after the messages in `arrived`: nothing more can be delivered, and the
received numbers are those of the messages. -/
structure PeerState (s : OrderState) (addr : Address) (arrived delivered : List DirectMessage)
    (k : ℕ) : Prop where
  ordered : PeerOrdered arrived delivered k (s.buffer addr) (s.expected addr)
  missing : first DirectMessage.position arrived k = none
  received : ∀ q, s.received addr q = true ↔ first DirectMessage.position arrived q.toNat ≠ none

section Message

variable {s : OrderState} {addr : Address} {arrived delivered : List DirectMessage} {k : ℕ}
  {msg : DirectMessage}

theorem received_concat
    (h : ∀ q, s.received msg.fromAddr q = true ↔
      first DirectMessage.position arrived q.toNat ≠ none) (q : UInt64) :
    (if q = msg.sequenceNumber then true else s.received msg.fromAddr q) = true ↔
      first DirectMessage.position (arrived ++ [msg]) q.toNat ≠ none := by
  rw [first_concat]
  by_cases hq : q = msg.sequenceNumber
  · rw [if_pos hq, hq]
    refine iff_of_true rfl ?_
    split
    · exact some_ne_none _
    · next hseen => exact fun hnone => hseen ⟨hnone, rfl⟩
  · rw [if_neg hq, if_neg fun hnew => hq (UInt64.toNat_inj.mp hnew.2.symm)]
    exact h q

theorem missing_concat (h : first DirectMessage.position arrived k = none)
    (hne : msg.position ≠ k) : first DirectMessage.position (arrived ++ [msg]) k = none := by
  rw [first_concat, if_neg fun hnew => hne hnew.2]
  exact h

theorem handleOrderedMessage_own (h : PeerState s msg.fromAddr arrived delivered k) :
    ∃ k', PeerState (handleOrderedMessage s msg).1 msg.fromAddr (arrived ++ [msg])
      (delivered ++ (handleOrderedMessage s msg).2) k' := by
  have hmark := received_concat h.received
  unfold handleOrderedMessage
  simp only [received_initReceived, received_initBuffer, expected_markReceived,
    expected_initReceived, expected_initBuffer]
  split
  · next hseen =>
    have hseen' := (h.received _).mp hseen
    refine ⟨k, ?_, ?_, fun q => ?_⟩
    · simpa using h.ordered.arrive_seen hseen'
    · refine missing_concat h.missing ?_
      rintro rfl
      exact hseen' h.missing
    · rw [← hmark q]
      simp only [received_initReceived, received_initBuffer]
      split
      · next hq => rw [hq, hseen]
      · rfl
  · next hunseen =>
    have hnew : first DirectMessage.position arrived msg.position = none := by
      by_contra hsome
      exact hunseen ((h.received _).mpr hsome)
    split
    · next hnext =>
      obtain ⟨k', hloop, hnone⟩ :=
        deliverLoop_spec (h.ordered.arrive_next hnew hnext) _ (le_refl _)
      refine ⟨k', ?_, hnone, fun q => ?_⟩
      · simpa [deliverBufferedMessages] using hloop
      · rw [← hmark q]
        simp [deliverBufferedMessages]
    · next hne =>
      obtain ⟨hle, hpos⟩ := h.ordered.of_new hnew
      have hahead : msg.sequenceNumber > s.expected msg.fromAddr := by
        refine UInt64.lt_iff_toNat_lt.mpr (lt_of_le_of_ne (hpos ▸ hle) fun heq => ?_)
        exact hne (UInt64.toNat_inj.mp heq.symm)
      rw [if_pos hahead, append_nil]
      refine ⟨k, ?_, ?_, fun q => ?_⟩
      · simpa using h.ordered.arrive_ahead hnew
      · refine missing_concat h.missing fun hk => ?_
        exact hne (UInt64.toNat_inj.mp (hk.trans hpos.symm))
      · rw [← hmark q]
        simp

theorem handleOrderedMessage_seen (h : s.received msg.fromAddr msg.sequenceNumber = true) :
    (handleOrderedMessage s msg).2 = [] := by
  unfold handleOrderedMessage
  simp only [received_initReceived, received_initBuffer]
  rw [if_pos h]

theorem handleOrderedMessage_other (h : PeerState s addr arrived delivered k)
    (hne : addr ≠ msg.fromAddr) :
    PeerState (handleOrderedMessage s msg).1 addr arrived delivered k := by
  have hreads : (handleOrderedMessage s msg).1.buffer addr = s.buffer addr ∧
      (handleOrderedMessage s msg).1.expected addr = s.expected addr ∧
      ∀ q, (handleOrderedMessage s msg).1.received addr q = s.received addr q := by
    unfold handleOrderedMessage
    simp only
    split
    · simp
    · split
      · simp [deliverBufferedMessages, hne]
      · split
        · simp [hne]
        · simp [hne]
  obtain ⟨hbuffer, hexpected, hreceived⟩ := hreads
  refine ⟨?_, h.missing, fun q => ?_⟩
  · rw [hbuffer, hexpected]
    exact h.ordered
  · rw [hreceived]
    exact h.received q

end Message

/-! ## All messages -/

theorem messagesOf_append (addr : Address) (msgs more : List DirectMessage) :
    messagesOf addr (msgs ++ more) = messagesOf addr msgs ++ messagesOf addr more :=
  filter_append _ _

variable {msgs : List DirectMessage}

theorem messagesOf_own {addr : Address} (h : ∀ msg ∈ msgs, msg.fromAddr = addr) :
    messagesOf addr msgs = msgs := by
  simpa [messagesOf] using h

theorem messagesOf_other {addr a : Address}
    (h : ∀ msg ∈ msgs, msg.fromAddr = addr) (hne : a ≠ addr) : messagesOf a msgs = [] := by
  refine filter_eq_nil_iff.mpr fun msg hmem heq => hne ?_
  rw [← of_decide_eq_true heq]
  exact h msg hmem

variable (msgs : List DirectMessage)

theorem handleAll_concat (msg : DirectMessage) :
    handleAll (msgs ++ [msg]) = ((handleOrderedMessage (handleAll msgs).1 msg).1,
      (handleAll msgs).2 ++ (handleOrderedMessage (handleAll msgs).1 msg).2) :=
  foldl_concat ..

theorem peerState_init (addr : Address) : PeerState .init addr [] [] 0 := by
  refine ⟨⟨inOrder_nil _, fun q => ?_, rfl⟩, rfl, fun q => ?_⟩
  · rfl
  · exact iff_of_false (fun h => (nomatch h)) fun h => h rfl

/-- The state of every peer after any messages. -/
theorem peerState_handleAll (addr : Address) :
    ∃ k, PeerState (handleAll msgs).1 addr (messagesOf addr msgs)
      (messagesOf addr (handleAll msgs).2) k := by
  induction msgs using List.reverseRecOn generalizing addr with
  | nil => exact ⟨0, peerState_init addr⟩
  | append_singleton msgs msg ih =>
    obtain ⟨k, hown⟩ := ih msg.fromAddr
    obtain ⟨k', hown'⟩ := handleOrderedMessage_own hown
    -- what is delivered now comes from the sender of the message
    have hfrom : ∀ m ∈ (handleOrderedMessage (handleAll msgs).1 msg).2,
        m.fromAddr = msg.fromAddr := by
      intro m hm
      have hmem := hown'.ordered.inOrder.mem (mem_append_right _ hm)
      rcases mem_append.mp hmem with hmem | hmem
      · exact of_decide_eq_true (mem_filter.mp hmem).2
      · rw [mem_singleton.mp hmem]
    have hmsg : ∀ m ∈ [msg], m.fromAddr = msg.fromAddr :=
      fun m hm => congrArg _ (mem_singleton.mp hm)
    rw [handleAll_concat, messagesOf_append, messagesOf_append]
    by_cases haddr : addr = msg.fromAddr
    · subst haddr
      rw [messagesOf_own hmsg, messagesOf_own hfrom]
      exact ⟨k', hown'⟩
    · rw [messagesOf_other hmsg haddr, messagesOf_other hfrom haddr, append_nil, append_nil]
      obtain ⟨k, hother⟩ := ih addr
      exact ⟨k, handleOrderedMessage_other hother haddr⟩

end

/-- The messages delivered of each sender are, in order, the first-arrived ones with the numbers 0,
…, `k - 1`, where `k` is the least number that has not arrived; its buffer holds the first-arrived
ones above `k`. -/
theorem delivered_in_order (msgs : List DirectMessage) (addr : Address) :
    ∃ k, IsLeast {n | ∀ msg ∈ messagesOf addr msgs, msg.position ≠ n} k ∧
      (messagesOf addr (handleAll msgs).2).map some =
        (List.range k).map (first DirectMessage.position (messagesOf addr msgs)) ∧
      ∀ q : UInt64, ((handleAll msgs).1.buffer addr).lookup q =
        if k < q.toNat then first DirectMessage.position (messagesOf addr msgs) q.toNat
        else none := by
  obtain ⟨k, h⟩ := peerState_handleAll msgs addr
  refine ⟨k, h.ordered.inOrder.isLeast h.missing, h.ordered.inOrder.passed, fun q => ?_⟩
  rw [h.ordered.buffered, waiting]
  rcases lt_trichotomy k q.toNat with hlt | heq | hgt
  · rw [if_pos (le_of_lt hlt), if_pos hlt]
  · rw [if_pos (le_of_eq heq), if_neg (not_lt_of_ge (le_of_eq heq.symm)), ← heq]
    exact h.missing
  · rw [if_neg (not_le_of_gt hgt), if_neg (lt_asymm hgt)]

end Zentalk
