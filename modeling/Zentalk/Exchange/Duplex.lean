import Zentalk.Exchange.Calls

/-!
# Two parties, in order and without loss

In the direction `Sync` the receiver knows the sender's DH key, in `Ahead` not yet. Every
message decrypts (`duplex_delivers`).
-/

namespace Zentalk

open Wire Runs List Function ByteArr Party MessageHeader Handshake

/-! ## The system -/

structure Flight where
  header : Bytes
  ciphertext : Bytes
  plaintext : Bytes

/-- Both states, the messages in flight to each party and all DH public keys so far. -/
structure Duplex (K : Suite) where
  state : Party → RatchetState K
  inbox : Party → List Flight
  published : List DHPublicKey

/-- What a step shows: a party sent a message with this DH key while it had this root key, or
received a message with this DH key. -/
inductive Event (K : Suite)
  | sent (p : Party) (key : DHPublicKey) (root : K.RootKey)
  | received (p : Party) (key : DHPublicKey)

def headerKey (header : Bytes) : DHPublicKey := ofSlice 32 (slice header 0 32)

@[simp] theorem headerKey_encode (h : MessageHeader) : headerKey h.encode = h.dhPublicKey := by
  simp [headerKey, encode, slice_append_left]

variable {K : Suite}

/-- `aesEncrypt` succeeds and `aesDecrypt` undoes it under the same key. -/
def Inverts (aesEncrypt aesDecrypt : K.Cipher) : Prop :=
  ∀ plaintext key, ∃ ciphertext,
    aesEncrypt plaintext key = .ok ciphertext ∧ aesDecrypt ciphertext key = .ok plaintext

/-- A party encrypts and its message joins the channel, or the oldest message of a channel is
delivered. A chain has fewer than `2 ^ 32` messages. A DH key that is generated has not been
used before. -/
inductive Duplex.Step (aesDecrypt : K.Cipher) :
    Duplex K → Event K → Duplex K → Prop
  | encrypt {d : Duplex K} (p : Party) {plaintext aesEncrypt s header ciphertext} :
      Inverts aesEncrypt aesDecrypt →
      (d.state p).sendingMsgNum.toNat + 1 < 2 ^ 32 →
      ratchetEncrypt (d.state p) plaintext aesEncrypt = (s, .ok (header, ciphertext)) →
      Step aesDecrypt d (.sent p (headerKey header) (d.state p).rootKey)
        { d with
          state := update d.state p s
          inbox := update d.inbox p.peer
            (d.inbox p.peer ++ [⟨header, ciphertext, plaintext⟩]) }
  | deliver {d : Duplex K} (p : Party) {m : Flight} {rest newPrivate} {s : RatchetState K}
      {result} :
      d.inbox p = m :: rest →
      K.scalarBaseMult newPrivate ∉ d.published →
      ratchetDecrypt (d.state p) m.header m.ciphertext (.ok newPrivate) aesDecrypt = (s, result) →
      Step aesDecrypt d (.received p (headerKey m.header))
        { state := update d.state p s
          inbox := update d.inbox p rest
          published := s.dhSendingPublic :: d.published }

def Duplex.start (alice bob : RatchetState K) : Duplex K :=
  { state := Party.pick alice bob
    inbox := fun _ => []
    published := [zero 32, alice.dhSendingPublic, bob.dhSendingPublic] }

/-- Two states made from one shared secret: by the two constructors of the ratchet, or by the
two clients of a handshake. A DH public key is not the zero value that an unset key has. -/
inductive Setup : RatchetState K → RatchetState K → Prop
  | direct (sharedSecret : ByteArr 32) (alicePrivate bobPrivate : DHPrivateKey)
      (aliceAddr bobAddr : Address) :
      K.scalarBaseMult alicePrivate ≠ zero 32 →
      Setup
        (newRatchetState sharedSecret (K.scalarBaseMult bobPrivate) alicePrivate
          (K.scalarBaseMult alicePrivate) aliceAddr bobAddr)
        (newRatchetStateReceiver sharedSecret bobPrivate (K.scalarBaseMult bobPrivate) bobAddr
          aliceAddr)
  | client (h : Handshake K) {eph : ByteArr 32} {alice bob : RatchetState K} :
      h.Completes eph alice bob → Setup alice bob

/-! ## The invariant -/

section Invariant

variable (aesDecrypt : K.Cipher)

/-- The messages of one chain from number `n` on, whose chain key is `ck`. -/
def Segment (dhKey : DHPublicKey) (prev : UInt32) : K.ChainKey → Nat → List Flight → Prop
  | _, _, [] => True
  | ck, n, m :: q =>
    (∃ num : UInt32, num.toNat = n ∧ m.header = (MessageHeader.mk dhKey prev num).encode) ∧
    aesDecrypt m.ciphertext (K.messageKeyOf ck) = .ok m.plaintext ∧
    Segment dhKey prev (K.nextChainKey ck) (n + 1) q

/-- The receiver knows the sender's DH key, and the messages in flight are the next ones of
its chain. -/
structure Sync (s r : RatchetState K) (q : List Flight) : Prop where
  key : r.dhReceivingPublic = s.dhSendingPublic
  segment : Segment aesDecrypt s.dhSendingPublic s.previousChainLen r.receivingChainKey
    r.receivingMsgNum.toNat q
  chain : K.chainAt r.receivingChainKey q.length = s.sendingChainKey
  count : r.receivingMsgNum.toNat + q.length = s.sendingMsgNum.toNat

/-- The sender has a DH key that the receiver has not seen: the old chain is in flight up to
its length `PN`, then the new chain, whose first chain key `ck` the receiver will derive. -/
structure AheadWith (s r : RatchetState K) (old new : List Flight) (prev : UInt32)
    (ck : K.ChainKey) : Prop where
  key : s.dhSendingPublic ≠ r.dhReceivingPublic
  oldSegment : Segment aesDecrypt r.dhReceivingPublic prev r.receivingChainKey
    r.receivingMsgNum.toNat old
  oldCount : r.receivingMsgNum.toNat + old.length = s.previousChainLen.toNat
  newSegment : Segment aesDecrypt s.dhSendingPublic s.previousChainLen ck 0 new
  chain : K.chainAt ck new.length = s.sendingChainKey
  count : new.length = s.sendingMsgNum.toNat
  root : K.kdfRK r.rootKey (K.dh r.dhSendingPrivate s.dhSendingPublic) = (s.rootKey, ck)

/-- `AheadWith` for some split of the channel. -/
def Ahead (s r : RatchetState K) (q : List Flight) : Prop :=
  ∃ old new prev ck, q = old ++ new ∧ AheadWith aesDecrypt s r old new prev ck

/-- What holds of each party by itself: its DH keys are a pair, it stored no skipped keys, and
the DH keys it knows have been published. -/
structure PartyInv (d : Duplex K) (s : RatchetState K) : Prop where
  pair : s.dhSendingPublic = K.scalarBaseMult s.dhSendingPrivate
  noSkipped : s.skippedMessageKeys = ∅
  sending_mem : s.dhSendingPublic ∈ d.published
  receiving_mem : s.dhReceivingPublic ∈ d.published

/-- One direction is in `Sync`, the other in `Sync` or `Ahead`. -/
structure Inv (d : Duplex K) : Prop where
  party : ∀ p, PartyInv d (d.state p)
  link : ∃ p, Sync aesDecrypt (d.state p.peer) (d.state p) (d.inbox p) ∧
    (Sync aesDecrypt (d.state p) (d.state p.peer) (d.inbox p.peer) ∨
      Ahead aesDecrypt (d.state p) (d.state p.peer) (d.inbox p.peer))

end Invariant

variable {aesDecrypt : K.Cipher}

section

/-! ## Segments -/

variable {prev : UInt32} {ck : K.ChainKey} {q : List Flight} {m : Flight} {s r : RatchetState K}
  {plaintext ciphertext : Bytes} {d : Duplex K} {dhKey : DHPublicKey}

theorem segment_concat {n : Nat} (hq : Segment aesDecrypt dhKey prev ck n q)
    (hm : ∃ num : UInt32, num.toNat = n + q.length ∧
      m.header = (MessageHeader.mk dhKey prev num).encode)
    (hopen : aesDecrypt m.ciphertext (K.messageKeyOf (K.chainAt ck q.length)) = .ok m.plaintext) :
    Segment aesDecrypt dhKey prev ck n (q ++ [m]) := by
  induction q generalizing ck n with
  | nil => exact ⟨hm, hopen, trivial⟩
  | cons x q ih =>
    obtain ⟨hx, hxo, htail⟩ := hq
    refine ⟨hx, hxo, ih htail ?_ hopen⟩
    obtain ⟨num, hnum, hheader⟩ := hm
    refine ⟨num, ?_, hheader⟩
    rw [hnum, length_cons]
    omega

/-! ## Encryption -/

theorem encrypt_ok {s' : RatchetState K} {header : Bytes}
    {aesEncrypt : K.Cipher} (hinv : Inverts aesEncrypt aesDecrypt)
    (henc : ratchetEncrypt s plaintext aesEncrypt = (s', .ok (header, ciphertext))) :
    s' = s.advanceSending ∧ header = s.nextHeader.encode ∧
      aesDecrypt ciphertext s.sendingKey = .ok plaintext := by
  obtain ⟨c, hc, hopen⟩ := hinv plaintext s.sendingKey
  simp only [ratchetEncrypt, hc, Prod.mk.injEq, Except.ok.injEq] at henc
  obtain ⟨rfl, rfl, rfl⟩ := henc
  exact ⟨rfl, rfl, hopen⟩

theorem toNat_succ {n : UInt32} (h : n.toNat + 1 < 2 ^ 32) : (n + 1).toNat = n.toNat + 1 := by
  rw [UInt32.toNat_add, UInt32.toNat_one, Nat.mod_eq_of_lt h]

theorem sync_encrypt (h : Sync aesDecrypt s r q) (hlt : s.sendingMsgNum.toNat + 1 < 2 ^ 32)
    (hopen : aesDecrypt ciphertext s.sendingKey = .ok plaintext) :
    Sync aesDecrypt s.advanceSending r (q ++ [⟨s.nextHeader.encode, ciphertext, plaintext⟩]) := by
  refine ⟨h.key, segment_concat h.segment ⟨s.sendingMsgNum, h.count.symm, rfl⟩ ?_, ?_, ?_⟩
  · rw [h.chain]
    exact hopen
  · rw [length_append, length_singleton, Suite.chainAt_succ, h.chain]
    rfl
  · rw [length_append, length_singleton, ← Nat.add_assoc, h.count]
    exact (toNat_succ hlt).symm

theorem ahead_encrypt (h : Ahead aesDecrypt s r q) (hlt : s.sendingMsgNum.toNat + 1 < 2 ^ 32)
    (hopen : aesDecrypt ciphertext s.sendingKey = .ok plaintext) :
    Ahead aesDecrypt s.advanceSending r (q ++ [⟨s.nextHeader.encode, ciphertext, plaintext⟩]) := by
  obtain ⟨old, new, prev, ck, rfl, h⟩ := h
  refine ⟨old, new ++ [⟨s.nextHeader.encode, ciphertext, plaintext⟩], prev, ck,
    append_assoc _ _ _, h.key, h.oldSegment, h.oldCount, ?_, ?_, ?_, h.root⟩
  · refine segment_concat h.newSegment ⟨s.sendingMsgNum, ?_, rfl⟩ ?_
    · rw [h.count, Nat.zero_add]
    · rw [h.chain]
      exact hopen
  · rw [length_append, length_singleton, Suite.chainAt_succ, h.chain]
    rfl
  · rw [length_append, length_singleton, h.count]
    exact (toNat_succ hlt).symm

/-! ## Decryption -/

theorem decrypt_next {num : UInt32}
    (hheader : m.header = (MessageHeader.mk r.dhReceivingPublic prev num).encode)
    (hnum : num.toNat = r.receivingMsgNum.toNat) (hskip : r.skippedMessageKeys = ∅)
    (rand : RandomKey) :
    ratchetDecrypt r m.header m.ciphertext rand aesDecrypt =
      (r.advanceReceiving, aesDecrypt m.ciphertext (K.messageKeyOf r.receivingChainKey)) := by
  have hdec : decode m.header = .ok ⟨r.dhReceivingPublic, prev, num⟩ := by
    rw [hheader, decode_encode]
  rw [ratchetDecrypt, receivingKey_same hdec rfl,
    takeMessageKey_next (UInt32.toNat_inj.mp hnum) (by rw [hskip]; rfl)]

theorem decrypt_ratchet {num : UInt32}
    (hheader : m.header = (MessageHeader.mk dhKey prev num).encode) (hnum : num.toNat = 0)
    (hne : dhKey ≠ r.dhReceivingPublic) (hprev : prev = r.receivingMsgNum)
    (hskip : r.skippedMessageKeys = ∅) (newPrivate : DHPrivateKey) :
    let r' := dhRatchetSend (dhRatchetReceive r dhKey) newPrivate (K.scalarBaseMult newPrivate)
    ratchetDecrypt r m.header m.ciphertext (.ok newPrivate) aesDecrypt =
      (r'.advanceReceiving, aesDecrypt m.ciphertext (K.messageKeyOf r'.receivingChainKey)) := by
  intro r'
  subst hprev
  have hdec : decode m.header = .ok ⟨dhKey, r.receivingMsgNum, num⟩ := by
    rw [hheader, decode_encode]
  have hfew : ¬ SkipsTooMany r.receivingMsgNum r.receivingMsgNum := by
    rw [skipsTooMany_iff (UInt32.le_refl _), Nat.sub_self]
    decide
  have hratchet : r.ratchetTo ⟨dhKey, r.receivingMsgNum, num⟩ newPrivate = r' := by
    rw [RatchetState.ratchetTo, skipTo_of_le (UInt32.le_refl _)]
  rw [ratchetDecrypt, receivingKey_ratchet hdec hne hfew, hratchet,
    takeMessageKey_next (UInt32.toNat_inj.mp hnum) (by
      show r.skippedMessageKeys.lookup _ = none
      rw [hskip]
      rfl)]

/-- Delivery of the first message of a segment. The bound on `len` keeps the counter from wrapping.
-/
theorem segment_deliver {len : UInt32}
    (h : Segment aesDecrypt r.dhReceivingPublic prev r.receivingChainKey r.receivingMsgNum.toNat
      (m :: q)) (hcount : r.receivingMsgNum.toNat + (m :: q).length = len.toNat)
    (hskip : r.skippedMessageKeys = ∅) (rand : RandomKey) :
    ratchetDecrypt r m.header m.ciphertext rand aesDecrypt =
      (r.advanceReceiving, .ok m.plaintext) ∧
    Segment aesDecrypt r.dhReceivingPublic prev r.advanceReceiving.receivingChainKey
      r.advanceReceiving.receivingMsgNum.toNat q ∧
    r.advanceReceiving.receivingMsgNum.toNat + q.length = len.toNat := by
  obtain ⟨⟨num, hnum, hheader⟩, hopen, htail⟩ := h
  rw [length_cons] at hcount
  have hsucc : r.advanceReceiving.receivingMsgNum.toNat = r.receivingMsgNum.toNat + 1 := by
    have := len.toNat_lt
    exact toNat_succ (by omega)
  refine ⟨?_, hsucc ▸ htail, by omega⟩
  rw [decrypt_next hheader hnum hskip, hopen]

theorem sync_deliver (h : Sync aesDecrypt s r (m :: q)) (hskip : r.skippedMessageKeys = ∅)
    (rand : RandomKey) :
    ratchetDecrypt r m.header m.ciphertext rand aesDecrypt =
      (r.advanceReceiving, .ok m.plaintext) ∧ Sync aesDecrypt s r.advanceReceiving q := by
  obtain ⟨hdec, htail, hcount⟩ := segment_deliver (h.key ▸ h.segment) h.count hskip rand
  rw [h.key] at htail
  exact ⟨hdec, h.key, htail, (K.chainAt_next _ _).trans h.chain, hcount⟩

theorem ahead_deliver_old {old new : List Flight}
    (h : AheadWith aesDecrypt s r (m :: old) new prev ck) (hskip : r.skippedMessageKeys = ∅)
    (rand : RandomKey) :
    ratchetDecrypt r m.header m.ciphertext rand aesDecrypt =
      (r.advanceReceiving, .ok m.plaintext) ∧
    AheadWith aesDecrypt s r.advanceReceiving old new prev ck := by
  obtain ⟨hdec, htail, hcount⟩ := segment_deliver h.oldSegment h.oldCount hskip rand
  exact ⟨hdec, h.key, htail, hcount, h.newSegment, h.chain, h.count, h.root⟩

variable {newPrivate : DHPrivateKey}

/-- Delivery of the first message of the new chain: the receiver ratchets, and is ahead in the other
direction, whose channel holds the old chain. -/
theorem ahead_deliver_new (hdh : K.DHCommutes) {new back : List Flight}
    (h : AheadWith aesDecrypt s r [] (m :: new) prev ck) (hback : Sync aesDecrypt r s back)
    (hskip : r.skippedMessageKeys = ∅)
    (hpair : s.dhSendingPublic = K.scalarBaseMult s.dhSendingPrivate)
    (hfresh : K.scalarBaseMult newPrivate ≠ s.dhReceivingPublic) :
    ∃ r', ratchetDecrypt r m.header m.ciphertext (.ok newPrivate) aesDecrypt =
        (r', .ok m.plaintext) ∧
      Sync aesDecrypt s r' new ∧ Ahead aesDecrypt r' s back ∧
      r'.dhSendingPublic = K.scalarBaseMult newPrivate ∧ r'.dhSendingPrivate = newPrivate ∧
      r'.dhReceivingPublic = s.dhSendingPublic ∧ r'.skippedMessageKeys = ∅ := by
  obtain ⟨⟨num, hnum, hheader⟩, hopen, htail⟩ := h.newSegment
  have hprev : s.previousChainLen = r.receivingMsgNum := UInt32.toNat_inj.mp h.oldCount.symm
  have hnext : (K.kdfRK r.rootKey (K.dh r.dhSendingPrivate s.dhSendingPublic)).1 = s.rootKey := by
    rw [h.root]
  have hchain : (K.kdfRK r.rootKey (K.dh r.dhSendingPrivate s.dhSendingPublic)).2 = ck := by
    rw [h.root]
  have hmix : K.dh s.dhSendingPrivate (K.scalarBaseMult newPrivate) =
      K.dh newPrivate s.dhSendingPublic := by
    rw [hpair]
    exact hdh _ _
  refine ⟨(dhRatchetSend (dhRatchetReceive r s.dhSendingPublic) newPrivate
      (K.scalarBaseMult newPrivate)).advanceReceiving,
    (decrypt_ratchet hheader hnum h.key hprev hskip newPrivate).trans ?_, ?_, ?_,
    rfl, rfl, rfl, hskip⟩
  · rw [← hopen, ← hchain]
    rfl
  · refine ⟨rfl, ?_, ?_, ?_⟩
    · show Segment aesDecrypt _ _ (K.nextChainKey (K.kdfRK _ _).2) _ new
      rw [hchain]
      exact htail
    · show K.chainAt (K.nextChainKey (K.kdfRK _ _).2) _ = _
      rw [hchain, Suite.chainAt_next]
      exact h.chain
    · have hcount := h.count
      rw [length_cons] at hcount
      show 1 + new.length = _
      omega
  · refine ⟨back, [], r.previousChainLen, _, (append_nil _).symm, hfresh, ?_, hback.count,
      trivial, rfl, rfl, ?_⟩
    · rw [hback.key]
      exact hback.segment
    · show K.kdfRK s.rootKey (K.dh s.dhSendingPrivate (K.scalarBaseMult newPrivate)) = _
      rw [hmix, ← hnext]
      rfl

/-! ## What the other direction keeps

Sending moves only the sending half of a state, and receiving in order only the receiving
half, so each leaves the other direction as it was. -/

theorem sync_receiver_sends (h : Sync aesDecrypt s r q) : Sync aesDecrypt s r.advanceSending q :=
  ⟨h.key, h.segment, h.chain, h.count⟩

theorem sync_sender_receives (h : Sync aesDecrypt s r q) : Sync aesDecrypt s.advanceReceiving r q :=
  ⟨h.key, h.segment, h.chain, h.count⟩

theorem ahead_receiver_sends (h : Ahead aesDecrypt s r q) :
    Ahead aesDecrypt s r.advanceSending q := by
  obtain ⟨old, new, prev, ck, rfl, h⟩ := h
  exact ⟨old, new, prev, ck, rfl, h.key, h.oldSegment, h.oldCount, h.newSegment, h.chain, h.count,
    h.root⟩

theorem ahead_sender_receives (h : Ahead aesDecrypt s r q) :
    Ahead aesDecrypt s.advanceReceiving r q := by
  obtain ⟨old, new, prev, ck, rfl, h⟩ := h
  exact ⟨old, new, prev, ck, rfl, h.key, h.oldSegment, h.oldCount, h.newSegment, h.chain, h.count,
    h.root⟩

/-! ## The steps of the system -/

theorem partyInv_mono {d' : Duplex K} (h : PartyInv d s) (hsub : d.published ⊆ d'.published) :
    PartyInv d' s :=
  ⟨h.pair, h.noSkipped, hsub h.sending_mem, hsub h.receiving_mem⟩

theorem inv_encrypt (hinv : Inv aesDecrypt d) (x : Party)
    (hlt : (d.state x).sendingMsgNum.toNat + 1 < 2 ^ 32)
    (hopen : aesDecrypt ciphertext (d.state x).sendingKey = .ok plaintext) :
    Inv aesDecrypt
      { d with
        state := update d.state x (d.state x).advanceSending
        inbox := update d.inbox x.peer
          (d.inbox x.peer ++ [⟨(d.state x).nextHeader.encode, ciphertext, plaintext⟩]) } := by
  constructor
  · refine (forall_iff x).mpr ⟨?_, ?_⟩
    · have h := hinv.party x
      simp only [update_self]
      exact ⟨h.pair, h.noSkipped, h.sending_mem, h.receiving_mem⟩
    · simp only [update_peer]
      exact partyInv_mono (hinv.party x.peer) (List.Subset.refl _)
  · obtain ⟨p, hback, hforth⟩ := hinv.link
    refine ⟨p, ?_⟩
    rcases eq_or_eq_peer p x with rfl | rfl
    · simp only [update_self, update_peer, update_of_peer]
      refine ⟨sync_receiver_sends hback, ?_⟩
      rcases hforth with h | h
      · exact .inl (sync_encrypt h hlt hopen)
      · exact .inr (ahead_encrypt h hlt hopen)
    · simp only [peer_peer, update_self, update_peer, update_of_peer]
      refine ⟨sync_encrypt hback hlt hopen, ?_⟩
      rcases hforth with h | h
      · exact .inl (sync_receiver_sends h)
      · exact .inr (ahead_receiver_sends h)

theorem partyInv_deliver (hinv : Inv aesDecrypt d) {x : Party}
    (hpair : s.dhSendingPublic = K.scalarBaseMult s.dhSendingPrivate)
    (hskip : s.skippedMessageKeys = ∅) (hrecv : s.dhReceivingPublic ∈ d.published)
    (inbox : Party → List Flight) :
    ∀ p, PartyInv ⟨update d.state x s, inbox, s.dhSendingPublic :: d.published⟩
      (update d.state x s p) := by
  refine (forall_iff x).mpr ⟨?_, ?_⟩
  · rw [update_self]
    exact ⟨hpair, hskip, mem_cons_self, mem_cons_of_mem _ hrecv⟩
  · rw [update_peer]
    exact partyInv_mono (hinv.party x.peer) (subset_cons_self _ _)

theorem inv_deliver (hdh : K.DHCommutes) (hinv : Inv aesDecrypt d) {x : Party} {rest : List Flight}
    (hin : d.inbox x = m :: rest) (hfresh : K.scalarBaseMult newPrivate ∉ d.published) :
    ∃ s, ratchetDecrypt (d.state x) m.header m.ciphertext (.ok newPrivate) aesDecrypt =
        (s, .ok m.plaintext) ∧
      Inv aesDecrypt
        { state := update d.state x s
          inbox := update d.inbox x rest
          published := s.dhSendingPublic :: d.published } := by
  obtain ⟨hpair, hskip, -, hrecv⟩ := hinv.party x
  have hadvance := partyInv_deliver hinv (x := x) (s := (d.state x).advanceReceiving) hpair hskip
    hrecv (update d.inbox x rest)
  obtain ⟨p, hback, hforth⟩ := hinv.link
  rcases eq_or_eq_peer p x with rfl | rfl
  · -- the receiver may be ahead; it reads from the direction in `Sync`
    rw [hin] at hback
    obtain ⟨hdec, hsync⟩ := sync_deliver hback hskip (.ok newPrivate)
    refine ⟨_, hdec, hadvance, x, ?_⟩
    simp only [update_self, update_peer]
    exact ⟨hsync, hforth.imp sync_sender_receives ahead_sender_receives⟩
  · rw [hin] at hforth
    rcases hforth with hsync | ⟨old, new, prev, ck, hsplit, hahead⟩
    · obtain ⟨hdec, hsync⟩ := sync_deliver hsync hskip (.ok newPrivate)
      refine ⟨_, hdec, hadvance, p, ?_⟩
      simp only [update_self, update_of_peer]
      exact ⟨sync_sender_receives hback, .inl hsync⟩
    · cases old with
      | cons x old =>
        obtain ⟨rfl, rfl⟩ := List.cons.inj hsplit
        obtain ⟨hdec, hahead⟩ := ahead_deliver_old hahead hskip (.ok newPrivate)
        refine ⟨_, hdec, hadvance, p, ?_⟩
        simp only [update_self, update_of_peer]
        exact ⟨sync_sender_receives hback, .inr ⟨old, new, prev, ck, rfl, hahead⟩⟩
      | nil =>
        -- the receiver ratchets, and the two parties change roles
        subst hsplit
        have hp := hinv.party p
        have hnew : K.scalarBaseMult newPrivate ≠ (d.state p).dhReceivingPublic :=
          fun heq => hfresh (heq ▸ hp.receiving_mem)
        obtain ⟨s, hdec, hsync, hahead, hpub, hpriv, hdhr, hskip⟩ :=
          ahead_deliver_new hdh hahead hback hskip hp.pair hnew
        refine ⟨s, hdec, partyInv_deliver hinv ?_ hskip ?_ _, p.peer, ?_⟩
        · rw [hpub, hpriv]
        · rw [hdhr]
          exact hp.sending_mem
        · simp only [update_self, peer_peer, update_of_peer]
          exact ⟨hsync, .inr hahead⟩

theorem inv_step (hdh : K.DHCommutes) {d' : Duplex K} {e : Event K} (hinv : Inv aesDecrypt d)
    (hstep : Duplex.Step aesDecrypt d e d') : Inv aesDecrypt d' := by
  cases hstep with
  | encrypt p hinverts hlt henc =>
    obtain ⟨rfl, rfl, hopen⟩ := encrypt_ok hinverts henc
    exact inv_encrypt hinv p hlt hopen
  | deliver p hin hfresh hdec =>
    obtain ⟨s, hdec', hinv'⟩ := inv_deliver hdh hinv hin hfresh
    obtain ⟨rfl, -⟩ := Prod.mk.inj (hdec'.symm.trans hdec)
    exact hinv'

/-! ## The two setups -/

/-- The initiator starts ahead: the receiver has no DH key of it. -/
theorem inv_direct (hdh : K.DHCommutes) (sharedSecret : ByteArr 32)
    (alicePrivate bobPrivate : DHPrivateKey) (aliceAddr bobAddr : Address)
    (hzero : K.scalarBaseMult alicePrivate ≠ zero 32) :
    Inv aesDecrypt (Duplex.start
      (newRatchetState sharedSecret (K.scalarBaseMult bobPrivate) alicePrivate
        (K.scalarBaseMult alicePrivate) aliceAddr bobAddr)
      (newRatchetStateReceiver sharedSecret bobPrivate (K.scalarBaseMult bobPrivate) bobAddr
        aliceAddr)) := by
  constructor
  · rintro (_ | _)
    · exact ⟨rfl, rfl, mem_cons_of_mem _ mem_cons_self, by
        simp [Duplex.start, newRatchetState, newRatchetStateReceiver]⟩
    · exact ⟨rfl, rfl, by simp [Duplex.start], mem_cons_self⟩
  · refine ⟨.alice, ⟨rfl, trivial, rfl, rfl⟩, .inr ⟨[], [], 0, _, rfl, hzero, trivial, rfl,
      trivial, rfl, rfl, ?_⟩⟩
    show K.kdfRK (K.rootKeyOf sharedSecret)
      (K.dh bobPrivate (K.scalarBaseMult alicePrivate)) = _
    rw [show K.dh bobPrivate (K.scalarBaseMult alicePrivate) =
      K.dh alicePrivate (K.scalarBaseMult bobPrivate) from hdh _ _]
    rfl

/-- The sessions of a handshake start in `Sync` both ways. -/
theorem inv_handshake (hdh : K.DHCommutes) (h : Handshake K) (eph : ByteArr 32) :
    Inv aesDecrypt (Duplex.start (h.initiatorState eph) (h.responderState eph)) := by
  obtain ⟨-, hchain⟩ := h.states_match hdh eph
  constructor
  · rintro (_ | _)
    · exact ⟨rfl, rfl, by simp [Duplex.start], by
        simp [Duplex.start, initiatorState, responderState, responderSession,
          newRatchetState, newRatchetStateReceiver]⟩
    · exact ⟨h.signedPreKey_valid, rfl, by simp [Duplex.start], by
        simp [Duplex.start, initiatorState, responderState, responderSession, newRatchetState]⟩
  · exact ⟨.alice, ⟨rfl, trivial, rfl, rfl⟩, .inl ⟨rfl, trivial, hchain, rfl⟩⟩

variable {alice bob : RatchetState K}

theorem inv_setup (hdh : K.DHCommutes) (hsetup : Setup alice bob) :
    Inv aesDecrypt (Duplex.start alice bob) := by
  cases hsetup with
  | direct sharedSecret alicePrivate bobPrivate aliceAddr bobAddr hzero =>
    exact inv_direct hdh sharedSecret alicePrivate bobPrivate aliceAddr bobAddr hzero
  | @client h eph _ _ hc =>
    obtain ⟨rfl, rfl⟩ := completes_eq hdh hc
    exact inv_handshake hdh h eph

theorem inv_run (hdh : K.DHCommutes) (hsetup : Setup alice bob) {evs : List (Event K)}
    (hrun : Run (Duplex.Step aesDecrypt) (Duplex.start alice bob) evs d) : Inv aesDecrypt d :=
  hrun.invariant (inv_setup hdh hsetup) fun _ _ _ => inv_step hdh

end

/-- With in-order lossless channels the next message of each channel decrypts to its plaintext, in
every reachable state. -/
theorem duplex_delivers (hdh : K.DHCommutes) {alice bob : RatchetState K}
    (hsetup : Setup alice bob) {evs : List (Event K)} {d : Duplex K}
    (hrun : Run (Duplex.Step aesDecrypt) (Duplex.start alice bob) evs d) {p : Party} {m : Flight}
    {rest : List Flight} (hin : d.inbox p = m :: rest) {newPrivate : DHPrivateKey}
    (hfresh : K.scalarBaseMult newPrivate ∉ d.published) :
    (ratchetDecrypt (d.state p) m.header m.ciphertext (.ok newPrivate) aesDecrypt).2 =
      .ok m.plaintext := by
  obtain ⟨s, hdec, -⟩ := inv_deliver hdh (inv_run hdh hsetup hrun) hin hfresh
  rw [hdec]

theorem inverts_aesGCM (hgcm : K.GcmOpens) (nonce : ByteArr 12) :
    Inverts (K := K) (aesEncryptGCM (.ok nonce)) aesDecryptGCM :=
  fun plaintext key => ⟨_, rfl, aesDecryptGCM_seal hgcm nonce plaintext key⟩

theorem encrypt_step (hgcm : K.GcmOpens) (nonce : ByteArr 12) (d : Duplex K) (p : Party)
    (plaintext : Bytes) (hlt : (d.state p).sendingMsgNum.toNat + 1 < 2 ^ 32) :
    Duplex.Step aesDecryptGCM d (.sent p (d.state p).dhSendingPublic (d.state p).rootKey)
      { d with
        state := update d.state p (d.state p).advanceSending
        inbox := update d.inbox p.peer (d.inbox p.peer ++
          [⟨(d.state p).nextHeader.encode,
            nonce.bytes ++ K.gcmSeal nonce plaintext (d.state p).sendingKey, plaintext⟩]) } := by
  have hstep := Duplex.Step.encrypt p (inverts_aesGCM hgcm nonce) hlt
    (show ratchetEncrypt (d.state p) plaintext (aesEncryptGCM (.ok nonce)) = _ from rfl)
  rw [headerKey_encode] at hstep
  exact hstep

theorem deliver_step {aesDecrypt : K.Cipher} {d : Duplex K}
    {p : Party} {m : Flight} {rest : List Flight} (newPrivate : DHPrivateKey)
    (hin : d.inbox p = m :: rest) (hfresh : K.scalarBaseMult newPrivate ∉ d.published) :
    Duplex.Step aesDecrypt d (.received p (headerKey m.header))
      { state := update d.state p
          (ratchetDecrypt (d.state p) m.header m.ciphertext (.ok newPrivate) aesDecrypt).1
        inbox := update d.inbox p rest
        published :=
          (ratchetDecrypt (d.state p) m.header m.ciphertext (.ok newPrivate)
            aesDecrypt).1.dhSendingPublic :: d.published } :=
  .deliver p hin hfresh rfl

def sampleAlice : RatchetState freeSuite :=
  newRatchetState (fill 32 1) (fill 32 3) (fill 32 2) (fill 32 2) (fill 20 1) (fill 20 2)

def sampleBob : RatchetState freeSuite :=
  newRatchetStateReceiver (fill 32 1) (fill 32 3) (fill 32 3) (fill 20 2) (fill 20 1)

theorem sample_setup : Setup sampleAlice sampleBob :=
  .direct (fill 32 1) (fill 32 2) (fill 32 3) (fill 20 1) (fill 20 2) (by decide)

theorem duplex_delivers_first : ∃ (evs : List (Event freeSuite)) (d : Duplex freeSuite)
    (m : Flight),
    Run (Duplex.Step aesDecryptGCM) (Duplex.start sampleAlice sampleBob) evs d ∧
    d.inbox .bob = [m] ∧ m.plaintext = [7] ∧ freeSuite.scalarBaseMult (fill 32 9) ∉ d.published ∧
    (ratchetDecrypt (d.state .bob) m.header m.ciphertext (.ok (fill 32 9)) aesDecryptGCM).2 =
      .ok m.plaintext := by
  have hrun : Run (Duplex.Step aesDecryptGCM) (Duplex.start sampleAlice sampleBob) _ _ :=
    Run.nil.snoc (encrypt_step freeSuite_gcmOpens (fill 12 0) _ .alice [7] (by decide))
  exact ⟨_, _, _, hrun, rfl, rfl, by decide,
    duplex_delivers freeSuite_dhCommutes sample_setup hrun rfl (by decide)⟩

end Zentalk
