import Mathlib.Data.Finmap
import Zentalk.Protocol.Keys

/-!
# The Double Ratchet

`ratchet.go` changes the state in place, also on the paths that end in an error
(`receivingKey_cases`).
-/

namespace Zentalk

open Wire ByteArr UInt32

/-! ## State and headers -/

/-- Names a message key for out-of-order delivery. -/
structure MessageKeyID where
  dhPublicKey : DHPublicKey
  messageNum : UInt32
deriving DecidableEq

/-- `SkippedMessageKeys`. -/
abbrev SkippedKeys (K : Suite) := Finmap fun _ : MessageKeyID => K.MessageKey

/-- The state of one end of a Double Ratchet session. -/
@[ext] structure RatchetState (K : Suite) where
  rootKey : K.RootKey
  sendingChainKey : K.ChainKey
  sendingMsgNum : UInt32
  receivingChainKey : K.ChainKey
  receivingMsgNum : UInt32
  dhSendingPrivate : DHPrivateKey
  dhSendingPublic : DHPublicKey
  dhReceivingPublic : DHPublicKey
  previousChainLen : UInt32
  skippedMessageKeys : SkippedKeys K
  localAddress : Address
  remoteAddress : Address

/-- The header sent with every message. -/
@[ext] structure MessageHeader where
  dhPublicKey : DHPublicKey
  previousChainLen : UInt32
  messageNum : UInt32
deriving DecidableEq

namespace MessageHeader

/-- The key that the message is encrypted with. -/
abbrev keyID (header : MessageHeader) : MessageKeyID := ⟨header.dhPublicKey, header.messageNum⟩

def encode (h : MessageHeader) : Bytes :=
  h.dhPublicKey.bytes ++ (putUint32 h.previousChainLen ++ putUint32 h.messageNum)

def decode (buf : Bytes) : Except String MessageHeader :=
  if buf.length < 40 then .error "buffer too short for message header"
  else .ok
    { dhPublicKey := ofSlice 32 (slice buf 0 32)
      previousChainLen := getUint32 (slice buf 32 4)
      messageNum := getUint32 (slice buf 36 4) }

variable (h : MessageHeader)

@[simp] theorem length_encode : h.encode.length = 40 := by
  simp [encode]

theorem decode_append (t : Bytes) : decode (h.encode ++ t) = .ok h := by
  have hlen : ¬ (h.encode ++ t).length < 40 := by simp
  rw [decode, if_neg hlen]
  simp (disch := simp) only [encode, List.append_assoc, slice_append_right, slice_append_left,
    length_bytes, length_putUint32, Nat.reduceSub, ofSlice_bytes,
    getUint32_putUint32]

@[simp] theorem decode_encode : decode h.encode = .ok h := by
  simpa using h.decode_append []

end MessageHeader

variable {K : Suite}

/-! ## Initial states -/

/-- `NewRatchetState`, the initiator. `DH` and `KDF_RK` do not fail. -/
def newRatchetState (sharedSecret : ByteArr 32) (remoteDHPublic : DHPublicKey)
    (localDHPrivate : DHPrivateKey) (localDHPublic : DHPublicKey)
    (localAddr remoteAddr : Address) : RatchetState K :=
  let derived := K.kdfRK (K.rootKeyOf sharedSecret) (K.dh localDHPrivate remoteDHPublic)
  { rootKey := derived.1
    sendingChainKey := derived.2
    sendingMsgNum := 0
    receivingChainKey := K.zeroChainKey
    receivingMsgNum := 0
    dhSendingPrivate := localDHPrivate
    dhSendingPublic := localDHPublic
    dhReceivingPublic := remoteDHPublic
    previousChainLen := 0
    skippedMessageKeys := ∅
    localAddress := localAddr
    remoteAddress := remoteAddr }

/-- `NewRatchetStateReceiver`. The chain keys and the remote DH key keep their zero
values. -/
def newRatchetStateReceiver (sharedSecret : ByteArr 32) (localDHPrivate : DHPrivateKey)
    (localDHPublic : DHPublicKey) (localAddr remoteAddr : Address) : RatchetState K :=
  { rootKey := K.rootKeyOf sharedSecret
    sendingChainKey := K.zeroChainKey
    sendingMsgNum := 0
    receivingChainKey := K.zeroChainKey
    receivingMsgNum := 0
    dhSendingPrivate := localDHPrivate
    dhSendingPublic := localDHPublic
    dhReceivingPublic := zero 32
    previousChainLen := 0
    skippedMessageKeys := ∅
    localAddress := localAddr
    remoteAddress := remoteAddr }

/-! ## Skipped keys -/

def maxSkip : UInt32 := 1000

/-- The loop of `SkipMessageKeys`: `n` iterations from message number `i` on. -/
def storeSkipped (dhPublicKey : DHPublicKey) :
    Nat → UInt32 → K.ChainKey → SkippedKeys K → K.ChainKey × SkippedKeys K
  | 0, _, chainKey, skipped => (chainKey, skipped)
  | n + 1, i, chainKey, skipped =>
    storeSkipped dhPublicKey n (i + 1) (K.nextChainKey chainKey)
      (skipped.insert ⟨dhPublicKey, i⟩ (K.messageKeyOf chainKey))

/-- The test of `SkipMessageKeys`; the difference wraps at `2 ^ 32`. -/
def SkipsTooMany (fromMsgNum toMsgNum : UInt32) : Prop := maxSkip < toMsgNum - fromMsgNum

instance (fromMsgNum toMsgNum : UInt32) : Decidable (SkipsTooMany fromMsgNum toMsgNum) :=
  inferInstanceAs (Decidable (maxSkip < toMsgNum - fromMsgNum))

/-- `SkipMessageKeys`. It moves the receiving chain key but not the message number. -/
def skipMessageKeys (s : RatchetState K) (dhPublicKey : DHPublicKey)
    (fromMsgNum toMsgNum : UInt32) : RatchetState K × Except String Unit :=
  if SkipsTooMany fromMsgNum toMsgNum then
    (s, .error ("skipping too many message keys (" ++ toString (toMsgNum - fromMsgNum) ++ ")"))
  else
    -- `for i := fromMsgNum; i < toMsgNum; i++` runs `toMsgNum - fromMsgNum` times, or never
    let stored := storeSkipped dhPublicKey (toMsgNum.toNat - fromMsgNum.toNat) fromMsgNum
      s.receivingChainKey s.skippedMessageKeys
    ({ s with receivingChainKey := stored.1, skippedMessageKeys := stored.2 }, .ok ())

/-! ## Ratchet steps -/

/-- `DHRatchet` up to the key generation: the receiving half. -/
def dhRatchetReceive (s : RatchetState K) (remoteDHPublic : DHPublicKey) : RatchetState K :=
  let derived := K.kdfRK s.rootKey (K.dh s.dhSendingPrivate remoteDHPublic)
  { s with
    previousChainLen := s.sendingMsgNum
    sendingMsgNum := 0
    receivingMsgNum := 0
    dhReceivingPublic := remoteDHPublic
    rootKey := derived.1
    receivingChainKey := derived.2 }

/-- `DHRatchet` from the key generation on: the sending half, with the new key pair. -/
def dhRatchetSend (s : RatchetState K) (newPrivate : DHPrivateKey) (newPublic : DHPublicKey) :
    RatchetState K :=
  let derived := K.kdfRK s.rootKey (K.dh newPrivate s.dhReceivingPublic)
  { s with
    dhSendingPrivate := newPrivate
    dhSendingPublic := newPublic
    rootKey := derived.1
    sendingChainKey := derived.2 }

/-- `DHRatchet`. When the key generation fails the receiving half has already happened. -/
def dhRatchet (s : RatchetState K) (remoteDHPublic : DHPublicKey)
    (rand : RandomKey) : RatchetState K × Except String Unit :=
  let s₁ := dhRatchetReceive s remoteDHPublic
  match K.generateDHKeyPair rand with
  | .error e => (s₁, .error e)
  | .ok (newPrivate, newPublic) => (dhRatchetSend s₁ newPrivate newPublic, .ok ())

/-- The message key that `RatchetEncrypt` hands to `aesEncrypt`. -/
def RatchetState.sendingKey (s : RatchetState K) : K.MessageKey := K.messageKeyOf s.sendingChainKey

/-- The header that `RatchetEncrypt` writes. -/
def RatchetState.nextHeader (s : RatchetState K) : MessageHeader :=
  { dhPublicKey := s.dhSendingPublic
    previousChainLen := s.previousChainLen
    messageNum := s.sendingMsgNum }

/-- The state that `RatchetEncrypt` leaves, whether or not `aesEncrypt` fails. -/
def RatchetState.advanceSending (s : RatchetState K) : RatchetState K :=
  { s with
    sendingChainKey := K.nextChainKey s.sendingChainKey
    sendingMsgNum := s.sendingMsgNum + 1 }

/-- `RatchetEncrypt`: the encoded header and the ciphertext. -/
def ratchetEncrypt (s : RatchetState K) (plaintext : Bytes) (aesEncrypt : K.Cipher) :
    RatchetState K × Except String (Bytes × Bytes) :=
  match aesEncrypt plaintext s.sendingKey with
  | .error e => (s.advanceSending, .error e)
  | .ok ciphertext => (s.advanceSending, .ok (s.nextHeader.encode, ciphertext))

/-- `RatchetDecrypt` from the second skip to the call of `aesDecrypt`. -/
def takeMessageKey (s : RatchetState K) (header : MessageHeader) :
    RatchetState K × Except String K.MessageKey :=
  let skipped :=
    if s.receivingMsgNum < header.messageNum then
      skipMessageKeys s header.dhPublicKey s.receivingMsgNum header.messageNum
    else (s, .ok ())
  match skipped with
  | (s₁, .error e) => (s₁, .error e)
  | (s₁, .ok ()) =>
    let keyID := header.keyID
    match s₁.skippedMessageKeys.lookup keyID with
    | some messageKey =>
      ({ s₁ with skippedMessageKeys := s₁.skippedMessageKeys.erase keyID }, .ok messageKey)
    | none =>
      ({ s₁ with
          receivingChainKey := K.nextChainKey s₁.receivingChainKey
          receivingMsgNum := s₁.receivingMsgNum + 1 },
        .ok (K.messageKeyOf s₁.receivingChainKey))

/-- `RatchetDecrypt` up to the call of `aesDecrypt`: the state it leaves and the message
key it hands over. -/
def receivingKey (s : RatchetState K) (headerBytes : Bytes)
    (rand : RandomKey) : RatchetState K × Except String K.MessageKey :=
  match MessageHeader.decode headerBytes with
  | .error e => (s, .error e)
  | .ok header =>
    if header.dhPublicKey ≠ s.dhReceivingPublic then
      match skipMessageKeys s s.dhReceivingPublic s.receivingMsgNum header.previousChainLen with
      | (s₁, .error e) => (s₁, .error e)
      | (s₁, .ok ()) =>
        match dhRatchet s₁ header.dhPublicKey rand with
        | (s₂, .error e) => (s₂, .error e)
        | (s₂, .ok ()) => takeMessageKey s₂ header
    else takeMessageKey s header

def ratchetDecrypt (s : RatchetState K) (headerBytes ciphertext : Bytes) (rand : RandomKey)
    (aesDecrypt : K.Cipher) :
    RatchetState K × Except String Bytes :=
  match receivingKey s headerBytes rand with
  | (s', .error e) => (s', .error e)
  | (s', .ok messageKey) => (s', aesDecrypt ciphertext messageKey)

/-! ## What the skip loop stores -/

variable (dhPublicKey : DHPublicKey)

theorem storeSkipped_chainKey (n : Nat) (i : UInt32) (chainKey : K.ChainKey)
    (skipped : SkippedKeys K) :
    (storeSkipped dhPublicKey n i chainKey skipped).1 = K.chainAt chainKey n := by
  induction n generalizing i chainKey skipped with
  | zero => rfl
  | succ n ih => exact ih _ _ _

variable {id : MessageKeyID}

theorem lookup_storeSkipped_other {dhPublicKey : DHPublicKey} (hne : id.dhPublicKey ≠ dhPublicKey)
    (n : Nat) (i : UInt32) (chainKey : K.ChainKey) (skipped : SkippedKeys K) :
    (storeSkipped dhPublicKey n i chainKey skipped).2.lookup id = skipped.lookup id := by
  induction n generalizing i chainKey skipped with
  | zero => rfl
  | succ n ih =>
    rw [storeSkipped, ih]
    exact Finmap.lookup_insert_of_ne _ fun h => hne (congrArg MessageKeyID.dhPublicKey h)

theorem storeSkipped_succ (n : Nat) (i : UInt32) (chainKey : K.ChainKey) (skipped : SkippedKeys K) :
    (storeSkipped dhPublicKey (n + 1) i chainKey skipped).2 =
      (storeSkipped dhPublicKey n i chainKey skipped).2.insert ⟨dhPublicKey, i + UInt32.ofNat n⟩
        (K.keyAt chainKey n) := by
  induction n generalizing i chainKey skipped with
  | zero => simp [storeSkipped]; rfl
  | succ n ih =>
    have hnum : i + 1 + ofNat n = i + ofNat (n + 1) := by
      rw [UInt32.ofNat_add, UInt32.add_assoc, UInt32.add_comm 1]
      rfl
    rw [storeSkipped, ih, hnum]
    rfl

theorem lookup_storeSkipped (j : UInt32) {n : Nat} {i : UInt32} (hn : i.toNat + n ≤ 2 ^ 32)
    (chainKey : K.ChainKey) (skipped : SkippedKeys K) :
    (storeSkipped dhPublicKey n i chainKey skipped).2.lookup ⟨dhPublicKey, j⟩ =
      if i.toNat ≤ j.toNat ∧ j.toNat < i.toNat + n then
        some (K.keyAt chainKey (j.toNat - i.toNat))
      else skipped.lookup ⟨dhPublicKey, j⟩ := by
  induction n with
  | zero => rw [if_neg (by omega)]; rfl
  | succ n ih =>
    have hlast : (i + ofNat n).toNat = i.toNat + n := toNat_add_ofNat (by omega)
    rw [storeSkipped_succ]
    by_cases hj : j = i + ofNat n
    · rw [hj, Finmap.lookup_insert, hlast, if_pos (by omega), Nat.add_sub_cancel_left]
    · have hne : j.toNat ≠ i.toNat + n := fun h => hj (UInt32.toNat_inj.mp (h.trans hlast.symm))
      rw [Finmap.lookup_insert_of_ne _ fun h => hj (congrArg MessageKeyID.messageNum h),
        ih (by omega)]
      exact if_congr (by omega) rfl rfl

theorem skipsTooMany_iff {fromMsgNum toMsgNum : UInt32} (h : fromMsgNum ≤ toMsgNum) :
    SkipsTooMany fromMsgNum toMsgNum ↔ 1000 < toMsgNum.toNat - fromMsgNum.toNat := by
  rw [SkipsTooMany, UInt32.lt_iff_toNat_lt, UInt32.toNat_sub_of_le _ _ h]
  rfl

/-- `s'` is `s` after `d` steps of the receiving chain, whose message keys were stored under the
numbers from `fromMsgNum` on. -/
structure RatchetState.Skipped (s s' : RatchetState K) (dhPublicKey : DHPublicKey)
    (fromMsgNum : UInt32) (d : Nat) : Prop where
  stored : ∀ j < d, s'.skippedMessageKeys.lookup ⟨dhPublicKey, fromMsgNum + UInt32.ofNat j⟩ =
    some (K.keyAt s.receivingChainKey j)
  kept : ∀ id, (∀ j < d, id ≠ ⟨dhPublicKey, fromMsgNum + UInt32.ofNat j⟩) →
    s'.skippedMessageKeys.lookup id = s.skippedMessageKeys.lookup id
  fields : s' = { s with
    receivingChainKey := K.chainAt s.receivingChainKey d
    skippedMessageKeys := s'.skippedMessageKeys }

/-- What `SkipMessageKeys` does for any two numbers. When they are in the wrong order and the
wrapped difference is small, it succeeds and stores nothing. -/
theorem skipMessageKeys_spec (s : RatchetState K) (dhPublicKey : DHPublicKey)
    (fromMsgNum toMsgNum : UInt32) :
    if 1000 < ((toMsgNum.toNat : Int) - fromMsgNum.toNat) % 2 ^ 32 then
      ∃ e, skipMessageKeys s dhPublicKey fromMsgNum toMsgNum = (s, .error e)
    else ∃ s', skipMessageKeys s dhPublicKey fromMsgNum toMsgNum = (s', .ok ()) ∧
      s.Skipped s' dhPublicKey fromMsgNum (toMsgNum.toNat - fromMsgNum.toNat) := by
  have hfrom := fromMsgNum.toNat_lt
  have hto := toMsgNum.toNat_lt
  have htest : SkipsTooMany fromMsgNum toMsgNum ↔
      1000 < ((toMsgNum.toNat : Int) - fromMsgNum.toNat) % 2 ^ 32 := by
    rw [SkipsTooMany, UInt32.lt_iff_toNat_lt, UInt32.toNat_sub, show maxSkip.toNat = 1000 from rfl]
    omega
  split
  · next hmany => exact ⟨_, by rw [skipMessageKeys, if_pos (htest.mpr hmany)]⟩
  · next hfew =>
    refine ⟨_, by rw [skipMessageKeys, if_neg (htest.not.mpr hfew)], fun j hj => ?_, ?_, ?_⟩
    · rw [lookup_storeSkipped _ _ (by omega), toNat_add_ofNat (by omega), if_pos (by omega),
        Nat.add_sub_cancel_left]
    · rintro ⟨dh, num⟩ hother
      by_cases hdh : dh = dhPublicKey
      · subst hdh
        rw [lookup_storeSkipped _ _ (by omega), if_neg]
        intro hin
        refine hother (num.toNat - fromMsgNum.toNat) (by omega) ?_
        congr 1
        rw [← UInt32.toNat_inj, toNat_add_ofNat (by omega)]
        omega
      · exact lookup_storeSkipped_other hdh _ _ _ _
    · rw [storeSkipped_chainKey]

/-! ## What decryption does to the state -/

def RatchetState.ahead (s : RatchetState K) (messageNum : UInt32) : Nat :=
  messageNum.toNat - s.receivingMsgNum.toNat

def RatchetState.skipTo (s : RatchetState K) (dhPublicKey : DHPublicKey) (messageNum : UInt32) :
    RatchetState K :=
  { s with
    receivingChainKey := K.chainAt s.receivingChainKey (s.ahead messageNum)
    skippedMessageKeys := (storeSkipped dhPublicKey (s.ahead messageNum) s.receivingMsgNum
      s.receivingChainKey s.skippedMessageKeys).2 }

def RatchetState.ratchetTo (s : RatchetState K) (header : MessageHeader)
    (newPrivate : DHPrivateKey) : RatchetState K :=
  dhRatchetSend
    (dhRatchetReceive (s.skipTo s.dhReceivingPublic header.previousChainLen) header.dhPublicKey)
    newPrivate (K.scalarBaseMult newPrivate)

def RatchetState.takeStored (s : RatchetState K) (header : MessageHeader) : RatchetState K :=
  { s.skipTo header.dhPublicKey header.messageNum with
    skippedMessageKeys :=
      (s.skipTo header.dhPublicKey header.messageNum).skippedMessageKeys.erase header.keyID }

def RatchetState.takeFresh (s : RatchetState K) (header : MessageHeader) : RatchetState K :=
  { s.skipTo header.dhPublicKey header.messageNum with
    receivingChainKey := K.chainAt s.receivingChainKey (s.ahead header.messageNum + 1)
    receivingMsgNum := s.receivingMsgNum + 1 }

/-- `RatchetDecrypt` refuses to skip up to the message. -/
def RatchetState.Refuses (s : RatchetState K) (header : MessageHeader) : Prop :=
  s.receivingMsgNum < header.messageNum ∧ SkipsTooMany s.receivingMsgNum header.messageNum

variable {s : RatchetState K} {header : MessageHeader} {headerBytes : Bytes} {messageNum : UInt32}

theorem skipMessageKeys_eq (hok : ¬ SkipsTooMany s.receivingMsgNum messageNum)
    (dhPublicKey : DHPublicKey) :
    skipMessageKeys s dhPublicKey s.receivingMsgNum messageNum =
      (s.skipTo dhPublicKey messageNum, .ok ()) := by
  rw [skipMessageKeys, if_neg hok]
  simp only [storeSkipped_chainKey]
  rfl

theorem skipTo_of_le (hle : messageNum ≤ s.receivingMsgNum) (dhPublicKey : DHPublicKey) :
    s.skipTo dhPublicKey messageNum = s := by
  have hahead : s.ahead messageNum = 0 := Nat.sub_eq_zero_of_le (le_iff_toNat_le.mp hle)
  simp only [RatchetState.skipTo, hahead]
  rfl

/-- Skipping stores the keys from the counter up to, and without, the message. -/
theorem lookup_skipTo (s : RatchetState K) (dhPublicKey : DHPublicKey) (messageNum j : UInt32) :
    (s.skipTo dhPublicKey messageNum).skippedMessageKeys.lookup ⟨dhPublicKey, j⟩ =
      if s.receivingMsgNum.toNat ≤ j.toNat ∧ j.toNat < messageNum.toNat then
        some (K.keyAt s.receivingChainKey (s.ahead j))
      else s.skippedMessageKeys.lookup ⟨dhPublicKey, j⟩ := by
  have hbound : s.receivingMsgNum.toNat + s.ahead messageNum ≤ 2 ^ 32 := by
    have := s.receivingMsgNum.toNat_lt
    have := messageNum.toNat_lt
    unfold RatchetState.ahead
    omega
  have hrange : (s.receivingMsgNum.toNat ≤ j.toNat ∧
      j.toNat < s.receivingMsgNum.toNat + s.ahead messageNum) ↔
      (s.receivingMsgNum.toNat ≤ j.toNat ∧ j.toNat < messageNum.toNat) := by
    unfold RatchetState.ahead
    omega
  exact (lookup_storeSkipped dhPublicKey j hbound _ _).trans (if_congr hrange rfl rfl)

theorem lookup_skipTo_self (s : RatchetState K) (dhPublicKey : DHPublicKey) (messageNum : UInt32) :
    (s.skipTo dhPublicKey messageNum).skippedMessageKeys.lookup ⟨dhPublicKey, messageNum⟩ =
      s.skippedMessageKeys.lookup ⟨dhPublicKey, messageNum⟩ := by
  rw [lookup_skipTo, if_neg (by omega)]

theorem lookup_skipTo_other {dhPublicKey : DHPublicKey} (hne : id.dhPublicKey ≠ dhPublicKey)
    (messageNum : UInt32) :
    (s.skipTo dhPublicKey messageNum).skippedMessageKeys.lookup id =
      s.skippedMessageKeys.lookup id :=
  lookup_storeSkipped_other hne _ _ _ _

theorem takeMessageKey_skip (hok : ¬ s.Refuses header) :
    (if s.receivingMsgNum < header.messageNum then
        skipMessageKeys s header.dhPublicKey s.receivingMsgNum header.messageNum
      else (s, .ok ())) = (s.skipTo header.dhPublicKey header.messageNum, .ok ()) := by
  by_cases hlt : s.receivingMsgNum < header.messageNum
  · rw [if_pos hlt, skipMessageKeys_eq fun hmany => hok ⟨hlt, hmany⟩]
  · rw [if_neg hlt, skipTo_of_le (UInt32.not_lt.mp hlt)]

theorem takeMessageKey_refused (h : s.Refuses header) :
    ∃ e, takeMessageKey s header = (s, .error e) := by
  simp only [takeMessageKey, if_pos h.1, skipMessageKeys, if_pos h.2]
  exact ⟨_, rfl⟩

theorem takeMessageKey_stored (hok : ¬ s.Refuses header) {key : K.MessageKey}
    (hkey : s.skippedMessageKeys.lookup header.keyID = some key) :
    takeMessageKey s header = (s.takeStored header, .ok key) := by
  have hlookup := (lookup_skipTo_self s header.dhPublicKey header.messageNum).trans hkey
  rw [takeMessageKey, takeMessageKey_skip hok]
  simp only [hlookup]
  rfl

theorem takeMessageKey_fresh (hok : ¬ s.Refuses header)
    (hkey : s.skippedMessageKeys.lookup header.keyID = none) :
    takeMessageKey s header =
      (s.takeFresh header, .ok (K.keyAt s.receivingChainKey (s.ahead header.messageNum))) := by
  have hlookup := (lookup_skipTo_self s header.dhPublicKey header.messageNum).trans hkey
  rw [takeMessageKey, takeMessageKey_skip hok, RatchetState.takeFresh, Suite.chainAt_succ]
  simp only [hlookup]
  rfl

/-- The state after the next message of the receiving chain. -/
def RatchetState.advanceReceiving (s : RatchetState K) : RatchetState K :=
  { s with
    receivingChainKey := K.nextChainKey s.receivingChainKey
    receivingMsgNum := s.receivingMsgNum + 1 }

theorem takeFresh_eq (s : RatchetState K) (header : MessageHeader) :
    s.takeFresh header =
      (s.skipTo header.dhPublicKey header.messageNum).advanceReceiving := by
  rw [RatchetState.takeFresh, K.chainAt_succ]
  rfl

theorem takeMessageKey_next (hnum : header.messageNum = s.receivingMsgNum)
    (hkey : s.skippedMessageKeys.lookup header.keyID = none) :
    takeMessageKey s header = (s.advanceReceiving, .ok (K.messageKeyOf s.receivingChainKey)) := by
  have hle : header.messageNum ≤ s.receivingMsgNum := hnum ▸ UInt32.le_refl _
  have hahead : s.ahead header.messageNum = 0 := by
    rw [hnum]
    exact Nat.sub_self _
  rw [takeMessageKey_fresh (fun href => UInt32.not_lt.mpr hle href.1) hkey,
    RatchetState.takeFresh, skipTo_of_le hle, hahead]
  rfl

theorem receivingKey_same (hdec : MessageHeader.decode headerBytes = .ok header)
    (hsame : header.dhPublicKey = s.dhReceivingPublic) (rand : RandomKey) :
    receivingKey s headerBytes rand = takeMessageKey s header := by
  simp only [receivingKey, hdec, hsame, ne_eq, not_true_eq_false, if_false]

section

variable (hdec : MessageHeader.decode headerBytes = .ok header)
  (hne : header.dhPublicKey ≠ s.dhReceivingPublic)

include hdec hne

theorem receivingKey_refused (hmany : SkipsTooMany s.receivingMsgNum header.previousChainLen)
    (rand : RandomKey) : ∃ e, receivingKey s headerBytes rand = (s, .error e) := by
  simp only [receivingKey, hdec, ne_eq, hne, not_false_eq_true, if_true, skipMessageKeys,
    if_pos hmany]
  exact ⟨_, rfl⟩

theorem receivingKey_ratchet (hok : ¬ SkipsTooMany s.receivingMsgNum header.previousChainLen)
    (newPrivate : DHPrivateKey) :
    receivingKey s headerBytes (.ok newPrivate) =
      takeMessageKey (s.ratchetTo header newPrivate) header := by
  simp only [receivingKey, hdec, ne_eq, hne, not_false_eq_true, if_true, skipMessageKeys_eq hok]
  rfl

theorem receivingKey_interrupted (hok : ¬ SkipsTooMany s.receivingMsgNum header.previousChainLen)
    (e : String) :
    receivingKey s headerBytes (.error e) =
      (dhRatchetReceive (s.skipTo s.dhReceivingPublic header.previousChainLen) header.dhPublicKey,
        .error e) := by
  simp only [receivingKey, hdec, ne_eq, hne, not_false_eq_true, if_true, skipMessageKeys_eq hok]
  rfl

end

/-- Everything that `RatchetDecrypt` can do from the second skip on. -/
theorem takeMessageKey_cases (s : RatchetState K) (header : MessageHeader) :
    (s.Refuses header ∧ ∃ e, takeMessageKey s header = (s, .error e)) ∨
    (¬ s.Refuses header ∧
      ∃ key, s.skippedMessageKeys.lookup header.keyID = some key ∧
        takeMessageKey s header = (s.takeStored header, .ok key)) ∨
    (¬ s.Refuses header ∧
      s.skippedMessageKeys.lookup header.keyID = none ∧
      takeMessageKey s header =
        (s.takeFresh header, .ok (K.keyAt s.receivingChainKey (s.ahead header.messageNum)))) := by
  by_cases href : s.Refuses header
  · exact .inl ⟨href, takeMessageKey_refused href⟩
  · cases hkey : s.skippedMessageKeys.lookup header.keyID with
    | some key => exact .inr (.inl ⟨href, key, rfl, takeMessageKey_stored href hkey⟩)
    | none => exact .inr (.inr ⟨href, rfl, takeMessageKey_fresh href hkey⟩)

/-- Before that it refuses the header, fails in the middle of the DH ratchet, or goes on from the
state itself or the ratcheted one. -/
theorem receivingKey_cases (s : RatchetState K) (headerBytes : Bytes) (rand : RandomKey) :
    (∃ e, receivingKey s headerBytes rand = (s, .error e) ∧
      ∀ header, MessageHeader.decode headerBytes = .ok header →
        header.dhPublicKey ≠ s.dhReceivingPublic ∧
        SkipsTooMany s.receivingMsgNum header.previousChainLen) ∨
    (∃ header, MessageHeader.decode headerBytes = .ok header ∧
      header.dhPublicKey = s.dhReceivingPublic ∧
      receivingKey s headerBytes rand = takeMessageKey s header) ∨
    (∃ header, MessageHeader.decode headerBytes = .ok header ∧
      header.dhPublicKey ≠ s.dhReceivingPublic ∧
      ¬ SkipsTooMany s.receivingMsgNum header.previousChainLen ∧
      ((∃ e, rand = .error e ∧ receivingKey s headerBytes rand =
          (dhRatchetReceive (s.skipTo s.dhReceivingPublic header.previousChainLen)
            header.dhPublicKey, .error e)) ∨
        ∃ newPrivate, rand = .ok newPrivate ∧ receivingKey s headerBytes rand =
          takeMessageKey (s.ratchetTo header newPrivate) header)) := by
  cases hdec : MessageHeader.decode headerBytes with
  | error e =>
    refine .inl ⟨e, ?_, fun _ h => nomatch h⟩
    simp only [receivingKey, hdec]
  | ok header =>
    by_cases hsame : header.dhPublicKey = s.dhReceivingPublic
    · exact .inr (.inl ⟨header, rfl, hsame, receivingKey_same hdec hsame rand⟩)
    · by_cases hmany : SkipsTooMany s.receivingMsgNum header.previousChainLen
      · obtain ⟨e, he⟩ := receivingKey_refused hdec hsame hmany rand
        exact .inl ⟨e, he, fun _ h => Except.ok.inj h ▸ ⟨hsame, hmany⟩⟩
      · refine .inr (.inr ⟨header, rfl, hsame, hmany, ?_⟩)
        cases rand with
        | error e => exact .inl ⟨e, rfl, receivingKey_interrupted hdec hsame hmany e⟩
        | ok newPrivate =>
          exact .inr ⟨newPrivate, rfl, receivingKey_ratchet hdec hsame hmany newPrivate⟩

theorem ratchetDecrypt_state (s : RatchetState K) (headerBytes ciphertext : Bytes)
    (rand : RandomKey) (aesDecrypt : K.Cipher) :
    (ratchetDecrypt s headerBytes ciphertext rand aesDecrypt).1 =
      (receivingKey s headerBytes rand).1 := by
  unfold ratchetDecrypt
  split <;> simp [*]

end Zentalk
