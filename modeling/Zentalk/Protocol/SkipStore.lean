import Mathlib.Data.Finset.Image
import Mathlib.Order.Interval.Finset.Nat
import Zentalk.Lib.Run
import Zentalk.Protocol.Ratchet

/-!
# How many message keys a session stores

`SkipMessageKeys` limits what one call stores, and nothing removes a key but its use
(`skipped_bounded_iff`).
-/

namespace Zentalk

open Wire Runs Finmap ByteArr UInt32 RatchetState MessageHeader Nat

variable {K : Suite}

/-! ## What a header skips -/

def skipRange (dhPublicKey : DHPublicKey) (fromMsgNum toMsgNum : UInt32) : Finset MessageKeyID :=
  (Finset.Ico fromMsgNum.toNat toMsgNum.toNat).image fun i => ⟨dhPublicKey, UInt32.ofNat i⟩

/-- `RatchetDecrypt` refuses to skip from this number of the chain to the message. -/
def RefusesFrom (receivingMsgNum : UInt32) (header : MessageHeader) : Prop :=
  receivingMsgNum < header.messageNum ∧ SkipsTooMany receivingMsgNum header.messageNum

instance (receivingMsgNum : UInt32) (header : MessageHeader) :
    Decidable (RefusesFrom receivingMsgNum header) :=
  inferInstanceAs (Decidable (_ ∧ _))

/-- What the second skip of `RatchetDecrypt` stores. -/
def skippedFrom (receivingMsgNum : UInt32) (header : MessageHeader) : Finset MessageKeyID :=
  if RefusesFrom receivingMsgNum header then ∅
  else skipRange header.dhPublicKey receivingMsgNum header.messageNum

def spentFrom (receivingMsgNum : UInt32) (header : MessageHeader) : Finset MessageKeyID :=
  if RefusesFrom receivingMsgNum header then ∅
  else {header.keyID}

namespace RatchetState

/-- What `RatchetDecrypt` stores for a header. -/
def skippedBy (s : RatchetState K) (header : MessageHeader) (rand : RandomKey) :
    Finset MessageKeyID :=
  if header.dhPublicKey = s.dhReceivingPublic then skippedFrom s.receivingMsgNum header
  else if SkipsTooMany s.receivingMsgNum header.previousChainLen then ∅
  else skipRange s.dhReceivingPublic s.receivingMsgNum header.previousChainLen ∪
    match rand with
    | .error _ => ∅
    | .ok _ => skippedFrom 0 header

/-- What `RatchetDecrypt` uses for a header, if it is stored. -/
def spentBy (s : RatchetState K) (header : MessageHeader) (rand : RandomKey) :
    Finset MessageKeyID :=
  if header.dhPublicKey = s.dhReceivingPublic then spentFrom s.receivingMsgNum header
  else if SkipsTooMany s.receivingMsgNum header.previousChainLen then ∅
  else
    match rand with
    | .error _ => ∅
    | .ok _ => spentFrom 0 header

/-- The stored keys and the skipped ones are at most 1000, without the key that is used. -/
def Fits (s : RatchetState K) (headerBytes : Bytes) (rand : RandomKey) : Prop :=
  ∀ header, MessageHeader.decode headerBytes = .ok header →
    ((s.skippedMessageKeys.keys ∪ s.skippedBy header rand) \ s.spentBy header rand).card ≤ 1000

end RatchetState

/-! ## What a call leaves -/

section

variable {id : MessageKeyID}

theorem mem_skipRange {dhPublicKey : DHPublicKey} {fromMsgNum toMsgNum : UInt32} :
    id ∈ skipRange dhPublicKey fromMsgNum toMsgNum ↔ id.dhPublicKey = dhPublicKey ∧
      fromMsgNum.toNat ≤ id.messageNum.toNat ∧ id.messageNum.toNat < toMsgNum.toNat := by
  have hto := toMsgNum.toNat_lt
  simp only [skipRange, Finset.mem_image, Finset.mem_Ico]
  constructor
  · rintro ⟨i, hi, rfl⟩
    have hnum : (ofNat i).toNat = i :=
      toNat_ofNat_of_lt' (show i < 2 ^ 32 by omega)
    exact ⟨rfl, hnum.symm ▸ hi⟩
  · rintro ⟨rfl, hi⟩
    exact ⟨id.messageNum.toNat, hi, by rw [UInt32.ofNat_toNat]⟩

theorem card_skipRange (dhPublicKey : DHPublicKey) (fromMsgNum toMsgNum : UInt32) :
    (skipRange dhPublicKey fromMsgNum toMsgNum).card = toMsgNum.toNat - fromMsgNum.toNat := by
  have hto := toMsgNum.toNat_lt
  rw [skipRange, Finset.card_image_of_injOn, card_Ico]
  intro i hi j hj heq
  have hi' := (Finset.mem_Ico.mp hi).2
  have hj' := (Finset.mem_Ico.mp hj).2
  have hnum := congrArg (fun id : MessageKeyID => id.messageNum.toNat) heq
  simpa only [toNat_ofNat_of_lt' (show i < 2 ^ 32 by omega),
    toNat_ofNat_of_lt' (show j < 2 ^ 32 by omega)] using hnum

theorem mem_keys_iff {keys : SkippedKeys K} : id ∈ keys.keys ↔ (keys.lookup id).isSome := by
  rw [mem_keys, lookup_isSome]

theorem keys_skipTo (s : RatchetState K) (dhPublicKey : DHPublicKey) (messageNum : UInt32) :
    (s.skipTo dhPublicKey messageNum).skippedMessageKeys.keys =
      s.skippedMessageKeys.keys ∪ skipRange dhPublicKey s.receivingMsgNum messageNum := by
  ext ⟨dh, j⟩
  rw [Finset.mem_union, mem_keys_iff, mem_keys_iff, mem_skipRange]
  by_cases hdh : dh = dhPublicKey
  · subst hdh
    rw [lookup_skipTo]
    split
    · next hin => simp [hin]
    · next hout => simp [hout]
  · rw [lookup_skipTo_other hdh]
    simp [hdh]

theorem skippedKeys_erase (keys : SkippedKeys K) (id : MessageKeyID) :
    (keys.erase id).keys = keys.keys \ {id} := by
  ext id'
  rw [Finset.mem_sdiff, Finset.mem_singleton, mem_keys, mem_keys, mem_erase]
  exact and_comm

theorem keys_takeMessageKey (s : RatchetState K) (header : MessageHeader) :
    (takeMessageKey s header).1.skippedMessageKeys.keys =
      (s.skippedMessageKeys.keys ∪ skippedFrom s.receivingMsgNum header) \
        spentFrom s.receivingMsgNum header := by
  obtain ⟨href, e, htake⟩ | ⟨hok, key, hkey, htake⟩ | ⟨hok, hkey, htake⟩ :=
    takeMessageKey_cases s header
  · have href' : RefusesFrom s.receivingMsgNum header := href
    rw [htake, skippedFrom, spentFrom, if_pos href', if_pos href', Finset.union_empty,
      Finset.sdiff_empty]
  · have hok' : ¬ RefusesFrom s.receivingMsgNum header := hok
    rw [htake, skippedFrom, spentFrom, if_neg hok', if_neg hok', ← keys_skipTo, ← skippedKeys_erase]
    rfl
  · have hok' : ¬ RefusesFrom s.receivingMsgNum header := hok
    have hunused : header.keyID ∉
        (s.skipTo header.dhPublicKey header.messageNum).skippedMessageKeys.keys := by
      rw [mem_keys_iff, lookup_skipTo_self, hkey]
      exact Bool.false_ne_true
    rw [htake, skippedFrom, spentFrom, if_neg hok', if_neg hok', ← keys_skipTo,
      Finset.sdiff_singleton_eq_erase, Finset.erase_eq_of_notMem hunused]
    rfl

end

/-- A call stores keys for what the header skips, except for the message itself. -/
theorem keys_receivingKey (s : RatchetState K) {headerBytes : Bytes} {header : MessageHeader}
    (hdec : MessageHeader.decode headerBytes = .ok header) (rand : RandomKey) :
    (receivingKey s headerBytes rand).1.skippedMessageKeys.keys =
      (s.skippedMessageKeys.keys ∪ s.skippedBy header rand) \ s.spentBy header rand := by
  unfold skippedBy spentBy
  by_cases hsame : header.dhPublicKey = s.dhReceivingPublic
  · rw [receivingKey_same hdec hsame, if_pos hsame, if_pos hsame]
    exact keys_takeMessageKey s header
  · rw [if_neg hsame, if_neg hsame]
    by_cases hmany : SkipsTooMany s.receivingMsgNum header.previousChainLen
    · obtain ⟨e, hkey⟩ := receivingKey_refused hdec hsame hmany rand
      rw [hkey, if_pos hmany, if_pos hmany, Finset.union_empty, Finset.sdiff_empty]
    · rw [if_neg hmany, if_neg hmany]
      cases rand with
      | error e =>
        rw [receivingKey_interrupted hdec hsame hmany, Finset.union_empty, Finset.sdiff_empty,
          ← keys_skipTo]
        rfl
      | ok newPrivate =>
        have hclosed : (s.ratchetTo header newPrivate).skippedMessageKeys.keys =
            s.skippedMessageKeys.keys ∪
              skipRange s.dhReceivingPublic s.receivingMsgNum header.previousChainLen :=
          keys_skipTo s s.dhReceivingPublic header.previousChainLen
        rw [receivingKey_ratchet hdec hsame hmany, keys_takeMessageKey, hclosed, Finset.union_assoc]
        rfl

/-! ## Sessions -/

/-- A call on a session, with what the network and `rand.Read` bring to it. -/
inductive SessionCall
  | ratchetEncrypt (plaintext : Bytes)
  | ratchetDecrypt (headerBytes ciphertext : Bytes) (rand : RandomKey)

section Sessions

variable (aesEncrypt aesDecrypt : K.Cipher)

/-- The state that a call leaves, whether or not it fails. -/
def RatchetState.after (s : RatchetState K) : SessionCall → RatchetState K
  | .ratchetEncrypt plaintext => (ratchetEncrypt s plaintext aesEncrypt).1
  | .ratchetDecrypt headerBytes ciphertext rand =>
    (ratchetDecrypt s headerBytes ciphertext rand aesDecrypt).1

def RatchetStep (s : RatchetState K) (call : SessionCall) (s' : RatchetState K) : Prop :=
  s' = s.after aesEncrypt aesDecrypt call

/-- A received header fits the store. -/
def SessionCall.Fits (s : RatchetState K) : SessionCall → Prop
  | .ratchetEncrypt _ => True
  | .ratchetDecrypt headerBytes _ rand => s.Fits headerBytes rand

/-- The store of a session holds at most `MaxSkip` keys. -/
def RatchetState.Bounded (s : RatchetState K) : Prop := s.skippedMessageKeys.keys.card ≤ 1000

theorem ratchetStep_unique (s : RatchetState K) (call : SessionCall) (s₁ s₂ : RatchetState K)
    (h₁ : RatchetStep aesEncrypt aesDecrypt s call s₁)
    (h₂ : RatchetStep aesEncrypt aesDecrypt s call s₂) : s₁ = s₂ :=
  h₁.trans h₂.symm

/-- A bounded store stays so exactly if the call fits. -/
theorem bounded_step_iff {s s' : RatchetState K} {call : SessionCall} (hbounded : s.Bounded)
    (hstep : RatchetStep aesEncrypt aesDecrypt s call s') : s'.Bounded ↔ call.Fits s := by
  obtain rfl := hstep
  cases call with
  | ratchetEncrypt plaintext =>
    have hsame : (ratchetEncrypt s plaintext aesEncrypt).1.skippedMessageKeys =
        s.skippedMessageKeys := by
      unfold ratchetEncrypt
      split <;> rfl
    refine iff_of_true ?_ trivial
    rw [Bounded, after, hsame]
    exact hbounded
  | ratchetDecrypt headerBytes ciphertext rand =>
    rw [Bounded, after, ratchetDecrypt_state]
    cases hdec : decode headerBytes with
    | error e =>
      have hsame : receivingKey s headerBytes rand = (s, .error e) := by
        simp only [receivingKey, hdec]
      rw [hsame]
      refine iff_of_true hbounded ?_
      intro header hheader
      cases hdec.symm.trans hheader
    | ok header =>
      rw [keys_receivingKey s hdec]
      constructor
      · intro hcard header' hheader
        cases hdec.symm.trans hheader
        exact hcard
      · intro hfits
        exact hfits header hdec

/-- After any sequence of calls on a new session, with authentic or forged headers, at most 1000
keys are stored after each call exactly if each received header fits. -/
theorem skipped_bounded_iff {s₀ s : RatchetState K} (hnew : s₀.skippedMessageKeys = ∅)
    {calls : List SessionCall} (hrun : Run (RatchetStep aesEncrypt aesDecrypt) s₀ calls s) :
    (∀ pre post s', calls = pre ++ post → Run (RatchetStep aesEncrypt aesDecrypt) s₀ pre s' →
      s'.skippedMessageKeys.keys.card ≤ 1000) ↔
    Guarded (RatchetStep aesEncrypt aesDecrypt) s₀ (fun _ s call => call.Fits s) calls := by
  have hstart : s₀.Bounded := by
    rw [Bounded, hnew, keys_empty, Finset.card_empty]
    exact zero_le 1000
  exact Run.always_iff_guarded
    (ratchetStep_unique aesEncrypt aesDecrypt) hstart
    (fun _ _ _ _ hbounded hstep => bounded_step_iff aesEncrypt aesDecrypt hbounded hstep) hrun

end Sessions

/-! ## Two gaps -/

/-- A session of a responder that has not received anything. -/
def quietSession : RatchetState freeSuite :=
  newRatchetStateReceiver (zero 32) (zero 32) (zero 32) (zero 20)
    (zero 20)

/-- A header of a new chain whose first messages are missing. -/
def gapHeader (chain : UInt8) (previousChainLen messageNum : UInt32) : MessageHeader :=
  ⟨ofSlice 32 [chain], previousChainLen, messageNum⟩

/-- The header arrives with a ciphertext that no key opens. -/
def gapCall (chain : UInt8) (previousChainLen messageNum : UInt32) : SessionCall :=
  .ratchetDecrypt (gapHeader chain previousChainLen messageNum).encode [] (.ok (zero 32))

/-- Every ciphertext is forged. -/
def opensNothing (_ : Bytes) (_ : freeSuite.MessageKey) : Except String Bytes :=
  .error "cipher: message authentication failed"

section

theorem spentBy_subset (s : RatchetState K) (header : MessageHeader) (rand : RandomKey) :
    s.spentBy header rand ⊆ {header.keyID} := by
  have hfrom receivingMsgNum : spentFrom receivingMsgNum header ⊆ {header.keyID} := by
    unfold spentFrom
    split
    · exact Finset.empty_subset _
    · exact Finset.Subset.refl _
  unfold spentBy
  split
  · exact hfrom _
  · split
    · exact Finset.empty_subset _
    · cases rand with
      | error e => exact Finset.empty_subset _
      | ok newPrivate => exact hfrom 0

theorem mem_keys_gapCall (s : RatchetState freeSuite) (chain : UInt8)
    (previousChainLen messageNum : UInt32) {id : MessageKeyID}
    (hne : id ≠ ⟨ofSlice 32 [chain], messageNum⟩) (hid : id ∈ s.skippedMessageKeys.keys ∪
      s.skippedBy (gapHeader chain previousChainLen messageNum) (.ok (zero 32))) :
    id ∈ (s.after opensNothing opensNothing
      (gapCall chain previousChainLen messageNum)).skippedMessageKeys.keys := by
  rw [gapCall, after, ratchetDecrypt_state, keys_receivingKey s (decode_encode _), Finset.mem_sdiff]
  refine ⟨hid, fun hspent => hne ?_⟩
  exact Finset.mem_singleton.mp (spentBy_subset _ _ _ hspent)

theorem skippedBy_gapHeader {s : RatchetState freeSuite} {chain : UInt8} (messageNum : UInt32)
    (hne : ofSlice 32 [chain] ≠ s.dhReceivingPublic) :
    s.skippedBy (gapHeader chain s.receivingMsgNum messageNum) (.ok (zero 32)) =
      skippedFrom 0 (gapHeader chain s.receivingMsgNum messageNum) := by
  have hfew : ¬ SkipsTooMany s.receivingMsgNum s.receivingMsgNum := by
    rw [skipsTooMany_iff (UInt32.le_refl _), Nat.sub_self]
    decide
  have hclosed : skipRange s.dhReceivingPublic s.receivingMsgNum s.receivingMsgNum = ∅ := by
    rw [skipRange, Finset.Ico_self, Finset.image_empty]
  have hother : ¬ (gapHeader chain s.receivingMsgNum messageNum).dhPublicKey =
      s.dhReceivingPublic := hne
  have hprevious : (gapHeader chain s.receivingMsgNum messageNum).previousChainLen =
      s.receivingMsgNum := rfl
  rw [skippedBy, if_neg hother, hprevious, if_neg hfew, hclosed, Finset.empty_union]

variable {messageNum : UInt32}

section

variable (hgap : messageNum.toNat ≤ 1000)

include hgap

theorem not_refusesFrom_gapHeader (chain : UInt8) (previousChainLen : UInt32) :
    ¬ RefusesFrom 0 (gapHeader chain previousChainLen messageNum) := by
  rintro ⟨hlt, hmany⟩
  have hmany' := (skipsTooMany_iff (UInt32.le_of_lt hlt)).mp hmany
  exact not_lt.mpr ((sub_le _ _).trans hgap) hmany'

theorem skippedFrom_gapHeader (chain : UInt8) (previousChainLen : UInt32) :
    skippedFrom 0 (gapHeader chain previousChainLen messageNum) =
      skipRange (ofSlice 32 [chain]) 0 messageNum :=
  if_neg (not_refusesFrom_gapHeader hgap chain previousChainLen)

theorem skippedBy_quietSession :
    quietSession.skippedBy (gapHeader 1 0 messageNum) (.ok (zero 32)) =
      skipRange (ofSlice 32 [1]) 0 messageNum := by
  rw [← skippedFrom_gapHeader hgap 1 0]
  exact skippedBy_gapHeader messageNum (by decide)

theorem fits_quietSession : (gapCall 1 0 messageNum).Fits quietSession := by
  intro header hdec
  rw [decode_encode] at hdec
  cases hdec
  have hempty : quietSession.skippedMessageKeys.keys = ∅ := rfl
  have hcard : (skipRange (ofSlice 32 [1]) 0 messageNum).card ≤ 1000 := by
    rw [card_skipRange]
    exact (sub_le _ _).trans hgap
  rw [hempty, Finset.empty_union, skippedBy_quietSession hgap]
  exact (Finset.card_le_card Finset.sdiff_subset).trans hcard

theorem after_gapCall :
    (quietSession.after opensNothing opensNothing (gapCall 1 0 messageNum)).receivingMsgNum = 1 ∧
    (quietSession.after opensNothing opensNothing (gapCall 1 0 messageNum)).dhReceivingPublic =
      ofSlice 32 [1] := by
  have hok : ¬ (quietSession.ratchetTo (gapHeader 1 0 messageNum) (zero 32)).Refuses
      (gapHeader 1 0 messageNum) := not_refusesFrom_gapHeader hgap 1 0
  have hne : (gapHeader 1 0 messageNum).dhPublicKey ≠ quietSession.dhReceivingPublic :=
    show ofSlice 32 [1] ≠ zero 32 by decide
  have hfew : ¬ SkipsTooMany quietSession.receivingMsgNum
      (gapHeader 1 0 messageNum).previousChainLen := show ¬ SkipsTooMany 0 0 by decide
  have hstate : quietSession.after opensNothing opensNothing (gapCall 1 0 messageNum) =
      (quietSession.ratchetTo (gapHeader 1 0 messageNum) (zero 32)).takeFresh
        (gapHeader 1 0 messageNum) := by
    rw [gapCall, after, ratchetDecrypt_state,
      receivingKey_ratchet (decode_encode _) hne hfew, takeMessageKey_fresh hok rfl]
  rw [hstate]
  exact ⟨rfl, rfl⟩

theorem first_stored (hpos : messageNum ≠ 0) :
    (⟨ofSlice 32 [1], 0⟩ : MessageKeyID) ∈ (quietSession.after opensNothing
      opensNothing (gapCall 1 0 messageNum)).skippedMessageKeys.keys := by
  refine mem_keys_gapCall quietSession 1 0 messageNum ?_ (Finset.mem_union_right _ ?_)
  · intro heq
    exact hpos (congrArg MessageKeyID.messageNum heq).symm
  · rw [skippedBy_quietSession hgap, mem_skipRange]
    exact ⟨rfl, zero_le _, UInt32.pos_iff_ne_zero.mpr hpos⟩

end

theorem overflow_of_gaps (hgap : messageNum.toNat = 1000) :
    ∃ s, Run (RatchetStep opensNothing opensNothing) quietSession
      [gapCall 1 0 messageNum, gapCall 2 1 messageNum] s ∧
      ¬ s.skippedMessageKeys.keys.card ≤ 1000 := by
  obtain ⟨hnum, hdh⟩ := after_gapCall hgap.le
  have hpos : messageNum ≠ 0 := by
    rintro rfl
    cases hgap
  have hfirst := first_stored hgap.le hpos
  obtain ⟨s, hstate⟩ : ∃ s, s =
      quietSession.after opensNothing opensNothing (gapCall 1 0 messageNum) := ⟨_, rfl⟩
  rw [← hstate] at hnum hdh hfirst
  have hrun : Run (RatchetStep opensNothing opensNothing) quietSession
      ([gapCall 1 0 messageNum] ++ [gapCall 2 1 messageNum]) _ := (Run.nil.snoc hstate).snoc rfl
  have hskipped : s.skippedBy (gapHeader 2 1 messageNum) (.ok (zero 32)) =
      skipRange (ofSlice 32 [2]) 0 messageNum := by
    rw [← skippedFrom_gapHeader hgap.le 2 1, ← hnum]
    exact skippedBy_gapHeader messageNum (by rw [hdh]; decide)
  have hsubset : insert ⟨ofSlice 32 [1], 0⟩
      (skipRange (ofSlice 32 [2]) 0 messageNum) ⊆
      (s.after opensNothing opensNothing (gapCall 2 1 messageNum)).skippedMessageKeys.keys := by
    intro id hid
    rcases Finset.mem_insert.mp hid with rfl | hrange
    · refine mem_keys_gapCall s 2 1 messageNum ?_ (Finset.mem_union_left _ hfirst)
      intro heq
      have hchain : ofSlice 32 [1] = ofSlice 32 [2] :=
        congrArg MessageKeyID.dhPublicKey heq
      exact absurd hchain (by decide)
    · refine mem_keys_gapCall s 2 1 messageNum ?_ (Finset.mem_union_right _ (hskipped ▸ hrange))
      rintro rfl
      exact lt_irrefl _ (mem_skipRange.mp hrange).2.2
  have hcard : (insert ⟨ofSlice 32 [1], 0⟩
      (skipRange (ofSlice 32 [2]) 0 messageNum) : Finset MessageKeyID).card = 1001 := by
    rw [Finset.card_insert_of_notMem, card_skipRange, hgap]
    · rfl
    · intro hmem
      exact absurd (mem_skipRange.mp hmem).1 (by decide)
  refine ⟨_, hrun, not_le.mpr ?_⟩
  exact (lt_of_lt_of_eq (by decide) hcard.symm).trans_le (Finset.card_le_card hsubset)

end

theorem skipped_bounded_gap : ∃ s, Run (RatchetStep opensNothing opensNothing) quietSession
    [gapCall 1 0 1000] s ∧ s.skippedMessageKeys.keys.card ≤ 1000 := by
  have hrun : Run (RatchetStep opensNothing opensNothing) quietSession ([] ++ [gapCall 1 0 1000])
      _ := Run.nil.snoc rfl
  have hguard : Guarded (RatchetStep opensNothing opensNothing) quietSession
      (fun _ s call => call.Fits s) ([] ++ [gapCall 1 0 1000]) :=
    Guarded.nil.snoc_of_run (ratchetStep_unique _ _) Run.nil (fits_quietSession le_rfl)
  exact ⟨_, hrun, (skipped_bounded_iff opensNothing opensNothing rfl hrun).mpr hguard _ [] _
    (List.append_nil _).symm hrun⟩

/-- Two forged headers make a new session store more than 1000 keys. -/
theorem skipped_overflow : quietSession.skippedMessageKeys = ∅ ∧
    ∃ s, Run (RatchetStep opensNothing opensNothing) quietSession
      [gapCall 1 0 1000, gapCall 2 1 1000] s ∧ ¬ s.skippedMessageKeys.keys.card ≤ 1000 :=
  ⟨rfl, overflow_of_gaps rfl⟩

end Zentalk
