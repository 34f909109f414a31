import Zentalk.Exchange.Duplex

/-!
# Failed and late deliveries

A late message never both decrypts and leaves the session alone.

Results:
1. `error_keeps_state_iff`: when an error leaves it alone.
2. `late_delivery`: what a message of an older chain does.
-/

namespace Zentalk

open Wire RatchetState MessageHeader

variable {K : Suite}

/-- `RatchetDecrypt` turns the message away before it changes anything. -/
inductive Rejects (s : RatchetState K) (headerBytes : Bytes) : Prop
  | malformed : headerBytes.length < 40 → Rejects s headerBytes
  | gapBefore {header : MessageHeader} : MessageHeader.decode headerBytes = .ok header →
      header.dhPublicKey ≠ s.dhReceivingPublic →
      SkipsTooMany s.receivingMsgNum header.previousChainLen → Rejects s headerBytes
  | gapWithin {header : MessageHeader} : MessageHeader.decode headerBytes = .ok header →
      header.dhPublicKey = s.dhReceivingPublic → s.Refuses header → Rejects s headerBytes

/-- The key for this header: the stored one, or the one of the current or of a new chain. -/
def keyFor (s : RatchetState K) (header : MessageHeader) : K.MessageKey :=
  (s.skippedMessageKeys.lookup header.keyID).getD
    (if header.dhPublicKey = s.dhReceivingPublic then
      K.keyAt s.receivingChainKey (s.ahead header.messageNum)
    else
      K.keyAt (K.kdfRK s.rootKey (K.dh s.dhSendingPrivate header.dhPublicKey)).2
        header.messageNum.toNat)

/-- The header passes the checks up to the call of `aesDecrypt`. -/
def Reaches (s : RatchetState K) (header : MessageHeader) (rand : RandomKey) : Prop :=
  (header.dhPublicKey = s.dhReceivingPublic ∧ ¬ s.Refuses header) ∨
  (header.dhPublicKey ≠ s.dhReceivingPublic ∧
    ¬ SkipsTooMany s.receivingMsgNum header.previousChainLen ∧
    header.messageNum.toNat ≤ 1000 ∧ ∃ newPrivate, rand = .ok newPrivate)

/-- The message reaches `aesDecrypt` and opens under its key. -/
def Opens (s : RatchetState K) (headerBytes ciphertext : Bytes) (rand : RandomKey)
    (aesDecrypt : K.Cipher) : Prop :=
  ∃ header plaintext, MessageHeader.decode headerBytes = .ok header ∧ Reaches s header rand ∧
    aesDecrypt ciphertext (keyFor s header) = .ok plaintext

section

theorem decode_error_iff (headerBytes : Bytes) :
    (∃ e, MessageHeader.decode headerBytes = .error e) ↔ headerBytes.length < 40 := by
  unfold decode
  split
  · next h => exact ⟨fun _ => h, fun _ => ⟨_, rfl⟩⟩
  · next h => exact ⟨fun ⟨_, he⟩ => (nomatch he), fun hlt => absurd hlt h⟩

/-! ## The state -/

variable {s : RatchetState K} {header : MessageHeader} {headerBytes : Bytes}

theorem takeStored_ne {key : K.MessageKey}
    (hkey : s.skippedMessageKeys.lookup header.keyID = some key) :
    s.takeStored header ≠ s := by
  intro heq
  have hlookup := congrArg (fun t => t.skippedMessageKeys.lookup
    header.keyID) heq
  simp only [takeStored, Finmap.lookup_erase, hkey] at hlookup
  cases hlookup

theorem takeFresh_ne (s : RatchetState K) (header : MessageHeader) : s.takeFresh header ≠ s := by
  intro heq
  have hnum : s.receivingMsgNum + 1 = s.receivingMsgNum :=
    congrArg receivingMsgNum heq
  exact absurd (UInt32.add_eq_left.mp hnum) (by decide)

theorem takeMessageKey_kept_iff (s : RatchetState K) (header : MessageHeader) :
    (takeMessageKey s header).1 = s ↔ s.Refuses header := by
  obtain ⟨href, e, h⟩ | ⟨href, key, hkey, h⟩ | ⟨href, -, h⟩ := takeMessageKey_cases s header
  · rw [h]
    exact ⟨fun _ => href, fun _ => rfl⟩
  · rw [h]
    exact ⟨fun heq => absurd heq (takeStored_ne hkey), fun h => absurd h href⟩
  · rw [h]
    exact ⟨fun heq => absurd heq (takeFresh_ne s header), fun h => absurd h href⟩

theorem takeMessageKey_dhReceiving (s : RatchetState K) (header : MessageHeader) :
    (takeMessageKey s header).1.dhReceivingPublic = s.dhReceivingPublic := by
  obtain ⟨-, e, h⟩ | ⟨-, key, -, h⟩ | ⟨-, -, h⟩ := takeMessageKey_cases s header <;>
    rw [h] <;> rfl

theorem receivingKey_dhReceiving (hdec : MessageHeader.decode headerBytes = .ok header)
    (hne : header.dhPublicKey ≠ s.dhReceivingPublic)
    (hfew : ¬ SkipsTooMany s.receivingMsgNum header.previousChainLen) (rand : RandomKey) :
    (receivingKey s headerBytes rand).1.dhReceivingPublic = header.dhPublicKey := by
  cases rand with
  | error e =>
    rw [receivingKey_interrupted hdec hne hfew]
    rfl
  | ok newPrivate =>
    rw [receivingKey_ratchet hdec hne hfew, takeMessageKey_dhReceiving]
    rfl

theorem rejects_result (h : Rejects s headerBytes) (ciphertext : Bytes)
    (rand : RandomKey) (aesDecrypt : K.Cipher) :
    ∃ e, ratchetDecrypt s headerBytes ciphertext rand aesDecrypt = (s, .error e) := by
  have hkey : ∃ e, receivingKey s headerBytes rand = (s, .error e) := by
    cases h with
    | malformed hshort =>
      obtain ⟨e, hdec⟩ := (decode_error_iff headerBytes).mpr hshort
      refine ⟨e, ?_⟩
      simp only [receivingKey, hdec]
    | gapBefore hdec hne hmany => exact receivingKey_refused hdec hne hmany rand
    | gapWithin hdec hsame href =>
      rw [receivingKey_same hdec hsame]
      exact takeMessageKey_refused href
  obtain ⟨e, he⟩ := hkey
  rw [ratchetDecrypt, he]
  exact ⟨e, rfl⟩

theorem state_kept_iff (s : RatchetState K) (headerBytes ciphertext : Bytes) (rand : RandomKey)
    (aesDecrypt : K.Cipher) :
    (ratchetDecrypt s headerBytes ciphertext rand aesDecrypt).1 = s ↔ Rejects s headerBytes := by
  constructor
  · intro hkept
    rw [ratchetDecrypt_state] at hkept
    cases hdec : decode headerBytes with
    | error e => exact .malformed ((decode_error_iff headerBytes).mp ⟨e, hdec⟩)
    | ok header =>
      by_cases hsame : header.dhPublicKey = s.dhReceivingPublic
      · rw [receivingKey_same hdec hsame, takeMessageKey_kept_iff] at hkept
        exact .gapWithin hdec hsame hkept
      · by_cases hmany : SkipsTooMany s.receivingMsgNum header.previousChainLen
        · exact .gapBefore hdec hsame hmany
        · have hkey := receivingKey_dhReceiving hdec hsame hmany rand
          rw [hkept] at hkey
          exact absurd hkey.symm hsame
  · intro hrej
    obtain ⟨e, he⟩ := rejects_result hrej ciphertext rand aesDecrypt
    rw [he]

/-! ## The result -/

theorem takeMessageKey_ok_iff (s : RatchetState K) (header : MessageHeader) (key : K.MessageKey) :
    (takeMessageKey s header).2 = .ok key ↔ ¬ s.Refuses header ∧
      (s.skippedMessageKeys.lookup header.keyID).getD
        (K.keyAt s.receivingChainKey (s.ahead header.messageNum)) = key := by
  obtain ⟨href, e, h⟩ | ⟨href, key', hkey, h⟩ | ⟨href, hkey, h⟩ := takeMessageKey_cases s header
  · rw [h]
    exact ⟨fun heq => (nomatch heq), fun ⟨hok, _⟩ => absurd href hok⟩
  · rw [h, hkey]
    exact ⟨fun heq => ⟨href, Except.ok.inj heq⟩, fun ⟨_, heq⟩ => congrArg _ heq⟩
  · rw [h, hkey]
    exact ⟨fun heq => ⟨href, Except.ok.inj heq⟩, fun ⟨_, heq⟩ => congrArg _ heq⟩

theorem ratchetTo_refuses_iff (s : RatchetState K) (header : MessageHeader)
    (newPrivate : DHPrivateKey) :
    (s.ratchetTo header newPrivate).Refuses header ↔ 1000 < header.messageNum.toNat := by
  have hzero : (s.ratchetTo header newPrivate).receivingMsgNum = 0 := rfl
  have hle : (0 : UInt32) ≤ header.messageNum := UInt32.le_iff_toNat_le.mpr (Nat.zero_le _)
  rw [Refuses, hzero, skipsTooMany_iff hle, UInt32.lt_iff_toNat_lt]
  show 0 < header.messageNum.toNat ∧ 1000 < header.messageNum.toNat - 0 ↔ _
  omega

/-- The skip before a ratchet stores keys of the old chain only. -/
theorem ratchetTo_lookup (hne : header.dhPublicKey ≠ s.dhReceivingPublic)
    (newPrivate : DHPrivateKey) :
    (s.ratchetTo header newPrivate).skippedMessageKeys.lookup
      header.keyID =
    s.skippedMessageKeys.lookup header.keyID :=
  lookup_skipTo_other hne _

theorem receivingKey_ok_iff (hdec : MessageHeader.decode headerBytes = .ok header)
    (rand : RandomKey) (key : K.MessageKey) :
    (receivingKey s headerBytes rand).2 = .ok key ↔
      Reaches s header rand ∧ keyFor s header = key := by
  by_cases hsame : header.dhPublicKey = s.dhReceivingPublic
  · rw [receivingKey_same hdec hsame, takeMessageKey_ok_iff, keyFor, if_pos hsame]
    refine and_congr_left fun _ => ⟨fun href => .inl ⟨hsame, href⟩, ?_⟩
    rintro (⟨-, href⟩ | ⟨hne, -⟩)
    · exact href
    · exact absurd hsame hne
  · rw [keyFor, if_neg hsame]
    by_cases hmany : SkipsTooMany s.receivingMsgNum header.previousChainLen
    · obtain ⟨e, he⟩ := receivingKey_refused hdec hsame hmany rand
      rw [he]
      constructor
      · intro hok
        cases hok
      · rintro ⟨⟨heq, -⟩ | ⟨-, hfew, -⟩, -⟩
        · exact absurd heq hsame
        · exact absurd hmany hfew
    · cases rand with
      | error e =>
        rw [receivingKey_interrupted hdec hsame hmany]
        constructor
        · intro hok
          cases hok
        · rintro ⟨⟨heq, -⟩ | ⟨-, -, -, _, hrand⟩, -⟩
          · exact absurd heq hsame
          · cases hrand
      | ok newPrivate =>
        rw [receivingKey_ratchet hdec hsame hmany, takeMessageKey_ok_iff, ratchetTo_refuses_iff,
          ratchetTo_lookup hsame, Nat.not_lt]
        refine and_congr ⟨fun hle => .inr ⟨hsame, hmany, hle, newPrivate, rfl⟩, ?_⟩ Iff.rfl
        rintro (⟨heq, -⟩ | ⟨-, -, hle, -⟩)
        · exact absurd heq hsame
        · exact hle

theorem accepts_iff (s : RatchetState K) (headerBytes ciphertext : Bytes) (rand : RandomKey)
    (aesDecrypt : K.Cipher) (plaintext : Bytes) :
    (ratchetDecrypt s headerBytes ciphertext rand aesDecrypt).2 = .ok plaintext ↔
      ∃ header, MessageHeader.decode headerBytes = .ok header ∧ Reaches s header rand ∧
        aesDecrypt ciphertext (keyFor s header) = .ok plaintext := by
  constructor
  · intro hok
    obtain ⟨key, hkey, hopen⟩ := decrypted_key hok
    cases hdec : decode headerBytes with
    | error e =>
      simp only [receivingKey, hdec] at hkey
      cases hkey
    | ok header =>
      have hres : (receivingKey s headerBytes rand).2 = .ok key := by
        cases hr : (receivingKey s headerBytes rand).2 with
        | error e =>
          rw [hr] at hkey
          cases hkey
        | ok key' =>
          rw [hr] at hkey
          exact congrArg _ (Option.some.inj hkey)
      obtain ⟨hreach, rfl⟩ := (receivingKey_ok_iff hdec rand key).mp hres
      exact ⟨header, rfl, hreach, hopen⟩
  · rintro ⟨header, hdec, hreach, hopen⟩
    have hres := (receivingKey_ok_iff hdec rand (keyFor s header)).mpr ⟨hreach, rfl⟩
    have hpair : receivingKey s headerBytes rand =
        ((receivingKey s headerBytes rand).1, .ok (keyFor s header)) := Prod.ext rfl hres
    rw [ratchetDecrypt, hpair]
    exact hopen

end

/-- An error leaves the session as it was exactly when the message was rejected before any change.
-/
theorem error_keeps_state_iff (s : RatchetState K) (headerBytes ciphertext : Bytes)
    (rand : RandomKey) (aesDecrypt : K.Cipher) :
    (∀ e, (ratchetDecrypt s headerBytes ciphertext rand aesDecrypt).2 = .error e →
      (ratchetDecrypt s headerBytes ciphertext rand aesDecrypt).1 = s) ↔
    Rejects s headerBytes ∨ Opens s headerBytes ciphertext rand aesDecrypt := by
  rw [state_kept_iff]
  constructor
  · intro hkeep
    cases hres : (ratchetDecrypt s headerBytes ciphertext rand aesDecrypt).2 with
    | error e => exact .inl (hkeep e hres)
    | ok plaintext =>
      obtain ⟨header, h⟩ := (accepts_iff _ _ _ _ _ _).mp hres
      exact .inr ⟨header, plaintext, h⟩
  · rintro (hrej | ⟨header, plaintext, h⟩) e herr
    · exact hrej
    · rw [(accepts_iff _ _ _ _ _ _).mpr ⟨header, h⟩] at herr
      cases herr

/-- A forged header replaces the root key of a fresh session. -/
theorem forged_header_changes_state : ∃ (s : RatchetState freeSuite) (e : String),
    ratchetDecrypt sampleBob (MessageHeader.mk (fill 32 8) 0 0).encode [] (.ok (fill 32 9))
      aesDecryptGCM = (s, .error e) ∧ s.rootKey ≠ sampleBob.rootKey :=
  ⟨_, _, rfl, RootTerm.noConfusion⟩

/-! ## Late messages -/

def SameButStored (s s' : RatchetState K) : Prop :=
  { s' with skippedMessageKeys := s.skippedMessageKeys } = s

/-- A message of an older chain with a stored key decrypts when the skip check on the *current*
chain passes, and then the session has gone back to the old DH key; otherwise it leaves the session
alone. It never does both. -/
theorem late_delivery {s : RatchetState K} {header : MessageHeader} {key : K.MessageKey}
    {ciphertext plaintext : Bytes} {aesDecrypt : K.Cipher}
    (hne : header.dhPublicKey ≠ s.dhReceivingPublic)
    (hkey : s.skippedMessageKeys.lookup header.keyID = some key)
    (hopen : aesDecrypt ciphertext key = .ok plaintext) (rand : RandomKey) :
    ((ratchetDecrypt s header.encode ciphertext rand aesDecrypt).2 = .ok plaintext ↔
      ¬ SkipsTooMany s.receivingMsgNum header.previousChainLen ∧
      header.messageNum.toNat ≤ 1000 ∧ ∃ newPrivate, rand = .ok newPrivate) ∧
    (SameButStored s (ratchetDecrypt s header.encode ciphertext rand aesDecrypt).1 ↔
      SkipsTooMany s.receivingMsgNum header.previousChainLen) ∧
    ¬ ((ratchetDecrypt s header.encode ciphertext rand aesDecrypt).2 = .ok plaintext ∧
      SameButStored s (ratchetDecrypt s header.encode ciphertext rand aesDecrypt).1) := by
  have hdec : decode header.encode = .ok header := decode_encode header
  have hfor : keyFor s header = key := by rw [keyFor, hkey, Option.getD_some]
  have hresult : (ratchetDecrypt s header.encode ciphertext rand aesDecrypt).2 = .ok plaintext ↔
      ¬ SkipsTooMany s.receivingMsgNum header.previousChainLen ∧
      header.messageNum.toNat ≤ 1000 ∧ ∃ newPrivate, rand = .ok newPrivate := by
    rw [accepts_iff]
    constructor
    · rintro ⟨header', hdec', hreach, -⟩
      obtain rfl := Except.ok.inj (hdec.symm.trans hdec')
      rcases hreach with ⟨hsame, -⟩ | ⟨-, h⟩
      · exact absurd hsame hne
      · exact h
    · intro h
      exact ⟨header, hdec, .inr ⟨hne, h⟩, hfor ▸ hopen⟩
  have hstate : SameButStored s (ratchetDecrypt s header.encode ciphertext rand aesDecrypt).1 ↔
      SkipsTooMany s.receivingMsgNum header.previousChainLen := by
    constructor
    · intro hsame
      by_contra hfew
      have hdh := congrArg dhReceivingPublic hsame
      rw [ratchetDecrypt_state, receivingKey_dhReceiving hdec hne hfew] at hdh
      exact hne hdh
    · intro hmany
      rw [SameButStored, (state_kept_iff s _ _ _ _).mpr (.gapBefore hdec hne hmany)]
  exact ⟨hresult, hstate, fun ⟨hok, hkept⟩ => (hresult.mp hok).1 (hstate.mp hkept)⟩

/-- The second message of the first chain is still on its way when `bob` receives the first one of
the next chain and ends in the state `b`. -/
def LateRun (alice bob : RatchetState K) (aesEncrypt : K.Cipher)
    (aesDecrypt : K.Cipher) (b : RatchetState K)
    (lateHeader lateCiphertext latePlaintext : Bytes) : Prop :=
  ∃ a₁ a₂ a₃ a₄ b₁ b₂ h₀ c₀ h₂ c₂ h₃ c₃ r₀ r₂ r₃,
    ratchetEncrypt alice [0] aesEncrypt = (a₁, .ok (h₀, c₀)) ∧
    ratchetEncrypt a₁ latePlaintext aesEncrypt = (a₂, .ok (lateHeader, lateCiphertext)) ∧
    ratchetDecrypt bob h₀ c₀ (.ok r₀) aesDecrypt = (b₁, .ok [0]) ∧
    ratchetEncrypt b₁ [2] aesEncrypt = (b₂, .ok (h₂, c₂)) ∧
    ratchetDecrypt a₂ h₂ c₂ (.ok r₂) aesDecrypt = (a₃, .ok [2]) ∧
    ratchetEncrypt a₃ [3] aesEncrypt = (a₄, .ok (h₃, c₃)) ∧
    ratchetDecrypt b₂ h₃ c₃ (.ok r₃) aesDecrypt = (b, .ok [3])

set_option maxRecDepth 10000 in
theorem late_run : ∃ (b : RatchetState freeSuite) (header : MessageHeader) (ciphertext : Bytes)
    (key : freeSuite.MessageKey),
    LateRun sampleAlice sampleBob (aesEncryptGCM (.ok (fill 12 0))) aesDecryptGCM b header.encode
      ciphertext [1] ∧
    header.dhPublicKey ≠ b.dhReceivingPublic ∧
    b.skippedMessageKeys.lookup header.keyID = some key ∧
    aesDecryptGCM ciphertext key = .ok [1] ∧
    SkipsTooMany b.receivingMsgNum header.previousChainLen := by
  refine ⟨_, ⟨fill 32 2, 0, 1⟩, _, _, ⟨_, _, _, _, _, _, _, _, _, _, _, _, fill 32 10, fill 32 11,
    fill 32 12, rfl, rfl, rfl, rfl, rfl, rfl, rfl⟩, ?_, rfl, ?_, ?_⟩
  · decide
  · rfl
  · decide

/-- The late message of that run is refused. -/
theorem late_message_lost : ∃ (b : RatchetState freeSuite) (header : MessageHeader)
    (ciphertext : Bytes) (key : freeSuite.MessageKey),
    LateRun sampleAlice sampleBob (aesEncryptGCM (.ok (fill 12 0))) aesDecryptGCM b header.encode
      ciphertext [1] ∧
    b.skippedMessageKeys.lookup header.keyID = some key ∧
    aesDecryptGCM ciphertext key = .ok [1] ∧
    ∃ e, (ratchetDecrypt b header.encode ciphertext (.ok (fill 32 13)) aesDecryptGCM).2 =
      .error e := by
  obtain ⟨b, header, ciphertext, key, hrun, hne, hkey, hopen, hmany⟩ := late_run
  obtain ⟨e, he⟩ := receivingKey_refused (decode_encode header) hne hmany
    (.ok (fill 32 13))
  refine ⟨b, header, ciphertext, key, hrun, hkey, hopen, e, ?_⟩
  rw [ratchetDecrypt, he]

theorem late_delivery_sample : ∃ (b : RatchetState freeSuite) (header : MessageHeader)
    (ciphertext : Bytes),
    LateRun sampleAlice sampleBob (aesEncryptGCM (.ok (fill 12 0))) aesDecryptGCM b header.encode
      ciphertext [1] ∧
    ¬ ((ratchetDecrypt b header.encode ciphertext (.ok (fill 32 13)) aesDecryptGCM).2 = .ok [1] ∧
      SameButStored b
        (ratchetDecrypt b header.encode ciphertext (.ok (fill 32 13)) aesDecryptGCM).1) := by
  obtain ⟨b, header, ciphertext, key, hrun, hne, hkey, hopen, -⟩ := late_run
  exact ⟨b, header, ciphertext, hrun, (late_delivery hne hkey hopen (.ok (fill 32 13))).2.2⟩

end Zentalk
