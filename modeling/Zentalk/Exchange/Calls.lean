import Zentalk.Lib.Run
import Zentalk.Network.Establish

/-!
# One session under arbitrary calls

`Sending.cases`: a decryption, failed or not, keeps the sending chain or starts a new one.
-/

namespace Zentalk

open Wire Runs Function

/-- The two ends of a session; the initiator is `alice`. -/
inductive Party
  | alice
  | bob
deriving DecidableEq

def Party.peer : Party → Party
  | .alice => .bob
  | .bob => .alice

/-- One value for each end. -/
def Party.pick {α : Type*} (alice bob : α) : Party → α
  | .alice => alice
  | .bob => bob

@[simp] theorem Party.pick_alice {α : Type*} (a b : α) : pick a b .alice = a := rfl

@[simp] theorem Party.pick_bob {α : Type*} (a b : α) : pick a b .bob = b := rfl

@[simp] theorem Party.peer_peer (p : Party) : p.peer.peer = p := by cases p <;> rfl

@[simp] theorem Party.peer_ne (p : Party) : p.peer ≠ p := by cases p <;> decide

theorem Party.eq_or_eq_peer (p x : Party) : x = p ∨ x = p.peer := by
  cases p <;> cases x <;> decide

theorem Party.forall_iff {P : Party → Prop} (p : Party) : (∀ x, P x) ↔ P p ∧ P p.peer := by
  constructor
  · intro h
    exact ⟨h p, h p.peer⟩
  · rintro ⟨hp, hpeer⟩ x
    rcases p.eq_or_eq_peer x with rfl | rfl
    · exact hp
    · exact hpeer

@[simp] theorem Party.update_peer {α : Type*} (f : Party → α) (p : Party) (v : α) :
    update f p v p.peer = f p.peer :=
  update_of_ne p.peer_ne _ _

@[simp] theorem Party.update_of_peer {α : Type*} (f : Party → α) (p : Party) (v : α) :
    update f p.peer v p = f p :=
  update_of_ne p.peer_ne.symm _ _

variable {K : Suite}

/-- What a call shows. An encryption shows the DH key of its header and the message key. A
decryption shows the message key handed to `aesDecrypt`, if it got that far, the ciphertext
and the result. -/
inductive Use (K : Suite)
  | encrypted (dhKey : DHPublicKey) (key : K.MessageKey)
  | decrypted (handed : Option K.MessageKey) (ciphertext : Bytes) (result : Except String Bytes)

/-- One call. `gen` says which DH public keys the generator can produce. -/
inductive Call.Step (gen : DHPublicKey → Prop) (aesDecrypt : K.Cipher) :
    RatchetState K → Use K → RatchetState K → Prop
  | encrypt {s : RatchetState K} (plaintext : Bytes) (aesEncrypt : K.Cipher) :
      Step gen aesDecrypt s (.encrypted s.dhSendingPublic s.sendingKey)
        (ratchetEncrypt s plaintext aesEncrypt).1
  | decrypt {s : RatchetState K} (headerBytes ciphertext : Bytes) (rand : RandomKey) :
      (∀ newPrivate, rand = .ok newPrivate → gen (K.scalarBaseMult newPrivate)) →
      Step gen aesDecrypt s
        (.decrypted (receivingKey s headerBytes rand).2.toOption ciphertext
          (ratchetDecrypt s headerBytes ciphertext rand aesDecrypt).2)
        (ratchetDecrypt s headerBytes ciphertext rand aesDecrypt).1

variable (s : RatchetState K)

theorem ratchetEncrypt_state (plaintext : Bytes) (aesEncrypt : K.Cipher) :
    (ratchetEncrypt s plaintext aesEncrypt).1 = s.advanceSending := by
  unfold ratchetEncrypt
  split <;> rfl

variable {rand : RandomKey}

/-- An accepted ciphertext was opened with the key handed over. -/
theorem decrypted_key {s : RatchetState K} {headerBytes ciphertext plaintext : Bytes}
    {aesDecrypt : K.Cipher}
    (h : (ratchetDecrypt s headerBytes ciphertext rand aesDecrypt).2 = .ok plaintext) :
    ∃ key, (receivingKey s headerBytes rand).2.toOption = some key ∧
      aesDecrypt ciphertext key = .ok plaintext := by
  unfold ratchetDecrypt at h
  split at h
  · cases h
  · next key heq =>
    rw [heq]
    exact ⟨key, rfl, h⟩

/-- A ciphertext opens under one key at most. -/
def OpensUnderOneKey (aesDecrypt : K.Cipher) : Prop :=
  ∀ ciphertext key key' plaintext plaintext', aesDecrypt ciphertext key = .ok plaintext →
    aesDecrypt ciphertext key' = .ok plaintext' → key = key'

theorem freeSuite_opensUnderOneKey : OpensUnderOneKey (K := freeSuite) aesDecryptGCM := by
  have hopens : ∀ (ciphertext : Bytes) (key : freeSuite.MessageKey) (plaintext : Bytes),
      aesDecryptGCM ciphertext key = .ok plaintext →
      ∃ rest, ciphertext.drop 12 = ChainTerm.toBytes key ++ rest := by
    intro ciphertext key plaintext h
    unfold aesDecryptGCM at h
    split at h
    · cases h
    · split at h
      · cases h
      · next heq =>
        simp only [freeSuite] at heq
        split at heq
        · next hprefix => exact ⟨_, hprefix.choose_spec.symm⟩
        · cases heq
  intro ciphertext key key' plaintext plaintext' h h'
  obtain ⟨rest, hrest⟩ := hopens _ _ _ h
  obtain ⟨rest', hrest'⟩ := hopens _ _ _ h'
  exact (ChainTerm.toBytes_append_inj (hrest.symm.trans hrest')).1

/-! ## The sending half -/

/-- What a decryption does to the root key and to the sending chain: nothing, a new root key
only (the key generation failed), or a new root key and a new chain with a new DH key. -/
inductive Sending (gen : DHPublicKey → Prop) (s s' : RatchetState K) : Prop
  | kept : s'.rootKey = s.rootKey → s'.sendingChainKey = s.sendingChainKey →
      s'.dhSendingPublic = s.dhSendingPublic → Sending gen s s'
  | mixed (d : ByteArr 32) : s'.rootKey = (K.kdfRK s.rootKey d).1 →
      s'.sendingChainKey = s.sendingChainKey → s'.dhSendingPublic = s.dhSendingPublic →
      Sending gen s s'
  | ratcheted (d d' : ByteArr 32) :
      s'.rootKey = (K.kdfRK (K.kdfRK s.rootKey d).1 d').1 →
      s'.sendingChainKey = (K.kdfRK (K.kdfRK s.rootKey d).1 d').2 →
      gen s'.dhSendingPublic → Sending gen s s'

theorem takeMessageKey_sending (header : MessageHeader) :
    (takeMessageKey s header).1.rootKey = s.rootKey ∧
    (takeMessageKey s header).1.sendingChainKey = s.sendingChainKey ∧
    (takeMessageKey s header).1.dhSendingPublic = s.dhSendingPublic := by
  obtain ⟨-, e, h⟩ | ⟨-, key, -, h⟩ | ⟨-, -, h⟩ := takeMessageKey_cases s header <;>
    rw [h] <;> exact ⟨rfl, rfl, rfl⟩

theorem Sending.cases {gen : DHPublicKey → Prop} (headerBytes : Bytes)
    (hgen : ∀ newPrivate, rand = .ok newPrivate → gen (K.scalarBaseMult newPrivate)) :
    Sending gen s (receivingKey s headerBytes rand).1 := by
  obtain ⟨e, h, -⟩ | ⟨header, -, -, h⟩ | ⟨header, -, -, -, ⟨e, -, h⟩ | ⟨newPrivate, hrand, h⟩⟩ :=
    receivingKey_cases s headerBytes rand
  · rw [h]
    exact .kept rfl rfl rfl
  · rw [h]
    obtain ⟨hroot, hchain, hkey⟩ := takeMessageKey_sending s header
    exact .kept hroot hchain hkey
  · rw [h]
    exact .mixed _ rfl rfl rfl
  · rw [h]
    obtain ⟨hroot, hchain, hkey⟩ := takeMessageKey_sending (s.ratchetTo header newPrivate) header
    exact .ratcheted _ _ hroot hchain (hkey ▸ hgen newPrivate hrand)

end Zentalk
