import Zentalk.Exchange.Calls

/-!
# Where the sending keys come from

`responder_keys_derived_iff`: from the shared secret, unless the responder writes before its first
DH ratchet.
-/

namespace Zentalk

open Wire Runs List Handshake

variable {K : Suite}

/-! ## Origins of keys -/

/-- A root key of the session with this secret. -/
def InLineage (sharedSecret : ByteArr 32) (rk : K.RootKey) : Prop :=
  ∃ dhs, rk = K.rootAt (K.rootKeyOf sharedSecret) dhs

/-- A chain key that comes by `KDF_CK` from a chain that `KDF_RK` started from a root key of
the session. -/
def SessionChain (sharedSecret : ByteArr 32) (ck : K.ChainKey) : Prop :=
  ∃ rk d n, InLineage sharedSecret rk ∧ ck = K.chainAt (K.kdfRK rk d).2 n

/-- A chain key that comes by `KDF_CK` from the zero array. -/
def ZeroChain (ck : K.ChainKey) : Prop := ∃ n, ck = K.chainAt K.zeroChainKey n

/-- A message key of a session chain. -/
def SessionKey (sharedSecret : ByteArr 32) (key : K.MessageKey) : Prop :=
  ∃ ck, SessionChain sharedSecret ck ∧ key = K.messageKeyOf ck

/-- A message key of the zero chain. -/
def ZeroKey (key : K.MessageKey) : Prop := ∃ ck : K.ChainKey, ZeroChain ck ∧ key = K.messageKeyOf ck

theorem inLineage_secret (sharedSecret : ByteArr 32) :
    InLineage sharedSecret (K.rootKeyOf sharedSecret) := ⟨[], rfl⟩

variable {sharedSecret : ByteArr 32}

theorem InLineage.mix {rk : K.RootKey} (h : InLineage sharedSecret rk) (d : ByteArr 32) :
    InLineage sharedSecret (K.kdfRK rk d).1 := by
  obtain ⟨dhs, rfl⟩ := h
  exact ⟨dhs ++ [d], (K.rootAt_concat _ _ _).symm⟩

theorem InLineage.chain {rk : K.RootKey} (h : InLineage sharedSecret rk) (d : ByteArr 32) :
    SessionChain sharedSecret (K.kdfRK rk d).2 :=
  ⟨rk, d, 0, h, rfl⟩

theorem SessionChain.next {ck : K.ChainKey} (h : SessionChain sharedSecret ck) :
    SessionChain sharedSecret (K.nextChainKey ck) := by
  obtain ⟨rk, d, n, hrk, rfl⟩ := h
  exact ⟨rk, d, n + 1, hrk, (K.chainAt_succ _ _).symm⟩

theorem ZeroChain.next {ck : K.ChainKey} (h : ZeroChain ck) : ZeroChain (K.nextChainKey ck) := by
  obtain ⟨n, rfl⟩ := h
  exact ⟨n + 1, (K.chainAt_succ _ _).symm⟩

theorem SessionKey.not_zero (hkdf : IdealKdf K) {key : K.MessageKey}
    (h : SessionKey sharedSecret key) : ¬ ZeroKey key := by
  rintro ⟨_, ⟨m, rfl⟩, hkey⟩
  obtain ⟨_, ⟨rk, d, n, -, rfl⟩, rfl⟩ := h
  obtain ⟨heq, -⟩ := hkdf.keyAt_inj (hkdf.chain_origin rk d) hkdf.zero_origin hkey
  exact hkdf.zero_ne rk d heq

theorem SessionKey.secret_eq (hkdf : IdealKdf K) (hsec : IdealSecrets K)
    {sharedSecret' : ByteArr 32} {key : K.MessageKey} (h : SessionKey sharedSecret key)
    (h' : SessionKey sharedSecret' key) : sharedSecret = sharedSecret' := by
  obtain ⟨_, ⟨rk, d, n, ⟨dhs, rfl⟩, rfl⟩, rfl⟩ := h
  obtain ⟨_, ⟨rk', d', n', ⟨dhs', rfl⟩, rfl⟩, hkey⟩ := h'
  obtain ⟨hchain, -⟩ := hkdf.keyAt_inj (hkdf.chain_origin _ d) (hkdf.chain_origin _ d') hkey
  exact hkdf.rootAt_inj hsec (hkdf.chain_inj _ _ _ _ hchain).1

/-! ## The calls of one end -/

section Calls

variable {gen : DHPublicKey → Prop} {aesDecrypt : K.Cipher}

/-- The session is on a chain of its own root keys. -/
structure Derived (sharedSecret : ByteArr 32) (s : RatchetState K) : Prop where
  root : InLineage sharedSecret s.rootKey
  chain : SessionChain sharedSecret s.sendingChainKey

/-- The session still sends on the zero chain, with the DH key it started with. -/
structure Unratcheted (sharedSecret : ByteArr 32) (dhKey : DHPublicKey) (s : RatchetState K) :
    Prop where
  root : InLineage sharedSecret s.rootKey
  chain : ZeroChain s.sendingChainKey
  key : s.dhSendingPublic = dhKey

variable {sharedSecret : ByteArr 32} {s s' : RatchetState K} {e : Use K} {dhKey : DHPublicKey}
  {key : K.MessageKey}

theorem derived_step (h : Derived sharedSecret s) (hstep : Call.Step gen aesDecrypt s e s') :
    Derived sharedSecret s' := by
  cases hstep with
  | encrypt plaintext aesEncrypt =>
    rw [ratchetEncrypt_state]
    exact ⟨h.root, h.chain.next⟩
  | decrypt headerBytes ciphertext rand hgen =>
    rw [ratchetDecrypt_state]
    cases Sending.cases s headerBytes hgen with
    | kept hroot hchain hkey => exact ⟨hroot ▸ h.root, hchain ▸ h.chain⟩
    | mixed d hroot hchain hkey => exact ⟨hroot ▸ h.root.mix d, hchain ▸ h.chain⟩
    | ratcheted d d' hroot hchain hkey =>
      exact ⟨hroot ▸ (h.root.mix d).mix d', hchain ▸ (h.root.mix d).chain d'⟩

/-- Only a decryption that ratchets leaves the zero chain. -/
theorem unratcheted_step (h : Unratcheted sharedSecret dhKey s)
    (hstep : Call.Step gen aesDecrypt s e s') :
    Unratcheted sharedSecret dhKey s' ∨ (gen s'.dhSendingPublic ∧ Derived sharedSecret s') := by
  cases hstep with
  | encrypt plaintext aesEncrypt =>
    rw [ratchetEncrypt_state]
    exact .inl ⟨h.root, h.chain.next, h.key⟩
  | decrypt headerBytes ciphertext rand hgen =>
    rw [ratchetDecrypt_state]
    cases Sending.cases s headerBytes hgen with
    | kept hroot hchain hkey =>
      exact .inl ⟨hroot ▸ h.root, hchain ▸ h.chain, hkey.trans h.key⟩
    | mixed d hroot hchain hkey =>
      exact .inl ⟨hroot ▸ h.root.mix d, hchain ▸ h.chain, hkey.trans h.key⟩
    | ratcheted d d' hroot hchain hkey =>
      exact .inr ⟨hkey, hroot ▸ (h.root.mix d).mix d', hchain ▸ (h.root.mix d).chain d'⟩

theorem gen_step (h : gen s.dhSendingPublic) (hstep : Call.Step gen aesDecrypt s e s') :
    gen s'.dhSendingPublic := by
  cases hstep with
  | encrypt plaintext aesEncrypt =>
    rw [ratchetEncrypt_state]
    exact h
  | decrypt headerBytes ciphertext rand hgen =>
    rw [ratchetDecrypt_state]
    cases Sending.cases s headerBytes hgen with
    | kept _ _ hkey => exact hkey ▸ h
    | mixed _ _ _ hkey => exact hkey ▸ h
    | ratcheted _ _ _ _ hkey => exact hkey

theorem encrypted_label (hstep : Call.Step gen aesDecrypt s (.encrypted dhKey key) s') :
    dhKey = s.dhSendingPublic ∧ key = K.messageKeyOf s.sendingChainKey := by
  cases hstep with
  | encrypt plaintext aesEncrypt => exact ⟨rfl, rfl⟩

variable {s₀ : RatchetState K} {evs : List (Use K)}

/-- Whoever starts on a session chain uses only session keys. -/
theorem initiator_run (h₀ : Derived sharedSecret s₀)
    (hrun : Run (Call.Step gen aesDecrypt) s₀ evs s) (hmem : .encrypted dhKey key ∈ evs) :
    SessionKey sharedSecret key := by
  obtain ⟨pre, post, rfl⟩ := append_of_mem hmem
  obtain ⟨s₁, s₂, hpre, hstep⟩ := hrun.split
  have hinv : Derived sharedSecret s₁ := hpre.invariant h₀ fun _ _ _ => derived_step
  exact ⟨_, hinv.chain, (encrypted_label hstep).2⟩

/-- Who starts on the zero chain uses it until its DH key changes, and session keys after that. -/
theorem responder_run {dhKey₀ : DHPublicKey} (h₀ : Unratcheted sharedSecret dhKey₀ s₀)
    (hrun : Run (Call.Step gen aesDecrypt) s₀ evs s) (hmem : .encrypted dhKey key ∈ evs) :
    (dhKey = dhKey₀ ∧ ZeroKey key) ∨ (gen dhKey ∧ SessionKey sharedSecret key) := by
  obtain ⟨pre, post, rfl⟩ := append_of_mem hmem
  obtain ⟨s₁, s₂, hpre, hstep⟩ := hrun.split
  have hinv : Unratcheted sharedSecret dhKey₀ s₁ ∨
      (gen s₁.dhSendingPublic ∧ Derived sharedSecret s₁) :=
    hpre.invariant (I := fun s => Unratcheted sharedSecret dhKey₀ s ∨
      (gen s.dhSendingPublic ∧ Derived sharedSecret s)) (.inl h₀)
      fun _ _ _ hinv hs => hinv.elim (fun h => unratcheted_step h hs)
        fun h => .inr ⟨gen_step h.1 hs, derived_step h.2 hs⟩
  obtain ⟨rfl, rfl⟩ := encrypted_label hstep
  rcases hinv with h | ⟨hgen, h⟩
  · exact .inl ⟨h.key, _, h.chain, rfl⟩
  · exact .inr ⟨hgen, _, h.chain, rfl⟩

end Calls

/-! ## The client session protocol -/

/-- The two clients set up the session, then both ends are called in any order. The generator does
not produce the signed prekey again. -/
def ClientRun (aesDecrypt : K.Cipher) (h : Handshake K)
    (eph : ByteArr 32) (evs : List (Party × Use K)) : Prop :=
  ∃ alice bob final, h.Completes eph alice bob ∧
    Run (Each (Call.Step (· ≠ h.signedPreKey.publicKey) aesDecrypt)) (Party.pick alice bob) evs
      final

def KeysDerived (sharedSecret : ByteArr 32) (evs : List (Party × Use K)) : Prop :=
  ∀ p dhKey key, (p, Use.encrypted dhKey key) ∈ evs → SessionKey sharedSecret key ∧ ¬ ZeroKey key

/-- The responder sends only with a DH key other than its signed prekey. -/
def RepliesAfterRatchet (h : Handshake K) (evs : List (Party × Use K)) : Prop :=
  ∀ dhKey key, (.bob, Use.encrypted dhKey key) ∈ evs → dhKey ≠ h.signedPreKey.publicKey

theorem derived_initiatorState (h : Handshake K) (eph : ByteArr 32) :
    Derived (h.sharedSecret eph) (h.initiatorState eph) :=
  ⟨(inLineage_secret _).mix _, (inLineage_secret _).chain _⟩

section ClientRun

variable {aesDecrypt : K.Cipher} {h : Handshake K}
  {eph : ByteArr 32} {evs : List (Party × Use K)} {dhKey : DHPublicKey} {key : K.MessageKey}

theorem ClientRun.alice_key (hdh : K.DHCommutes) (hrun : ClientRun aesDecrypt h eph evs)
    (hmem : (.alice, .encrypted dhKey key) ∈ evs) : SessionKey (h.sharedSecret eph) key := by
  obtain ⟨alice, bob, final, hc, hrun⟩ := hrun
  obtain ⟨rfl, rfl⟩ := completes_eq hdh hc
  exact initiator_run (derived_initiatorState h eph) (hrun.component .alice) (mem_labelsOf.mpr hmem)

theorem ClientRun.bob_key (hdh : K.DHCommutes) (hrun : ClientRun aesDecrypt h eph evs)
    (hmem : (.bob, .encrypted dhKey key) ∈ evs) :
    (dhKey = h.signedPreKey.publicKey ∧ ZeroKey key) ∨
    (dhKey ≠ h.signedPreKey.publicKey ∧ SessionKey (h.sharedSecret eph) key) := by
  obtain ⟨alice, bob, final, hc, hrun⟩ := hrun
  obtain ⟨rfl, rfl⟩ := completes_eq hdh hc
  exact responder_run ⟨(inLineage_secret _).mix _, ⟨0, rfl⟩, rfl⟩ (hrun.component .bob)
    (mem_labelsOf.mpr hmem)

end ClientRun

/-- The message keys of a session come from its root keys exactly when the responder sends nothing
before its first DH ratchet. -/
theorem responder_keys_derived_iff (hdh : K.DHCommutes) (hkdf : IdealKdf K)
    (hsec : IdealSecrets K) {aesDecrypt : K.Cipher}
    {h : Handshake K} {eph : ByteArr 32} {evs : List (Party × Use K)}
    (hrun : ClientRun aesDecrypt h eph evs) :
    (KeysDerived (h.sharedSecret eph) evs ↔ RepliesAfterRatchet h evs) ∧
    ∀ (h' : Handshake K) (eph' : ByteArr 32) (evs' : List (Party × Use K)),
      ClientRun aesDecrypt h' eph' evs' → h.sharedSecret eph ≠ h'.sharedSecret eph' →
      RepliesAfterRatchet h evs → RepliesAfterRatchet h' evs' →
      ∀ dhKey dhKey' key, (.bob, .encrypted dhKey key) ∈ evs →
        (.bob, .encrypted dhKey' key) ∉ evs' := by
  constructor
  · constructor
    · intro hkeys dhKey key hmem heq
      rcases hrun.bob_key hdh hmem with ⟨-, hzero⟩ | ⟨hne, -⟩
      · exact (hkeys _ _ _ hmem).2 hzero
      · exact hne heq
    · intro hreplies p dhKey key hmem
      have hkey : SessionKey (h.sharedSecret eph) key := by
        cases p with
        | alice => exact hrun.alice_key hdh hmem
        | bob =>
          rcases hrun.bob_key hdh hmem with ⟨heq, -⟩ | ⟨-, hkey⟩
          · exact absurd heq (hreplies _ _ hmem)
          · exact hkey
      exact ⟨hkey, hkey.not_zero hkdf⟩
  · intro h' eph' evs' hrun' hne hreplies hreplies' dhKey dhKey' key hmem hmem'
    rcases hrun.bob_key hdh hmem with ⟨heq, -⟩ | ⟨-, hkey⟩
    · exact hreplies _ _ hmem heq
    · rcases hrun'.bob_key hdh hmem' with ⟨heq, -⟩ | ⟨-, hkey'⟩
      · exact hreplies' _ _ hmem' heq
      · exact hne (hkey.secret_eq hkdf hsec hkey')

theorem reply_at_once (hdh : K.DHCommutes) (aesDecrypt : K.Cipher) {h : Handshake K}
    (hnone : h.responder.ratchetSessions.lookup h.initiator.address = none) (eph : ByteArr 32) :
    ClientRun aesDecrypt h eph
      [(.bob, .encrypted h.signedPreKey.publicKey (K.messageKeyOf K.zeroChainKey))] :=
  ⟨_, _, _, Handshake.completes hdh hnone eph,
    Run.nil.snoc (Each.move Party.bob (Call.Step.encrypt [] fun plaintext _ => .ok plaintext))⟩

/-! ## Concrete sessions -/

def otherHandshake : Handshake freeSuite :=
  { sampleHandshake ∅ with
    initiator := { sampleClient 1 ∅ with x3dhIdentity := some (sampleIdentity 9) }
    aliceIdentity := sampleIdentity 9
    initiator_identity := rfl
    alice_valid := rfl }

/-- Two responders with different secrets reply at once, under the same key. -/
theorem responder_keys_collide :
    ∃ (evs : List (Party × Use freeSuite)) (dhKey : DHPublicKey) (key : freeSuite.MessageKey),
      ClientRun aesDecryptGCM (sampleHandshake ∅) (fill 32 5) evs ∧
      ClientRun aesDecryptGCM otherHandshake (fill 32 5) evs ∧
      (sampleHandshake ∅).sharedSecret (fill 32 5) ≠ otherHandshake.sharedSecret (fill 32 5) ∧
      (.bob, .encrypted dhKey key) ∈ evs ∧
      ¬ KeysDerived ((sampleHandshake ∅).sharedSecret (fill 32 5)) evs := by
  refine ⟨_, _, _, reply_at_once freeSuite_dhCommutes aesDecryptGCM rfl _,
    reply_at_once freeSuite_dhCommutes aesDecryptGCM rfl _, by decide,
    mem_singleton_self _, ?_⟩
  intro hkeys
  exact (hkeys _ _ _ (mem_singleton_self _)).2 ⟨_, ⟨0, rfl⟩, rfl⟩

/-- A responder that replies after a DH ratchet. -/
theorem responder_keys_derived_sample :
    ∃ (evs : List (Party × Use freeSuite)) (key : freeSuite.MessageKey),
      ClientRun aesDecryptGCM (sampleHandshake ∅) (fill 32 5) evs ∧
      (.bob, .encrypted (fill 32 6) key) ∈ evs ∧
      KeysDerived ((sampleHandshake ∅).sharedSecret (fill 32 5)) evs := by
  have hrun : ClientRun aesDecryptGCM (sampleHandshake ∅) (fill 32 5) _ :=
    ⟨_, _, _, completes freeSuite_dhCommutes rfl (fill 32 5),
      (Run.nil.snoc (Each.move Party.bob (Call.Step.decrypt
        (MessageHeader.mk (fill 32 8) 0 0).encode [] (.ok (fill 32 6))
        fun _ h => Except.ok.inj h ▸ by decide))).snoc
      (Each.move Party.bob (Call.Step.encrypt [7] (aesEncryptGCM (.ok (fill 12 0)))))⟩
  refine ⟨_, _, hrun, mem_append_right _ (mem_singleton_self _),
    (responder_keys_derived_iff freeSuite_dhCommutes freeSuite_ideal freeSuite_secrets
      hrun).1.mpr ?_⟩
  intro dhKey key hmem
  simp only [nil_append, mem_append, mem_singleton, Prod.mk.injEq, true_and,
    reduceCtorEq, false_or, Use.encrypted.injEq] at hmem
  rw [hmem.1]
  decide

end Zentalk
