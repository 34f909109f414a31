import Zentalk.Exchange.Calls

/-!
# No message key is handed out twice

Every key comes from a chain that starts at the zero key or an output of `KDF_RK` (`no_replay`).
-/

namespace Zentalk

open Wire Runs List Nat

variable {K : Suite}

/-- The ways in which the code creates a session. -/
inductive SessionStart : RatchetState K → Prop
  | initiator (sharedSecret : ByteArr 32) (remoteDHPublic : DHPublicKey)
      (localDHPrivate : DHPrivateKey) (localDHPublic : DHPublicKey)
      (localAddr remoteAddr : Address) :
      SessionStart (newRatchetState sharedSecret remoteDHPublic localDHPrivate localDHPublic
        localAddr remoteAddr)
  | receiver (sharedSecret : ByteArr 32) (localDHPrivate : DHPrivateKey)
      (localDHPublic : DHPublicKey) (localAddr remoteAddr : Address) :
      SessionStart (newRatchetStateReceiver sharedSecret localDHPrivate localDHPublic localAddr
        remoteAddr)
  | responder (sharedSecret : ByteArr 32) (signedPreKey : SignedPreKeyPrivate)
      (ephemeralKey : DHPublicKey) (localAddr remoteAddr : Address) :
      SessionStart (responderSession sharedSecret signedPreKey ephemeralKey localAddr remoteAddr)

def Use.handed : Use K → Option K.MessageKey
  | .encrypted _ _ => none
  | .decrypted handed _ _ => handed

def Use.Accepts (ciphertext : Bytes) : Use K → Prop
  | .encrypted _ _ => False
  | .decrypted _ c result => c = ciphertext ∧ ∃ plaintext, result = .ok plaintext

section

/-! ## Origins and positions -/

/-- The zero chain key, or what `KDF_RK` made of an earlier root key. -/
def Known (root : K.RootKey) (o : K.ChainKey) : Prop :=
  o = K.zeroChainKey ∨
  ∃ rk d dhs, dhs ≠ [] ∧ root = K.rootAt rk dhs ∧ o = (K.kdfRK rk d).2

/-- The key is on an older chain, or behind position `n` of the chain from `o`. -/
def Behind (root : K.RootKey) (o : K.ChainKey) (n : Nat) (key : K.MessageKey) : Prop :=
  ∃ o' j, Known root o' ∧ key = K.keyAt o' j ∧ (o' = o → j < n)

variable {root : K.RootKey} {o : K.ChainKey} {n : Nat} {key : K.MessageKey}
  {used : K.MessageKey → Prop} {s : RatchetState K} {evs : List (Use K)} {e : Use K}
  {gen : DHPublicKey → Prop} {aesDecrypt : K.Cipher}

theorem known_mix (h : Known root o) (d : ByteArr 32) : Known (K.kdfRK root d).1 o := by
  rcases h with rfl | ⟨rk, d', dhs, hne, rfl, rfl⟩
  · exact .inl rfl
  · exact .inr ⟨rk, d', dhs ++ [d], by simp, (K.rootAt_concat _ _ _).symm, rfl⟩

theorem known_new (root : K.RootKey) (d : ByteArr 32) :
    Known (K.kdfRK root d).1 (K.kdfRK root d).2 :=
  .inr ⟨root, d, [d], by simp, rfl, rfl⟩

theorem Known.origin (hkdf : IdealKdf K) (h : Known root o) : OneWay.Origin K.nextChainKey o := by
  rcases h with rfl | ⟨rk, d, -, -, -, rfl⟩
  · exact hkdf.zero_origin
  · exact hkdf.chain_origin rk d

theorem Known.ne_new (hkdf : IdealKdf K) (h : Known root o) (d : ByteArr 32) :
    o ≠ (K.kdfRK root d).2 := by
  rcases h with rfl | ⟨rk, d', dhs, hne, rfl, rfl⟩
  · exact (hkdf.zero_ne _ d).symm
  · intro heq
    obtain ⟨hroot, -⟩ := hkdf.chain_inj _ _ _ _ heq
    exact hkdf.root_acyclic rk dhs hne hroot.symm

theorem Behind.mono {n' : Nat} (h : Behind root o n key) (hle : n ≤ n') : Behind root o n' key := by
  obtain ⟨o', j, hknown, hkey, hlt⟩ := h
  exact ⟨o', j, hknown, hkey, fun heq => lt_of_lt_of_le (hlt heq) hle⟩

theorem Behind.new (hkdf : IdealKdf K) (h : Behind root o n key) (d : ByteArr 32) :
    Behind (K.kdfRK root d).1 (K.kdfRK root d).2 0 key := by
  obtain ⟨o', j, hknown, hkey, -⟩ := h
  exact ⟨o', j, known_mix hknown d, hkey, fun heq => absurd heq (hknown.ne_new hkdf d)⟩

theorem Behind.mix (h : Behind root o n key) (d : ByteArr 32) :
    Behind (K.kdfRK root d).1 o n key := by
  obtain ⟨o', j, hknown, hkey, hlt⟩ := h
  exact ⟨o', j, known_mix hknown d, hkey, hlt⟩

/-- What is still ahead is not behind. -/
theorem Behind.ne_keyAt (hkdf : IdealKdf K) {i : Nat} (h : Behind root o n key) (ho : Known root o)
    (hle : n ≤ i) : key ≠ K.keyAt o i := by
  obtain ⟨o', j, hknown, rfl, hlt⟩ := h
  intro heq
  obtain ⟨hsame, rfl⟩ := hkdf.keyAt_inj (hknown.origin hkdf) (ho.origin hkdf) heq
  exact absurd (hlt hsame) (not_lt.mpr hle)

/-! ## The invariant -/

/-- The receiving chain is at position `n` of the chain from `o`, and everything used or
stored is behind it. -/
structure SafeAt (used : K.MessageKey → Prop) (s : RatchetState K) (o : K.ChainKey) (n : Nat) :
    Prop where
  origin : Known s.rootKey o
  chain : s.receivingChainKey = K.chainAt o n
  used_behind : ∀ key, used key → Behind s.rootKey o n key
  stored_behind : ∀ id key, s.skippedMessageKeys.lookup id = some key → Behind s.rootKey o n key
  stored_inj : ∀ id id' key, s.skippedMessageKeys.lookup id = some key →
    s.skippedMessageKeys.lookup id' = some key → id = id'
  stored_unused : ∀ id key, s.skippedMessageKeys.lookup id = some key → ¬ used key

def Safe (used : K.MessageKey → Prop) (s : RatchetState K) : Prop := ∃ o n, SafeAt used s o n

theorem SafeAt.keyAt_ahead (h : SafeAt used s o n) (i : Nat) :
    K.keyAt s.receivingChainKey i = K.keyAt o (n + i) := by
  rw [h.chain, K.keyAt_chainAt]

/-! ## Skipping -/

variable {id : MessageKeyID}

theorem lookup_skipTo_cases {dhPublicKey : DHPublicKey} {messageNum : UInt32}
    (h : (s.skipTo dhPublicKey messageNum).skippedMessageKeys.lookup id = some key) :
    (∃ i, i < s.ahead messageNum ∧ key = K.keyAt s.receivingChainKey i ∧
      id.dhPublicKey = dhPublicKey ∧ id.messageNum.toNat = s.receivingMsgNum.toNat + i) ∨
    s.skippedMessageKeys.lookup id = some key := by
  obtain ⟨dh, num⟩ := id
  by_cases hdh : dh = dhPublicKey
  · subst hdh
    rw [lookup_skipTo] at h
    split at h
    · next hrange =>
      refine .inl ⟨s.ahead num, ?_, (Option.some.inj h).symm, rfl, ?_⟩
      · unfold RatchetState.ahead
        omega
      · show num.toNat = _
        unfold RatchetState.ahead
        omega
    · exact .inr h
  · rw [lookup_skipTo_other (by exact hdh)] at h
    exact .inr h

theorem safe_skipTo (hkdf : IdealKdf K) (h : SafeAt used s o n) (dhPublicKey : DHPublicKey)
    (messageNum : UInt32) :
    SafeAt used (s.skipTo dhPublicKey messageNum) o (n + s.ahead messageNum) := by
  have hfresh : ∀ key i, Behind s.rootKey o n key → key ≠ K.keyAt s.receivingChainKey i := by
    intro key i hbehind
    rw [h.keyAt_ahead]
    exact hbehind.ne_keyAt hkdf h.origin (le_add_right _ _)
  constructor
  · exact h.origin
  · show K.chainAt s.receivingChainKey _ = _
    rw [h.chain, K.chainAt_chainAt]
  · intro key hkey
    exact (h.used_behind key hkey).mono (le_add_right _ _)
  · intro id key hkey
    rcases lookup_skipTo_cases hkey with ⟨i, hi, rfl, -⟩ | hold
    · exact ⟨o, n + i, h.origin, h.keyAt_ahead i, fun _ => Nat.add_lt_add_left hi n⟩
    · exact (h.stored_behind id key hold).mono (le_add_right _ _)
  · intro id id' key hkey hkey'
    rcases lookup_skipTo_cases hkey with ⟨i, -, heq, hdh, hnum⟩ | hold
    · rcases lookup_skipTo_cases hkey' with ⟨i', -, heq', hdh', hnum'⟩ | hold'
      · rw [h.keyAt_ahead] at heq heq'
        obtain ⟨-, hi⟩ := hkdf.keyAt_inj (h.origin.origin hkdf) (h.origin.origin hkdf)
          (heq.symm.trans heq')
        obtain ⟨dh, num⟩ := id
        obtain ⟨dh', num'⟩ := id'
        have hnum'' : num = num' := UInt32.toNat_inj.mp (by dsimp only at hnum hnum'; omega)
        rw [hnum'', show dh = dh' from hdh.trans hdh'.symm]
      · exact absurd heq (hfresh key i (h.stored_behind id' key hold'))
    · rcases lookup_skipTo_cases hkey' with ⟨i', -, heq', -, -⟩ | hold'
      · exact absurd heq' (hfresh key i' (h.stored_behind id key hold))
      · exact h.stored_inj id id' key hold hold'
  · intro id key hkey hused
    rcases lookup_skipTo_cases hkey with ⟨i, -, heq, -, -⟩ | hold
    · exact hfresh key i (h.used_behind key hused) heq
    · exact h.stored_unused id key hold hused

/-! ## Handing out a key -/

theorem safe_erase (h : SafeAt used s o n) (hkey : s.skippedMessageKeys.lookup id = some key) :
    ¬ used key ∧ SafeAt (fun k => used k ∨ k = key)
      { s with skippedMessageKeys := s.skippedMessageKeys.erase id } o n := by
  have hkept : ∀ id' k, (s.skippedMessageKeys.erase id).lookup id' = some k →
      id' ≠ id ∧ s.skippedMessageKeys.lookup id' = some k := by
    intro id' k hk
    by_cases hid : id' = id
    · rw [hid, Finmap.lookup_erase] at hk
      cases hk
    · rw [Finmap.lookup_erase_ne hid] at hk
      exact ⟨hid, hk⟩
  refine ⟨h.stored_unused id key hkey, h.origin, h.chain, ?_, ?_, ?_, ?_⟩
  · rintro k (hk | rfl)
    · exact h.used_behind k hk
    · exact h.stored_behind id k hkey
  · intro id' k hk
    exact h.stored_behind id' k (hkept id' k hk).2
  · intro id' id'' k hk hk'
    exact h.stored_inj id' id'' k (hkept id' k hk).2 (hkept id'' k hk').2
  · rintro id' k hk (hused | rfl)
    · exact h.stored_unused id' k (hkept id' k hk).2 hused
    · exact (hkept id' k hk).1 (h.stored_inj id' id k (hkept id' k hk).2 hkey)

theorem safe_advance (hkdf : IdealKdf K) (h : SafeAt used s o n) :
    ¬ used (K.messageKeyOf s.receivingChainKey) ∧
    SafeAt (fun k => used k ∨ k = K.messageKeyOf s.receivingChainKey) s.advanceReceiving o
      (n + 1) := by
  have hnext : K.messageKeyOf s.receivingChainKey = K.keyAt o n := by rw [h.chain, Suite.keyAt]
  have hfresh : ∀ k, Behind s.rootKey o n k → k ≠ K.messageKeyOf s.receivingChainKey := by
    intro k hk
    rw [hnext]
    exact hk.ne_keyAt hkdf h.origin (le_refl n)
  refine ⟨fun hused => hfresh _ (h.used_behind _ hused) rfl, h.origin, ?_, ?_, ?_, h.stored_inj, ?_⟩
  · show K.nextChainKey s.receivingChainKey = _
    rw [h.chain, K.chainAt_succ]
  · rintro k (hk | rfl)
    · exact (h.used_behind k hk).mono (le_succ n)
    · exact ⟨o, n, h.origin, hnext, fun _ => lt_succ_self n⟩
  · intro id k hk
    exact (h.stored_behind id k hk).mono (le_succ n)
  · rintro id k hk (hused | heq)
    · exact h.stored_unused id k hk hused
    · exact hfresh k (h.stored_behind id k hk) heq

/-- The keys used after a call. -/
def UsedAfter (used : K.MessageKey → Prop) (result : Except String K.MessageKey)
    (key : K.MessageKey) : Prop :=
  used key ∨ result.toOption = some key

/-- The key that a part of a call hands out is new, and the state it leaves is safe. -/
def HandsOutNew (used : K.MessageKey → Prop)
    (outcome : RatchetState K × Except String K.MessageKey) : Prop :=
  (∀ key, outcome.2 = .ok key → ¬ used key) ∧ Safe (UsedAfter used outcome.2) outcome.1

theorem handsOutNew_error (h : Safe used s) (e : String) : HandsOutNew used (s, .error e) := by
  have hused : UsedAfter used (.error e) = used := by
    funext key
    simp [UsedAfter, Except.toOption]
  refine ⟨fun key heq => (nomatch heq), ?_⟩
  rw [hused]
  exact h

theorem handsOutNew_ok (h : ¬ used key ∧ SafeAt (fun k => used k ∨ k = key) s o n) :
    HandsOutNew used (s, .ok key) := by
  have hused : UsedAfter used (.ok key) = fun k => used k ∨ k = key := by
    funext k
    simp [UsedAfter, Except.toOption, eq_comm]
  refine ⟨fun key' heq => Except.ok.inj heq ▸ h.1, o, n, ?_⟩
  rw [hused]
  exact h.2

theorem safe_takeMessageKey (hkdf : IdealKdf K) (h : Safe used s) (header : MessageHeader) :
    HandsOutNew used (takeMessageKey s header) := by
  obtain ⟨o, n, hat⟩ := h
  have hskip := safe_skipTo hkdf hat header.dhPublicKey header.messageNum
  obtain ⟨-, e, heq⟩ | ⟨-, key, hkey, heq⟩ | ⟨-, -, heq⟩ := takeMessageKey_cases s header
  · rw [heq]
    exact handsOutNew_error ⟨o, n, hat⟩ e
  · rw [heq]
    have hlookup := lookup_skipTo_self s header.dhPublicKey header.messageNum
    exact handsOutNew_ok (safe_erase hskip (hlookup.trans hkey))
  · rw [heq, takeFresh_eq]
    exact handsOutNew_ok (safe_advance hkdf hskip)

/-! ## The DH ratchet -/

theorem safe_dhRatchetReceive (hkdf : IdealKdf K) (h : SafeAt used s o n)
    (remoteDHPublic : DHPublicKey) : Safe used (dhRatchetReceive s remoteDHPublic) :=
  ⟨_, 0, known_new _ _, rfl, fun key hkey => (h.used_behind key hkey).new hkdf _,
    fun id key hkey => (h.stored_behind id key hkey).new hkdf _, h.stored_inj, h.stored_unused⟩

theorem safe_dhRatchetSend (h : Safe used s) (newPrivate : DHPrivateKey) (newPublic : DHPublicKey) :
    Safe used (dhRatchetSend s newPrivate newPublic) := by
  obtain ⟨o, n, hat⟩ := h
  exact ⟨o, n, known_mix hat.origin _, hat.chain, fun key hkey => (hat.used_behind key hkey).mix _,
    fun id key hkey => (hat.stored_behind id key hkey).mix _, hat.stored_inj, hat.stored_unused⟩

theorem safe_receivingKey (hkdf : IdealKdf K) (h : Safe used s) (headerBytes : Bytes)
    (rand : RandomKey) : HandsOutNew used (receivingKey s headerBytes rand) := by
  obtain ⟨e, heq, -⟩ | ⟨header, -, -, heq⟩ |
    ⟨header, -, -, -, ⟨e, -, heq⟩ | ⟨newPrivate, -, heq⟩⟩ := receivingKey_cases s headerBytes rand
  · rw [heq]
    exact handsOutNew_error h e
  · rw [heq]
    exact safe_takeMessageKey hkdf h header
  · rw [heq]
    obtain ⟨o, n, hat⟩ := h
    exact handsOutNew_error (safe_dhRatchetReceive hkdf (safe_skipTo hkdf hat _ _) _) e
  · rw [heq]
    obtain ⟨o, n, hat⟩ := h
    exact safe_takeMessageKey hkdf
      (safe_dhRatchetSend (safe_dhRatchetReceive hkdf (safe_skipTo hkdf hat _ _) _) _ _) header

/-! ## Runs -/

def Handed (evs : List (Use K)) (key : K.MessageKey) : Prop := ∃ e ∈ evs, e.handed = some key

def HandsOutOnce (evs : List (Use K)) : Prop :=
  evs.Pairwise fun e e' => ∀ key, e.handed = some key → e'.handed ≠ some key

theorem safe_unused (hknown : Known s.rootKey s.receivingChainKey)
    (hskip : s.skippedMessageKeys = ∅) : Safe (fun _ => False) s := by
  have hnone : ∀ id key, s.skippedMessageKeys.lookup id ≠ some key := by
    intro id key hkey
    rw [hskip] at hkey
    cases hkey
  exact ⟨_, 0, hknown, rfl, fun _ h => h.elim, fun id key h => (hnone id key h).elim,
    fun id _ key h => (hnone id key h).elim, fun id key h => (hnone id key h).elim⟩

theorem safe_start (h : SessionStart s) : Safe (fun _ => False) s := by
  cases h with
  | initiator => exact safe_unused (.inl rfl) rfl
  | receiver => exact safe_unused (.inl rfl) rfl
  | responder => exact safe_unused (known_new _ _) rfl

theorem handed_concat (evs : List (Use K)) (e : Use K) :
    Handed (evs ++ [e]) = fun key => Handed evs key ∨ e.handed = some key := by
  funext key
  simp [Handed, or_and_right, exists_or]

theorem handsOutOnce_concat (h : HandsOutOnce evs)
    (hnew : ∀ key, e.handed = some key → ¬ Handed evs key) : HandsOutOnce (evs ++ [e]) := by
  refine pairwise_append.mpr ⟨h, pairwise_singleton _ _, ?_⟩
  intro e₁ hmem e₂ hlast key hkey hkey'
  rw [mem_singleton.mp hlast] at hkey'
  exact hnew key hkey' ⟨e₁, hmem, hkey⟩

theorem safe_step (hkdf : IdealKdf K) {s' : RatchetState K}
    (h : Safe (Handed evs) s ∧ HandsOutOnce evs) (hstep : Call.Step gen aesDecrypt s e s') :
    Safe (Handed (evs ++ [e])) s' ∧ HandsOutOnce (evs ++ [e]) := by
  obtain ⟨hsafe, honce⟩ := h
  rw [handed_concat]
  cases hstep with
  | encrypt plaintext aesEncrypt =>
    rw [ratchetEncrypt_state]
    obtain ⟨o, n, hat⟩ := hsafe
    simp only [Use.handed, reduceCtorEq, or_false]
    exact ⟨⟨o, n, hat.origin, hat.chain, hat.used_behind, hat.stored_behind, hat.stored_inj,
      hat.stored_unused⟩, handsOutOnce_concat honce fun _ hkey => nomatch hkey⟩
  | decrypt headerBytes ciphertext rand _ =>
    rw [ratchetDecrypt_state]
    obtain ⟨hnew, hsafe'⟩ := safe_receivingKey hkdf hsafe headerBytes rand
    refine ⟨hsafe', handsOutOnce_concat honce fun key hkey => hnew key ?_⟩
    cases hres : (receivingKey s headerBytes rand).2 with
    | error e =>
      simp only [Use.handed, hres] at hkey
      cases hkey
    | ok key' =>
      simp only [Use.handed, hres] at hkey
      exact congrArg _ (Option.some.inj hkey)

variable {s₀ : RatchetState K}

theorem safe_run (hkdf : IdealKdf K) (h₀ : SessionStart s₀)
    (hrun : Run (Call.Step gen aesDecrypt) s₀ evs s) : Safe (Handed evs) s ∧ HandsOutOnce evs := by
  have hnone : Handed ([] : List (Use K)) = fun _ => False := by
    funext key
    simp [Handed]
  refine hrun.trace_invariant (I := fun evs s => Safe (Handed evs) s ∧ HandsOutOnce evs)
    ⟨hnone ▸ safe_start h₀, Pairwise.nil⟩ ?_
  intro evs e s s' h hstep
  exact safe_step hkdf h hstep

theorem accepts_handed (hrun : Run (Call.Step gen aesDecrypt) s₀ evs s) (hmem : e ∈ evs)
    {ciphertext : Bytes} (hacc : e.Accepts ciphertext) :
    ∃ key plaintext, e.handed = some key ∧ aesDecrypt ciphertext key = .ok plaintext := by
  obtain ⟨pre, post, rfl⟩ := append_of_mem hmem
  obtain ⟨s₁, s₂, -, hstep⟩ := hrun.split
  cases hstep with
  | encrypt plaintext aesEncrypt => exact hacc.elim
  | decrypt headerBytes c rand _ =>
    obtain ⟨rfl, plaintext, hok⟩ := hacc
    obtain ⟨key, hkey, hopen⟩ := decrypted_key hok
    exact ⟨key, plaintext, hkey, hopen⟩

end

/-- Under calls of an adversary's choice each message key is handed to `aesDecrypt` at most once,
and no ciphertext is accepted twice. -/
theorem no_replay (hkdf : IdealKdf K) {aesDecrypt : K.Cipher}
    (hone : OpensUnderOneKey aesDecrypt) {gen : DHPublicKey → Prop} {s₀ s : RatchetState K}
    (h₀ : SessionStart s₀) {evs : List (Use K)} (hrun : Run (Call.Step gen aesDecrypt) s₀ evs s) :
    (evs.Pairwise fun e e' => ∀ key, e.handed = some key → e'.handed ≠ some key) ∧
    (evs.Pairwise fun e e' => ∀ ciphertext, e.Accepts ciphertext → ¬ e'.Accepts ciphertext) := by
  obtain ⟨-, honce⟩ := safe_run hkdf h₀ hrun
  refine ⟨honce, honce.imp_of_mem ?_⟩
  intro e e' hmem hmem' hdiff ciphertext hacc hacc'
  obtain ⟨key, plaintext, hkey, hopen⟩ := accepts_handed hrun hmem hacc
  obtain ⟨key', plaintext', hkey', hopen'⟩ := accepts_handed hrun hmem' hacc'
  obtain rfl := hone _ _ _ _ _ hopen hopen'
  exact hdiff key hkey hkey'

/-- A message sent to a fresh session twice. -/
theorem no_replay_sample : ∃ (s : RatchetState freeSuite) (evs : List (Use freeSuite)),
    evs.length = 2 ∧
    Run (Call.Step (fun _ => True) aesDecryptGCM)
      (newRatchetStateReceiver (fill 32 1) (fill 32 3) (fill 32 3) (fill 20 2) (fill 20 1))
      evs s ∧
    (evs.Pairwise fun e e' => ∀ key, e.handed = some key → e'.handed ≠ some key) := by
  have hrun : Run (Call.Step (K := freeSuite) (fun _ => True) aesDecryptGCM)
      (newRatchetStateReceiver (fill 32 1) (fill 32 3) (fill 32 3) (fill 20 2) (fill 20 1)) _ _ :=
    (Run.nil.snoc (.decrypt (MessageHeader.mk (fill 32 8) 0 0).encode [] (.ok (fill 32 6))
      fun _ _ => trivial)).snoc
      (.decrypt (MessageHeader.mk (fill 32 8) 0 0).encode [] (.ok (fill 32 7)) fun _ _ => trivial)
  exact ⟨_, _, rfl, hrun,
    (no_replay freeSuite_ideal freeSuite_opensUnderOneKey (.receiver _ _ _ _ _) hrun).1⟩

end Zentalk
