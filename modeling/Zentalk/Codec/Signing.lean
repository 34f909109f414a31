import Zentalk.Codec.Messages

/-!
# What is signed

Nothing in the bytes says which kind of message they belong to (`signing_unambiguous_iff`).
-/

namespace Zentalk

open Wire List

/-! ## The encoders -/

namespace GroupJoinMessage

/-- `GroupJoinMessage.EncodeForSigning`. -/
def signingLayout (m : GroupJoinMessage) : Layout where
  size := 32 + 20 + 8
  writes :=
    [.copy m.groupID.bytes,
      .copy m.memberAddr.bytes,
      .put (putUint 8 m.timestamp.toNat)]

def encodeForSigning (m : GroupJoinMessage) : Bytes := m.signingLayout.content

/-- The message without its signature. -/
def unsigned (m : GroupJoinMessage) : GroupJoinMessage := { m with signature := [] }

variable (m : GroupJoinMessage)

theorem signingLayout_run : m.signingLayout.run = some m.encodeForSigning := by
  refine Layout.run_eq ?_
  simp [signingLayout]

theorem length_encodeForSigning : m.encodeForSigning.length = 60 := by
  simp [encodeForSigning, signingLayout]

theorem encode_unsigned : m.unsigned.encode = m.encodeForSigning ++ putUint 4 0 := by
  simp [encode, layout, encodeForSigning, signingLayout, unsigned]

theorem unsigned_eq_of_signing_eq {m₁ m₂ : GroupJoinMessage}
    (h : m₁.encodeForSigning = m₂.encodeForSigning) : m₁.unsigned = m₂.unsigned := by
  refine reads.encode_inj ?_ ?_ ?_
  · exact Nat.two_pow_pos 32
  · exact Nat.two_pow_pos 32
  · rw [encode_unsigned, encode_unsigned, h]

end GroupJoinMessage

def GroupLeaveMessage.encodeForSigning (m : GroupLeaveMessage) : Bytes :=
  GroupJoinMessage.encodeForSigning m

namespace GroupUpdateMessage

/-- `GroupUpdateMessage.EncodeForSigning`. -/
def signingLayout (m : GroupUpdateMessage) : Layout where
  size := 32 + 1 + 20 + 8 + 4 + m.newGroupName.length + 20
  writes :=
    [.copy m.groupID.bytes,
      .put [m.updateType],
      .copy m.updatedBy.bytes,
      .put (putUint 8 m.timestamp.toNat),
      .put (putUint 4 m.newGroupName.length),
      .copy m.newGroupName,
      .copy m.memberAddr.bytes]

def encodeForSigning (m : GroupUpdateMessage) : Bytes := m.signingLayout.content

def unsigned (m : GroupUpdateMessage) : GroupUpdateMessage := { m with signature := [] }

variable (m : GroupUpdateMessage)

theorem signingLayout_run : m.signingLayout.run = some m.encodeForSigning := by
  refine Layout.run_eq ?_
  simp [signingLayout]
  omega

theorem length_encodeForSigning : m.encodeForSigning.length = 85 + m.newGroupName.length := by
  simp [encodeForSigning, signingLayout]
  omega

theorem encode_unsigned : m.unsigned.encode = m.encodeForSigning ++ putUint 4 0 := by
  simp [encode, layout, encodeForSigning, signingLayout, unsigned]

theorem unsigned_eq_of_signing_eq {m₁ m₂ : GroupUpdateMessage} (h₁ : m₁.Small) (h₂ : m₂.Small)
    (h : m₁.encodeForSigning = m₂.encodeForSigning) : m₁.unsigned = m₂.unsigned := by
  refine reads.encode_inj ?_ ?_ ?_
  · exact ⟨h₁.1, Nat.two_pow_pos 32⟩
  · exact ⟨h₂.1, Nat.two_pow_pos 32⟩
  · rw [encode_unsigned, encode_unsigned, h]

end GroupUpdateMessage

namespace ProfileUpdate

/-- `ProfileUpdate.EncodeForSigning`. -/
def signingLayout (m : ProfileUpdate) : Layout where
  size := 20 + 32 + 8 + 32 + 256 + 4 + m.publicKey.length + 8
  writes :=
    [.copy m.address.bytes,
      .copy m.username.bytes,
      .put (putUint 8 m.avatarChunkID.toNat),
      .copy m.avatarKey.bytes,
      .copy m.bio.bytes,
      .put (putUint 4 m.publicKey.length),
      .copy m.publicKey,
      .put (putUint 8 m.timestamp.toNat)]

def encodeForSigning (m : ProfileUpdate) : Bytes := m.signingLayout.content

def unsigned (m : ProfileUpdate) : ProfileUpdate := { m with signature := [] }

variable (m : ProfileUpdate)

theorem signingLayout_run : m.signingLayout.run = some m.encodeForSigning := by
  refine Layout.run_eq ?_
  simp [signingLayout]
  omega

theorem length_encodeForSigning : m.encodeForSigning.length = 360 + m.publicKey.length := by
  simp [encodeForSigning, signingLayout]
  omega

theorem encode_unsigned : m.unsigned.encode = m.encodeForSigning ++ putUint 4 0 := by
  simp [encode, layout, encodeForSigning, signingLayout, unsigned]

theorem unsigned_eq_of_signing_eq {m₁ m₂ : ProfileUpdate} (h₁ : m₁.Small) (h₂ : m₂.Small)
    (h : m₁.encodeForSigning = m₂.encodeForSigning) : m₁.unsigned = m₂.unsigned := by
  refine reads.encode_inj ?_ ?_ ?_
  · exact ⟨h₁.1, Nat.two_pow_pos 32⟩
  · exact ⟨h₂.1, Nat.two_pow_pos 32⟩
  · rw [encode_unsigned, encode_unsigned, h]

end ProfileUpdate

/-! ## Updates that read as profiles -/

/-- The fields of an update and of a profile, laid over each other at the offsets 0, 32, 33, 53, 61
and 65 of the update. -/
structure Overlay (u : GroupUpdateMessage) (p : ProfileUpdate) : Prop where
  groupID : u.groupID.bytes = p.address.bytes ++ slice p.username.bytes 0 12
  updateType : [u.updateType] = slice p.username.bytes 12 1
  updatedBy : u.updatedBy.bytes =
    slice p.username.bytes 13 19 ++ slice (putUint 8 p.avatarChunkID.toNat) 0 1
  timestamp : putUint 8 u.timestamp.toNat =
    slice (putUint 8 p.avatarChunkID.toNat) 1 7 ++ slice p.avatarKey.bytes 0 1
  nameLength : putUint 4 u.newGroupName.length = slice p.avatarKey.bytes 1 4
  rest : u.newGroupName ++ u.memberAddr.bytes = slice p.avatarKey.bytes 5 27 ++ p.bio.bytes ++
    putUint 4 p.publicKey.length ++ p.publicKey ++ putUint 8 p.timestamp.toNat

theorem append_eq_iff {a b c d : Bytes} (h : a.length = c.length) :
    a ++ b = c ++ d ↔ a = c ∧ b = d := by
  constructor
  · intro heq
    exact append_inj heq h
  · rintro ⟨rfl, rfl⟩
    rfl

theorem cut_two {b : Bytes} {n m : ℕ} (h : b.length = n + m) : slice b 0 n ++ slice b n m = b := by
  have hlast : slice b n m = b.drop n := by
    refine take_of_length_le ?_
    rw [length_drop, h, Nat.add_sub_cancel_left]
  rw [hlast, slice, drop_zero, take_append_drop]

theorem cut_three {b : Bytes} {n m k : ℕ} (h : b.length = n + m + k) :
    slice b 0 n ++ (slice b n m ++ slice b (n + m) k) = b := by
  have hlast : slice b (n + m) k = b.drop (n + m) := by
    refine take_of_length_le ?_
    rw [length_drop, h, Nat.add_sub_cancel_left]
  rw [hlast, slice_append_drop, slice, drop_zero, take_append_drop]

/-- The signed bytes of a profile, cut at the fields of an update. -/
theorem signing_profile_cut (p : ProfileUpdate) :
    p.encodeForSigning = (p.address.bytes ++ slice p.username.bytes 0 12) ++
      (slice p.username.bytes 12 1 ++
        ((slice p.username.bytes 13 19 ++ slice (putUint 8 p.avatarChunkID.toNat) 0 1) ++
          ((slice (putUint 8 p.avatarChunkID.toNat) 1 7 ++ slice p.avatarKey.bytes 0 1) ++
            (slice p.avatarKey.bytes 1 4 ++
              (slice p.avatarKey.bytes 5 27 ++ p.bio.bytes ++ putUint 4 p.publicKey.length ++
                p.publicKey ++ putUint 8 p.timestamp.toNat))))) := by
  have husername := cut_three (m := 1) (k := 19) p.username.length_bytes
  have hchunk := cut_two (m := 7) (length_putUint 8 p.avatarChunkID.toNat)
  have hkey := cut_three (m := 4) (k := 27) p.avatarKey.length_bytes
  calc p.encodeForSigning
      = p.address.bytes ++ (p.username.bytes ++ (putUint 8 p.avatarChunkID.toNat ++
          (p.avatarKey.bytes ++ (p.bio.bytes ++ (putUint 4 p.publicKey.length ++
            (p.publicKey ++ putUint 8 p.timestamp.toNat)))))) := by
        simp [ProfileUpdate.encodeForSigning, ProfileUpdate.signingLayout]
    _ = _ := by
        conv_lhs => rw [← husername, ← hchunk, ← hkey]
        simp only [append_assoc, Nat.reduceAdd]

theorem overlay_iff (u : GroupUpdateMessage) (p : ProfileUpdate) :
    u.encodeForSigning = p.encodeForSigning ↔ Overlay u p := by
  have hu : u.encodeForSigning = u.groupID.bytes ++ ([u.updateType] ++ (u.updatedBy.bytes ++
      (putUint 8 u.timestamp.toNat ++ (putUint 4 u.newGroupName.length ++
        (u.newGroupName ++ u.memberAddr.bytes))))) := by
    simp [GroupUpdateMessage.encodeForSigning, GroupUpdateMessage.signingLayout]
  have hname : (slice p.username.bytes 0 12).length = 12 := length_slice (by simp)
  have htype : (slice p.username.bytes 12 1).length = 1 := length_slice (by simp)
  have hby : (slice p.username.bytes 13 19).length = 19 := length_slice (by simp)
  have hchunk : (slice (putUint 8 p.avatarChunkID.toNat) 0 1).length = 1 := length_slice (by simp)
  have hchunk' : (slice (putUint 8 p.avatarChunkID.toNat) 1 7).length = 7 := length_slice (by simp)
  have hkey : (slice p.avatarKey.bytes 0 1).length = 1 := length_slice (by simp)
  have hkey' : (slice p.avatarKey.bytes 1 4).length = 4 := length_slice (by simp)
  rw [hu, signing_profile_cut, append_eq_iff (by simp [hname]), append_eq_iff (by simp [htype]),
    append_eq_iff (by simp [hby, hchunk]), append_eq_iff (by simp [hchunk', hkey]),
    append_eq_iff (by simp [hkey'])]
  constructor
  · rintro ⟨h₁, h₂, h₃, h₄, h₅, h₆⟩
    exact ⟨h₁, h₂, h₃, h₄, h₅, h₆⟩
  · rintro ⟨h₁, h₂, h₃, h₄, h₅, h₆⟩
    exact ⟨h₁, h₂, h₃, h₄, h₅, h₆⟩

/-- There are such pairs: a name of 275 bytes, whose length the profile has in its avatar key. -/
example : Overlay
    ⟨.zero 32, 0, .zero 20, 0, List.replicate 275 0, .zero 20, []⟩
    ⟨.zero 20, .zero 32, 0, .ofSlice 32 [0, 0, 0, 1, 0x13], .zero 256, [], 0, []⟩ := by
  constructor <;> decide +kernel

/-! ## Signed messages -/

/-- The messages that are signed. -/
inductive SignedMessage
  | join (m : GroupJoinMessage)
  | leave (m : GroupLeaveMessage)
  | update (m : GroupUpdateMessage)
  | profile (m : ProfileUpdate)

namespace SignedMessage

def encodeForSigning : SignedMessage → Bytes
  | join m => m.encodeForSigning
  | leave m => GroupLeaveMessage.encodeForSigning m
  | update m => m.encodeForSigning
  | profile m => m.encodeForSigning

/-- The variable-length fields fit their length fields. -/
def Small : SignedMessage → Prop
  | join m => m.Small
  | leave m => GroupJoinMessage.Small m
  | update m => m.Small
  | profile m => m.Small

/-- The message without its signature: its kind and all other fields. -/
def unsigned : SignedMessage → SignedMessage
  | join m => join m.unsigned
  | leave m => leave (GroupJoinMessage.unsigned m)
  | update m => update m.unsigned
  | profile m => profile m.unsigned

def Confusable : SignedMessage → SignedMessage → Prop
  | join m, leave m' => m.unsigned = GroupJoinMessage.unsigned m'
  | leave m, join m' => GroupJoinMessage.unsigned m = m'.unsigned
  | update u, profile p => Overlay u p
  | profile p, update u => Overlay u p
  | _, _ => False

end SignedMessage

theorem signing_eq_of_unsigned_eq {m₁ m₂ : GroupJoinMessage} (h : m₁.unsigned = m₂.unsigned) :
    m₁.encodeForSigning = m₂.encodeForSigning := by
  have hsame (m : GroupJoinMessage) : m.unsigned.encodeForSigning = m.encodeForSigning := rfl
  rw [← hsame m₁, h, hsame]

variable {m₁ m₂ : SignedMessage}

/-- Equal signed bytes come from messages that differ in the signature only, or are confusable. -/
theorem signing_eq_cases (h₁ : m₁.Small) (h₂ : m₂.Small)
    (h : m₁.encodeForSigning = m₂.encodeForSigning) :
    m₁.unsigned = m₂.unsigned ∨ m₁.Confusable m₂ := by
  have hlen := congrArg List.length h
  cases m₁ <;> cases m₂ <;>
    simp only [SignedMessage.encodeForSigning, GroupLeaveMessage.encodeForSigning,
      GroupJoinMessage.length_encodeForSigning, GroupUpdateMessage.length_encodeForSigning,
      ProfileUpdate.length_encodeForSigning] at h hlen
  case join.join =>
    have hfields := GroupJoinMessage.unsigned_eq_of_signing_eq h
    exact .inl (congrArg SignedMessage.join hfields)
  case join.leave => exact .inr (GroupJoinMessage.unsigned_eq_of_signing_eq h)
  case leave.join => exact .inr (GroupJoinMessage.unsigned_eq_of_signing_eq h)
  case leave.leave =>
    have hfields := GroupJoinMessage.unsigned_eq_of_signing_eq h
    exact .inl (congrArg SignedMessage.leave hfields)
  case update.update =>
    have hfields := GroupUpdateMessage.unsigned_eq_of_signing_eq h₁ h₂ h
    exact .inl (congrArg SignedMessage.update hfields)
  case update.profile => exact .inr ((overlay_iff _ _).mp h)
  case profile.update => exact .inr ((overlay_iff _ _).mp h.symm)
  case profile.profile =>
    have hfields := ProfileUpdate.unsigned_eq_of_signing_eq h₁ h₂ h
    exact .inl (congrArg SignedMessage.profile hfields)
  all_goals omega

theorem signing_eq_of_confusable (h : m₁.Confusable m₂) :
    m₁.encodeForSigning = m₂.encodeForSigning ∧ m₁.unsigned ≠ m₂.unsigned := by
  cases m₁ <;> cases m₂
  case join.leave => exact ⟨signing_eq_of_unsigned_eq h, SignedMessage.noConfusion⟩
  case leave.join => exact ⟨signing_eq_of_unsigned_eq h, SignedMessage.noConfusion⟩
  case update.profile => exact ⟨(overlay_iff _ _).mpr h, SignedMessage.noConfusion⟩
  case profile.update => exact ⟨((overlay_iff _ _).mpr h).symm, SignedMessage.noConfusion⟩
  all_goals exact h.elim

/-! ## Signatures -/

/-- RSA signatures over SHA-256: `SignData`, which may fail, and `VerifySignature`. -/
structure RsaSignatures (PrivateKey PublicKey : Type) where
  publicKey : PrivateKey → PublicKey
  signData : Bytes → PrivateKey → Except String Bytes
  verifySignature : Bytes → Bytes → PublicKey → Bool

variable {PrivateKey PublicKey : Type}

def RsaSignatures.Binding (R : RsaSignatures PrivateKey PublicKey) : Prop :=
  ∀ data data' key signature, R.signData data key = .ok signature →
    (R.verifySignature data' signature (R.publicKey key) = true ↔ data' = data)

/-- A signature that a key gives for `m₁` verifies for `m₂`. -/
def RsaSignatures.Carries (R : RsaSignatures PrivateKey PublicKey) (m₁ m₂ : SignedMessage) : Prop :=
  ∃ key signature, R.signData m₁.encodeForSigning key = .ok signature ∧
    R.verifySignature m₂.encodeForSigning signature (R.publicKey key) = true

/-- The signed bytes tell two messages apart, unless they are a join and a leave with the same
fields or an update and a profile whose fields overlay. -/
theorem signing_unambiguous_iff (R : RsaSignatures PrivateKey PublicKey) (hR : R.Binding)
    (m₁ m₂ : SignedMessage) (h₁ : m₁.Small) (h₂ : m₂.Small) :
    ((m₁.encodeForSigning = m₂.encodeForSigning → m₁.unsigned = m₂.unsigned) ∧
      (R.Carries m₁ m₂ → m₁.unsigned = m₂.unsigned)) ↔ ¬ m₁.Confusable m₂ := by
  constructor
  · rintro ⟨hbytes, -⟩ hconf
    obtain ⟨heq, hne⟩ := signing_eq_of_confusable hconf
    exact hne (hbytes heq)
  · intro hconf
    have hbytes (heq : m₁.encodeForSigning = m₂.encodeForSigning) : m₁.unsigned = m₂.unsigned :=
      (signing_eq_cases h₁ h₂ heq).resolve_right hconf
    refine ⟨hbytes, ?_⟩
    rintro ⟨key, signature, hsign, hverify⟩
    exact hbytes ((hR _ _ key signature hsign).mp hverify).symm

/-- Signatures that are the data itself. -/
def plainSignatures : RsaSignatures Unit Unit where
  publicKey key := key
  signData data _ := .ok data
  verifySignature data signature _ := data == signature

theorem plainSignatures_binding : plainSignatures.Binding := by
  intro data data' key signature hsign
  cases hsign
  exact beq_iff_eq

def sampleRequest (timestamp : UInt64) : GroupJoinMessage :=
  ⟨ByteArr.zero 32, ByteArr.zero 20, timestamp, []⟩

theorem signing_unambiguous_at_two_times :
    ((SignedMessage.join (sampleRequest 0)).encodeForSigning =
        (SignedMessage.leave (sampleRequest 1)).encodeForSigning →
      (SignedMessage.join (sampleRequest 0)).unsigned =
        (SignedMessage.leave (sampleRequest 1)).unsigned) ∧
    (plainSignatures.Carries (.join (sampleRequest 0)) (.leave (sampleRequest 1)) →
      (SignedMessage.join (sampleRequest 0)).unsigned =
        (SignedMessage.leave (sampleRequest 1)).unsigned) := by
  refine (signing_unambiguous_iff plainSignatures plainSignatures_binding
    (.join (sampleRequest 0)) (.leave (sampleRequest 1)) (Nat.two_pow_pos 32)
    (Nat.two_pow_pos 32)).mpr ?_
  intro h
  exact absurd (congrArg GroupJoinMessage.timestamp h) (by decide)

/-- The signature of a leave verifies for the request to join. -/
theorem leave_signature_carries_join :
    (SignedMessage.leave (sampleRequest 0)).encodeForSigning =
      (SignedMessage.join (sampleRequest 0)).encodeForSigning ∧
    (SignedMessage.leave (sampleRequest 0)).unsigned ≠
      (SignedMessage.join (sampleRequest 0)).unsigned ∧
    plainSignatures.Carries (.leave (sampleRequest 0)) (.join (sampleRequest 0)) := by
  refine ⟨rfl, SignedMessage.noConfusion, (), _, rfl, ?_⟩
  exact beq_self_eq_true _

end Zentalk
