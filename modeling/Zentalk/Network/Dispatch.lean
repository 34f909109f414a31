import Zentalk.Codec.Messages
import Zentalk.Network.Trial

/-!
# What a plaintext is taken for

The first of five decoders that accepts the bytes decides (`dispatch_own_iff`).
-/

namespace Zentalk

open Wire Reader Option ByteArr DirectMessage Nat

/-! ## The attempts -/

/-- What a message can be, with the handler that it goes to: `handleOrderedMessage` for a direct
message and the callback of its kind for any other. -/
inductive Content
  | direct (m : DirectMessage)
  | group (m : GroupMessage)
  | profile (m : ProfileUpdate)
  | typing (m : TypingIndicator)
  | receipt (m : ReadReceipt)

/-- The bytes are decoded, and the message has to be for this client. An error and a panic both end
it. -/
def attempt {α : Type} (read : Reader α) (mine : α → Bool) (finalPlaintext : Bytes) : Option α :=
  match read.run (.full finalPlaintext) with
  | .ok m => if mine m then some m else none
  | .error _ => none

/-- `handleDirectMessage` from the first attempt on. -/
def dispatch (self : Address) (finalPlaintext : Bytes) : Option Content :=
  ((attempt DirectMessage.read (fun m => m.toAddr = self) finalPlaintext).map .direct).or <|
  ((attempt GroupMessage.read (fun _ => true) finalPlaintext).map .group).or <|
  ((attempt ProfileUpdate.read (fun _ => true) finalPlaintext).map .profile).or <|
  ((attempt TypingIndicator.read (fun m => m.toAddr = self) finalPlaintext).map .typing).or <|
  (attempt ReadReceipt.read (fun m => m.toAddr = self) finalPlaintext).map .receipt

/-- The hybrid branch of `handleDirectMessage`: an AES key under RSA, and data under this key. -/
def hybridDecrypt (rsaDecrypt : Bytes → Option Bytes) (aesDecrypt : Bytes → Bytes → Option Bytes)
    (decrypted : Bytes) : Option Bytes :=
  let keyLen := getUint (slice decrypted 0 2)
  if 2 < decrypted.length ∧ 0 < keyLen ∧ keyLen < 1024 ∧ 2 + keyLen < decrypted.length then
    (rsaDecrypt (slice decrypted 2 keyLen)).bind fun aesKey =>
      aesDecrypt (decrypted.drop (2 + keyLen)) aesKey
  else none

/-- The bytes that the decoders are tried on. An empty plaintext counts as none; what nobody could
decrypt is tried as it is. -/
def finalPlaintext (env : ReceiveEnv) (aesDecrypt : Bytes → Bytes → Option Bytes)
    (payload : Bytes) (incoming : Incoming) : Option Bytes :=
  let hybrid := (hybridDecrypt env.rsaDecrypt aesDecrypt (env.unwrapped payload)).filter (· ≠ [])
  match incoming with
  | .sessionReady _ => none
  | .initialRefused _ => none
  | .decrypted _ plaintext =>
    if plaintext ≠ [] then some plaintext else some (hybrid.getD (env.unwrapped payload))
  | .passedOn decrypted => some (hybrid.getD decrypted)

/-- The whole of `handleDirectMessage`: the message that it hands to a handler. -/
def received {K : Suite} (c : Client K) (payload : Bytes) (env : ReceiveEnv)
    (aesDecrypt : Bytes → Bytes → Option Bytes) : Option Content :=
  (finalPlaintext env aesDecrypt payload (handleDirectMessage c payload env).2).bind
    (dispatch c.address)

namespace Content

def encode : Content → Bytes
  | direct m => m.encode
  | group m => m.encode
  | profile m => m.encode
  | typing m => m.encode
  | receipt m => m.encode

/-- A message whose lengths fit, addressed to `self` if its kind has an address. -/
def For (self : Address) : Content → Prop
  | direct m => m.Small ∧ m.toAddr = self
  | group m => m.Small
  | profile m => m.Small
  | typing m => m.toAddr = self
  | receipt m => m.toAddr = self

end Content

/-! ## What the decoders accept -/

/-- Two counted strings fit into the buffer from an offset on. -/
def TwoCounted (b : Bytes) (offset : ℕ) : Prop :=
  offset + 4 + countAt b offset + 4 + countAt b (offset + 4 + countAt b offset) ≤ b.length

instance (b : Bytes) (offset : ℕ) : Decidable (TwoCounted b offset) :=
  inferInstanceAs (Decidable (_ ≤ _))

/-- The bytes have the address of the client at offset 20, and two counted strings from 73 on. -/
def ReadsAsDirect (self : Address) (b : Bytes) : Prop :=
  slice b 20 20 = self.bytes ∧ TwoCounted b 73

/-- The bytes have two counted strings from offset 61 on. -/
def ReadsAsGroup (b : Bytes) : Prop := TwoCounted b 61

instance (self : Address) (b : Bytes) : Decidable (ReadsAsDirect self b) :=
  inferInstanceAs (Decidable (_ ∧ _))

instance (b : Bytes) : Decidable (ReadsAsGroup b) := inferInstanceAs (Decidable (TwoCounted b 61))

theorem attempt_eq_some_iff {α : Type} {read : Reader α} {mine : α → Bool} {b : Bytes} {m : α} :
    attempt read mine b = some m ↔ read.run (.full b) = .ok m ∧ mine m = true := by
  unfold attempt
  cases read.run (.full b) with
  | error e => simp
  | ok m' =>
    by_cases hmine : mine m' = true
    · simp only [hmine, if_true, some.injEq, Except.ok.injEq]
      constructor
      · rintro rfl
        exact ⟨rfl, hmine⟩
      · rintro ⟨rfl, -⟩
        rfl
    · simp only [hmine, Except.ok.injEq]
      constructor
      · intro h
        cases h
      · rintro ⟨rfl, h⟩
        exact absurd h hmine

theorem ofSlice_eq_iff {n offset : ℕ} {b : Bytes} (hle : offset + n ≤ b.length) (a : ByteArr n) :
    ofSlice n (slice b offset n) = a ↔ slice b offset n = a.bytes := by
  have hlen := length_slice hle
  constructor
  · rintro rfl
    exact (congrArg bytes (ofSlice_bytes ⟨slice b offset n, hlen⟩)).symm
  · intro h
    rw [h, ofSlice_bytes]

theorem readsAsDirect_iff (self : Address) (b : Bytes) :
    ReadsAsDirect self b ↔
      ∃ m, attempt DirectMessage.read (fun m => m.toAddr = self) b = some m := by
  simp only [attempt_eq_some_iff, run_ok_iff, DirectMessage.read, array_bind_ok_iff,
    uint64_bind_ok_iff, byte_bind_ok_iff, counted_bind_ok_iff, zero_add, reduceAdd,
    decide_eq_true_eq]
  constructor
  · rintro ⟨haddr, hfits⟩
    unfold TwoCounted at hfits
    refine ⟨_, ⟨_, ?_, ?_, ?_, ?_, ?_, ?_, ?_, ?_, rfl⟩, ?_⟩
    all_goals try omega
    exact (ofSlice_eq_iff (by omega) self).mpr haddr
  · rintro ⟨m, ⟨offset, -, haddr, -, -, -, -, -, hfits, hm⟩, hself⟩
    cases hm
    refine ⟨(ofSlice_eq_iff haddr self).mp hself, ?_⟩
    unfold TwoCounted
    omega

theorem readsAsGroup_iff (b : Bytes) :
    ReadsAsGroup b ↔ ∃ m, attempt GroupMessage.read (fun _ => true) b = some m := by
  simp only [attempt_eq_some_iff, run_ok_iff, GroupMessage.read, array_bind_ok_iff,
    uint64_bind_ok_iff, byte_bind_ok_iff, counted_bind_ok_iff, zero_add, reduceAdd,
    and_true]
  constructor
  · intro hfits
    unfold ReadsAsGroup TwoCounted at hfits
    refine ⟨_, _, ?_, ?_, ?_, ?_, ?_, ?_, rfl⟩
    all_goals omega
  · rintro ⟨m, offset, -, -, -, -, -, hfits, -⟩
    unfold ReadsAsGroup TwoCounted
    omega

/-! ## Each kind against the decoders before its own -/

namespace Content

/-- No decoder before that of its own kind accepts the encoding of the message. -/
def Unmistakable (self : Address) : Content → Prop
  | group m => ¬ ReadsAsDirect self m.encode
  | profile m => ¬ ReadsAsDirect self m.encode ∧ ¬ ReadsAsGroup m.encode
  | direct _ => True
  | typing _ => True
  | receipt _ => True

end Content

section

variable {b : Bytes} {self : Address}

theorem attempt_own {α : Type} {read : Reader α} {mine : α → Bool} {R : α → Bytes → Prop}
    (h : Reads read R) {m : α} (hm : R m b) (hmine : mine m = true) :
    attempt read mine b = some m := by
  refine attempt_eq_some_iff.mpr ⟨?_, hmine⟩
  exact (h.run_ok_iff b m).mpr ⟨b, [], (List.append_nil b).symm, hm⟩

theorem attempt_short {α : Type} {read : Reader α} {mine : α → Bool} {R : α → Bytes → Prop}
    (h : Reads read R) {n : ℕ} (hlen : ∀ m used, R m used → n ≤ used.length) (hb : b.length < n) :
    attempt read mine b = none := by
  refine eq_none_iff_forall_ne_some.mpr fun m hm => ?_
  obtain ⟨used, post, rfl, hR⟩ := (h.run_ok_iff b m).mp (attempt_eq_some_iff.mp hm).1
  have hle := hlen m used hR
  rw [List.length_append] at hb
  omega

theorem direct_refuses (h : ¬ ReadsAsDirect self b) :
    attempt DirectMessage.read (fun m => m.toAddr = self) b = none := by
  refine eq_none_iff_forall_ne_some.mpr fun m hm => h ?_
  exact (readsAsDirect_iff self b).mpr ⟨m, hm⟩

theorem group_refuses (h : ¬ ReadsAsGroup b) :
    attempt GroupMessage.read (fun _ => true) b = none := by
  refine eq_none_iff_forall_ne_some.mpr fun m hm => h ?_
  exact (readsAsGroup_iff b).mpr ⟨m, hm⟩

theorem dispatch_direct (h : ReadsAsDirect self b) : ∃ m, dispatch self b = some (.direct m) := by
  obtain ⟨m, hm⟩ := (readsAsDirect_iff self b).mp h
  refine ⟨m, ?_⟩
  rw [dispatch, hm]
  rfl

theorem dispatch_group (hdirect : ¬ ReadsAsDirect self b) (hgroup : ReadsAsGroup b) :
    ∃ m, dispatch self b = some (.group m) := by
  obtain ⟨m, hm⟩ := (readsAsGroup_iff b).mp hgroup
  refine ⟨m, ?_⟩
  rw [dispatch, direct_refuses hdirect, hm]
  rfl

theorem dispatch_short (hb : b.length < 69) :
    dispatch self b =
      ((attempt TypingIndicator.read (fun m => m.toAddr = self) b).map Content.typing).or
        ((attempt ReadReceipt.read (fun m => m.toAddr = self) b).map Content.receipt) := by
  have hdirect : ¬ ReadsAsDirect self b := by
    rintro ⟨-, hfits⟩
    unfold TwoCounted at hfits
    omega
  have hgroup : ¬ ReadsAsGroup b := by
    intro hfits
    unfold ReadsAsGroup TwoCounted at hfits
    omega
  have hprofile : attempt ProfileUpdate.read (fun _ => true) b = none := by
    refine attempt_short ProfileUpdate.reads ?_ hb
    rintro m _ ⟨rfl, -⟩
    simp [ProfileUpdate.encode, ProfileUpdate.layout]
    omega
  rw [dispatch, direct_refuses hdirect, group_refuses hgroup, hprofile]
  rfl

end

theorem typing_unmistaken {self : Address} {m : TypingIndicator} (hself : m.toAddr = self) :
    dispatch self m.encode = some (.typing m) := by
  have hlen : m.encode.length < 69 := by simp [TypingIndicator.encode, TypingIndicator.layout]
  have hown : attempt TypingIndicator.read (fun m => m.toAddr = self) m.encode = some m := by
    refine attempt_own TypingIndicator.reads ⟨if m.isTyping then 1 else 0, ?_, ?_⟩ ?_
    · cases m.isTyping <;> rfl
    · simp [TypingIndicator.encode, TypingIndicator.layout]
    · exact decide_eq_true hself
  rw [dispatch_short hlen, hown]
  rfl

theorem receipt_unmistaken {self : Address} {m : ReadReceipt} (hself : m.toAddr = self) :
    dispatch self m.encode = some (.receipt m) := by
  have hlen : m.encode.length < 69 := by simp [ReadReceipt.encode, ReadReceipt.layout]
  have hown : attempt ReadReceipt.read (fun m => m.toAddr = self) m.encode = some m :=
    attempt_own ReadReceipt.reads rfl (decide_eq_true hself)
  -- The first byte of a receipt is not that of an indicator.
  have htyping : attempt TypingIndicator.read (fun m => m.toAddr = self) m.encode = none := by
    refine eq_none_iff_forall_ne_some.mpr fun t ht => ?_
    obtain ⟨_, post, heq, v, -, rfl⟩ :=
      (TypingIndicator.reads.run_ok_iff _ t).mp (attempt_eq_some_iff.mp ht).1
    have hhead := congrArg List.head? heq
    simp [ReadReceipt.encode, ReadReceipt.layout] at hhead
  rw [dispatch_short hlen, htyping, hown]
  rfl

/-- An encoded message goes to the handler of its kind just when no decoder before that one accepts
it. -/
theorem dispatch_own_iff {K : Suite} (c : Client K) (payload : Bytes) (env : ReceiveEnv)
    (aesDecrypt : Bytes → Bytes → Option Bytes) (m : Content) (hm : m.For c.address)
    (hplain : finalPlaintext env aesDecrypt payload (handleDirectMessage c payload env).2 =
      some m.encode) :
    received c payload env aesDecrypt = some m ↔ m.Unmistakable c.address := by
  rw [received, hplain, bind_some]
  cases m with
  | direct m =>
    have hown : attempt read (fun m => m.toAddr = c.address) m.encode = some m :=
      attempt_own reads ⟨rfl, hm.1⟩ (decide_eq_true hm.2)
    rw [dispatch, Content.encode, hown]
    exact iff_of_true rfl trivial
  | group m =>
    show dispatch c.address m.encode = some (.group m) ↔ ¬ ReadsAsDirect c.address m.encode
    by_cases hdirect : ReadsAsDirect c.address m.encode
    · obtain ⟨d, hd⟩ := dispatch_direct hdirect
      simp [hd, hdirect]
    · have hown : attempt GroupMessage.read (fun _ => true) m.encode = some m :=
        attempt_own GroupMessage.reads ⟨rfl, hm⟩ rfl
      rw [dispatch, direct_refuses hdirect, hown]
      exact iff_of_true rfl hdirect
  | profile m =>
    show dispatch c.address m.encode = some (.profile m) ↔
      ¬ ReadsAsDirect c.address m.encode ∧ ¬ ReadsAsGroup m.encode
    by_cases hdirect : ReadsAsDirect c.address m.encode
    · obtain ⟨d, hd⟩ := dispatch_direct hdirect
      simp [hd, hdirect]
    · by_cases hgroup : ReadsAsGroup m.encode
      · obtain ⟨g, hg⟩ := dispatch_group hdirect hgroup
        simp [hg, hgroup]
      · have hown : attempt ProfileUpdate.read (fun _ => true) m.encode = some m :=
          attempt_own ProfileUpdate.reads ⟨rfl, hm⟩ rfl
        rw [dispatch, direct_refuses hdirect, group_refuses hgroup, hown]
        exact iff_of_true rfl ⟨hdirect, hgroup⟩
  | typing m => exact iff_of_true (typing_unmistaken hm) trivial
  | receipt m => exact iff_of_true (receipt_unmistaken hm) trivial

def loneClient : Client freeSuite :=
  { address := ofSlice 20 [7]
    connected := true
    x3dhIdentity := none
    signedPreKey := none
    oneTimePreKeys := ∅
    ratchetSessions := ∅
    keyBundleCache := ∅
    sessionStorage := none }

def plainEnv : ReceiveEnv where
  rsaDecrypt _ := none
  order := []
  rand _ := .error "no randomness"
  saveNew := .written

def sampleGroupMessage : GroupMessage := ⟨zero 20, zero 32, 0, 0, [], []⟩

theorem dispatch_own_group :
    received loneClient sampleGroupMessage.encode plainEnv (fun _ _ => none) =
      some (.group sampleGroupMessage) := by
  refine (dispatch_own_iff loneClient sampleGroupMessage.encode plainEnv (fun _ _ => none)
    (.group sampleGroupMessage) ?_ ?_).mpr ?_
  · exact ⟨Nat.two_pow_pos 32, Nat.two_pow_pos 32⟩
  · decide +kernel
  · show ¬ ReadsAsDirect loneClient.address sampleGroupMessage.encode
    decide +kernel

def sampleProfile : ProfileUpdate :=
  ⟨zero 20, ofSlice 32 (asciiBytes "alice"), 0, zero 32, zero 256, [], 0, []⟩

/-- The zeros of the avatar key are the lengths of a group message without content. -/
theorem profile_taken_for_group :
    (Content.profile sampleProfile).For loneClient.address ∧
    finalPlaintext plainEnv (fun _ _ => none) sampleProfile.encode
        (handleDirectMessage loneClient sampleProfile.encode plainEnv).2 =
      some (Content.profile sampleProfile).encode ∧
    ∃ g, received loneClient sampleProfile.encode plainEnv (fun _ _ => none) =
      some (.group g) := by
  have hplain : finalPlaintext plainEnv (fun _ _ => none) sampleProfile.encode
      (handleDirectMessage loneClient sampleProfile.encode plainEnv).2 =
        some sampleProfile.encode := by decide +kernel
  refine ⟨⟨Nat.two_pow_pos 32, Nat.two_pow_pos 32⟩, hplain, ?_⟩
  rw [received, hplain, bind_some]
  exact dispatch_group (by decide +kernel) (by decide +kernel)

end Zentalk
