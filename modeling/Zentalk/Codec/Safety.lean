import Zentalk.Codec.Formats

/-!
# Decoders on arbitrary bytes

Most decoders panic when the buffer ends too early (`decode_ne_panic_iff`).
-/

namespace Zentalk

open Wire Reader List UInt32 OnlyPanics

/-! ## Decoders without a check -/

namespace WireFormat

/-- The buffer starts with the encoding of a message whose lengths fit. -/
def Starts (F : WireFormat) (b : Bytes) : Prop := ∃ m e, F.Small m ∧ F.encode m = some e ∧ e <+: b

variable {F : WireFormat}

theorem Exact.starts_iff (h : F.Exact) (b : Bytes) : F.Starts b ↔ ∃ m, F.decode b = .ok m := by
  constructor
  · rintro ⟨m, e, hsmall, he, t, ht⟩
    exact ⟨m, (h.decode_ok_iff b m).mpr ⟨e, t, he, hsmall, ht.symm⟩⟩
  · rintro ⟨m, hdecode⟩
    obtain ⟨e, t, he, hsmall, hb⟩ := (h.decode_ok_iff b m).mp hdecode
    exact ⟨m, e, hsmall, he, t, hb.symm⟩

def uncheckedFormats : List WireFormat :=
  [directMessage, groupMessage, handshakeMessage, relayForward, groupCreateMessage,
    groupJoinMessage, groupLeaveMessage, groupUpdateMessage, profileUpdate]

theorem uncheckedFormats_subset (hF : F ∈ uncheckedFormats) : F ∈ canonicalFormats := by
  have hall : ∀ F ∈ uncheckedFormats, F ∈ canonicalFormats := by
    simp [uncheckedFormats, canonicalFormats]
  exact hall F hF

theorem onlyPanics_handshake : OnlyPanics HandshakeMessage.read := by
  repeat' first | simp | refine bind ?_ fun _ => ?_

theorem unchecked_ne_panic_iff (hF : F ∈ uncheckedFormats) (b : Bytes) :
    F.decode b ≠ .error .panic ↔ ∃ m, F.decode b = .ok m := by
  have hall : ∀ F ∈ uncheckedFormats, F.decode b ≠ .error .panic ↔ ∃ m, F.decode b = .ok m := by
    simp only [uncheckedFormats, forall_mem_cons]
    refine ⟨run ?_ _, run ?_ _, onlyPanics_handshake.run _, run ?_ _, run ?_ _, run ?_ _, run ?_ _,
      run ?_ _, run ?_ _, forall_mem_nil _⟩
    all_goals repeat' first | simp | refine bind ?_ fun _ => ?_
  exact hall F hF

theorem onlyPanics_keyBundle : OnlyPanics KeyBundle.readFields := by
  repeat' first | simp | apply OnlyPanics.items | refine OnlyPanics.bind ?_ fun _ => ?_

/-- The first check covers the fixed fields only. -/
theorem keyBundle_ne_panic_iff (b : Bytes) : keyBundle.decode b ≠ .error .panic ↔
    b.length < 168 ∨ ∃ m, keyBundle.decode b = .ok m := by
  have hdecode : keyBundle.decode b =
      if b.length < 168 then .error (.error "buffer too short for key bundle")
      else KeyBundle.readFields.run (.full b) :=
    run_need 168 _ KeyBundle.readFields (.full b)
  rw [hdecode]
  split
  · next hlen => exact iff_of_true (fun h => by cases h) (.inl hlen)
  · next hlen =>
    rw [or_iff_right hlen]
    exact onlyPanics_keyBundle.run _

end WireFormat

/-! ## Handshakes at a relay -/

def flagPadded : UInt16 := 0x0020

/-- `RemoveMessagePadding`, for the flags and the payload of a message. -/
def removeMessagePadding (flags : UInt16) (payload : Bytes) : Except String Slice :=
  if flags &&& flagPadded = 0 then .ok (.full payload)
  else if payload.length < 4 then .error "padded message too short"
  else
    let originalLen := (getUint32 (slice payload 0 4)).toNat
    let padded := payload.drop 4
    if originalLen > padded.length then .error "failed to remove padding: invalid padding length"
    else .ok ⟨padded.take originalLen, padded.drop originalLen⟩

/-- The slice that `handleHandshake` decodes. -/
def handshakeSlice (flags : UInt16) (payload : Bytes) : Slice :=
  match removeMessagePadding flags payload with
  | .error _ => .full payload
  | .ok unpadded => unpadded

/-- `handleHandshake` up to the registration of the peer; `importPublicKeyPEM` is given by its
errors. -/
def acceptHandshake (importPublicKeyPEM : Bytes → Except String Unit) (flags : UInt16)
    (payload : Bytes) : Except Fault HandshakeMessage :=
  match HandshakeMessage.read.run (handshakeSlice flags payload) with
  | .error e => .error e
  | .ok hs =>
    match importPublicKeyPEM hs.publicKey with
    | .error e => .error (.error e)
    | .ok () => .ok hs

/-- The slice starts with a handshake, whose signature may reach behind the slice. -/
def HandshakeMessage.StartsSlice (buf : Slice) : Prop :=
  ∃ m : HandshakeMessage, m.Small ∧ m.encode <+: buf.bytes ++ buf.spare ∧
    39 + m.publicKey.length ≤ buf.bytes.length

namespace HandshakeMessage

theorem widens_readHead : Widens readHead :=
  widens_uint16.bind fun _ => (widens_array 20).bind fun _ => widens_counted.bind fun _ =>
    widens_byte.bind fun _ => widens_uint64.bind fun _ => widens_uint32.bind fun _ => .pure _

theorem widens_read : Widens read :=
  widens_readHead.bind fun out => (widens_sub out.2.toNat).bind fun _ => .pure _

theorem endsInside_readHead : EndsInside readHead :=
  .bind fun _ => .bind fun _ => .bind fun _ => .bind fun _ => .bind fun _ => endsInside_uint32 _

theorem startsSlice_of_run {buf : Slice} {m : HandshakeMessage} (hrun : read.run buf = .ok m) :
    StartsSlice buf := by
  obtain ⟨offset, hread⟩ := Reader.run_ok_iff.mp hrun
  have hwide : read.run (.full (buf.bytes ++ buf.spare)) = .ok m :=
    Reader.run_ok_iff.mpr ⟨offset, widens_read buf.within_full hread⟩
  obtain ⟨_, post, harray, rfl, hsmall⟩ := (reads.run_ok_iff _ m).mp hwide
  refine ⟨m, hsmall, ⟨post, harray.symm⟩, ?_⟩
  obtain ⟨⟨m', sigLen⟩, mid, hhead, hrest⟩ := bind_ok_iff.mp hread
  obtain ⟨signature, end', -, hpure⟩ := bind_ok_iff.mp hrest
  cases hpure
  obtain ⟨_, _, -, hmid, rfl, -⟩ :=
    (readsHead [] _ _ _).mp (widens_readHead buf.within_full hhead)
  have hinside := endsInside_readHead hhead
  simp only [hmid, length_nil, Nat.zero_add, length_head] at hinside
  exact hinside

theorem run_of_startsSlice {buf : Slice} (h : StartsSlice buf) : ∃ m, read.run buf = .ok m := by
  obtain ⟨m, ⟨hkey, hsig⟩, ⟨post, hpost⟩, hinside⟩ := h
  have hlen : m.signature.length = (ofNat m.signature.length).toNat :=
    (toNat_ofNat_of_lt' hsig).symm
  have hsplit : buf.bytes ++ buf.spare =
      m.head (ofNat m.signature.length) ++ (m.signature ++ post) := by
    rw [← hpost, encode_eq hlen, append_assoc]
  -- the fields before the signature lie in the slice itself
  obtain ⟨t, ht⟩ : m.head (ofNat m.signature.length) <+: buf.bytes := by
    refine prefix_of_prefix_length_le ⟨_, hsplit.symm⟩ (prefix_append _ _) ?_
    rw [length_head]
    exact hinside
  have hhead : readHead buf 0 = .ok (({ m with signature := [] },
      ofNat m.signature.length), 39 + m.publicKey.length) := by
    refine widens_readHead buf.full_within ?_
    refine (readsHead [] _ _ _).mpr ⟨_, t, ht.symm, ?_, rfl, hkey, rfl⟩
    rw [length_nil, Nat.zero_add, length_head]
  have hroom : 39 + m.publicKey.length + (ofNat m.signature.length).toNat ≤
      buf.bytes.length + buf.spare.length := by
    rw [← length_append, hsplit, length_append, length_append, length_head, ← hlen]
    omega
  have hread := bind_of_ok (f := fun out : HandshakeMessage × UInt32 => do
    let signature ← sub out.2.toNat
    return { out.1 with signature }) hhead
  rw [bind_of_ok (show sub _ buf _ = _ from if_pos hroom)] at hread
  exact ⟨_, Reader.run_ok_iff.mpr ⟨_, hread⟩⟩

end HandshakeMessage

open WireFormat

theorem acceptHandshake_ne_panic_iff (importPublicKeyPEM : Bytes → Except String Unit)
    (flags : UInt16) (payload : Bytes) :
    acceptHandshake importPublicKeyPEM flags payload ≠ .error .panic ↔
      HandshakeMessage.StartsSlice (handshakeSlice flags payload) := by
  have hstarts : HandshakeMessage.StartsSlice (handshakeSlice flags payload) ↔
      HandshakeMessage.read.run (handshakeSlice flags payload) ≠ .error .panic := by
    rw [onlyPanics_handshake.run]
    exact ⟨HandshakeMessage.run_of_startsSlice, fun ⟨m, h⟩ => HandshakeMessage.startsSlice_of_run h⟩
  rw [hstarts]
  unfold acceptHandshake
  split
  · next e heq => rw [heq]
  · next hs heq =>
    rw [heq]
    refine iff_of_true ?_ (fun h => by cases h)
    split <;> exact fun h => by cases h

/-- A decoder without a check does not panic just on buffers that start with the encoding of a
message, `DecodeKeyBundle` on these and on short ones, and `handleHandshake` on payloads that start
with a handshake; its signature may reach into the padding. -/
theorem decode_ne_panic_iff (b : Bytes) :
    (∀ F ∈ uncheckedFormats, F.decode b ≠ .error .panic ↔ F.Starts b) ∧
    (keyBundle.decode b ≠ .error .panic ↔ b.length < 168 ∨ keyBundle.Starts b) ∧
    (∀ importPublicKeyPEM flags, acceptHandshake importPublicKeyPEM flags b ≠ .error .panic ↔
      HandshakeMessage.StartsSlice (handshakeSlice flags b)) := by
  refine ⟨fun F hF => ?_, ?_, fun importPublicKeyPEM flags =>
    acceptHandshake_ne_panic_iff importPublicKeyPEM flags b⟩
  · rw [(exact_of_mem (uncheckedFormats_subset hF)).starts_iff]
    exact unchecked_ne_panic_iff hF b
  · have hmem : keyBundle ∈ canonicalFormats := by simp [canonicalFormats]
    rw [(exact_of_mem hmem).starts_iff]
    exact keyBundle_ne_panic_iff b

set_option maxRecDepth 4000 in
/-- A handshake without a payload makes the relay panic; an empty buffer does so to each decoder
without a check, and a missing one-time prekey to that of key bundles. -/
theorem handshake_panic :
    acceptHandshake (fun _ => .ok ()) 0 [] = .error .panic ∧
    (∀ F ∈ uncheckedFormats, F.decode [] = .error .panic) ∧
    keyBundle.decode (List.replicate 167 0 ++ [1]) = .error .panic := by
  refine ⟨rfl, ?_, rfl⟩
  simp only [uncheckedFormats, forall_mem_cons]
  exact ⟨rfl, rfl, rfl, rfl, rfl, rfl, rfl, rfl, rfl, forall_mem_nil _⟩

end Zentalk
