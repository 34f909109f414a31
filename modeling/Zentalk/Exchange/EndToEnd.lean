import Zentalk.Exchange.Numbering
import Zentalk.Network.Dispatch
import Zentalk.Relay.Routing

/-!
# A direct message from end to end

`SendMessage`, the relays of the path, and `handleDirectMessage` of the recipient
(`direct_end_to_end`).
-/

namespace Zentalk

open Wire List DirectMessage

variable {S : OnionSuite} {ι : Type*} {K : Suite}

/-- The message is encrypted, the onion is built for the path, and both writes succeed. -/
structure DirectEnv.Sends (env : DirectEnv) (rand : ℕ → LayerRand S) (path : List (RelayInfo S))
    (msg : DirectMessage) (encryptedMsg : Bytes) : Prop where
  encrypts : env.rsaEncrypt msg.encode = .ok encryptedMsg
  builds : env.frame.buildOnion encryptedMsg = buildOnionLayers rand path msg.toAddr encryptedMsg
  header : env.frame.writeHeader = .ok ()
  onion : env.frame.writeOnion = .ok ()

section

theorem slice_encode (msg : DirectMessage) {n : ℕ} (hn : n ≤ 20) :
    slice msg.encode 0 n = slice msg.fromAddr.bytes 0 n := by
  simp only [slice, drop_zero, encode, append_assoc]
  exact take_append_of_le_length (msg.fromAddr.size_eq.symm ▸ hn)

variable {msg : DirectMessage} {encryptedMsg : Bytes} {c : Client K} {env : ReceiveEnv}
  (aesDecrypt : Bytes → Bytes → Option Bytes)
  (hdecrypt : env.rsaDecrypt encryptedMsg = some msg.encode)
include hdecrypt

theorem received_initial (hmarker : slice msg.fromAddr.bytes 0 4 = x3dhMarker) :
    received c encryptedMsg env aesDecrypt = none := by
  have hinitial : 4 < msg.encode.length ∧ slice msg.encode 0 4 = x3dhMarker := by
    refine ⟨?_, (slice_encode msg (by decide)).trans hmarker⟩
    simp [encode]
    omega
  rw [received, handleDirectMessage, hdecrypt, Option.getD_some, if_pos hinitial]
  split
  · rfl
  · split <;> rfl

/-- The first two bytes are no length of a ratchet header or of an encrypted key. -/
theorem received_direct (hlarge : 1024 ≤ getUint (slice msg.fromAddr.bytes 0 2))
    (hmarker : slice msg.fromAddr.bytes 0 4 ≠ x3dhMarker) (hsmall : msg.Small)
    (hto : msg.toAddr = c.address) :
    received c encryptedMsg env aesDecrypt = some (.direct msg) := by
  have hfirst := congrArg getUint (slice_encode msg (n := 2) (by decide))
  have hinitial : ¬ (4 < msg.encode.length ∧ slice msg.encode 0 4 = x3dhMarker) := by
    rw [slice_encode msg (by decide)]
    exact fun h => hmarker h.2
  have hhybrid : hybridDecrypt env.rsaDecrypt aesDecrypt msg.encode = none := by
    exact if_neg fun h => by omega
  have hown : attempt read (fun m => m.toAddr = c.address) msg.encode = some msg :=
    attempt_own reads ⟨rfl, hsmall⟩ (decide_eq_true hto)
  rw [received, handleDirectMessage, hdecrypt, Option.getD_some, if_neg hinitial]
  rw [hfirst, if_neg fun h => by omega, finalPlaintext, ReceiveEnv.unwrapped, hdecrypt,
    Option.getD_some, hhybrid]
  show dispatch c.address msg.encode = _
  rw [dispatch, hown]
  rfl

end

/-- A message whose frame is written takes the relays of the path in order. The recipient reads the
frame of the last one as a direct message and hands the message itself to `handleOrderedMessage`,
unless the address of the sender starts with "X3DH". -/
theorem direct_end_to_end (hsuite : S.RoundTrips) {rand : ℕ → LayerRand S}
    (hrand : ∀ i, (rand i).Answers) {net : Address → OnionRelay S ι} {first : RelayInfo S}
    {rest : List (RelayInfo S)} {c : Client K} (hpath : OnionPath net c.address (first :: rest))
    (hto : c.address ≠ ByteArr.zero 20) {s : Sender} (hconnected : s.connected = true)
    (hlarge : 1024 ≤ getUint (slice s.address.bytes 0 2)) (content : Bytes)
    (hcontent : content.length < 2 ^ 32) (contentType : UInt8) (env : DirectEnv)
    {msg : DirectMessage} (hmsg : msg = s.message c.address content contentType env)
    (encryptedMsg : Payload) (hsends : env.Sends rand (first :: rest) msg encryptedMsg.bytes)
    (hfit : LayersFit rand c.address encryptedMsg.bytes 0 (first :: rest)) (receive : ReceiveEnv)
    (hdecrypt : receive.rsaDecrypt encryptedMsg.bytes = some msg.encode)
    (aesDecrypt : Bytes → Bytes → Option Bytes) :
    ∃ frame onion, sendMessage s c.address content contentType env =
        ⟨(getNextSequenceNumber s c.address).1, [(msg, frame)], .ok ()⟩ ∧
      frame.onion = some onion ∧
      Travels net c.address encryptedMsg.bytes first.address (frame.header.encode ++ onion)
        ((first :: rest).map RelayInfo.address) ∧
      (∀ messageID, ∃ header, readHeader (headerWrite (.deliverMessage encryptedMsg messageID) ++
          encryptedMsg.bytes) = .ok (header, encryptedMsg.bytes) ∧
        ClientBranch.of header.type = .handleDirectMessage ∧
        header.length.toNat = encryptedMsg.bytes.length) ∧
      (received c encryptedMsg.bytes receive aesDecrypt = some (.direct msg) ↔
        slice s.address.bytes 0 4 ≠ x3dhMarker) := by
  subst hmsg
  obtain ⟨onion, hbuild, htravels⟩ := travels_from hsuite hrand hto encryptedMsg.bytes hpath hfit
  have honion : env.frame.buildOnion encryptedMsg.bytes = .ok onion := hsends.builds.trans hbuild
  refine ⟨⟨relayForwardHeader onion env.frame.messageID, c.address, encryptedMsg.bytes, some onion⟩,
    onion, ?_, rfl, htravels flagEncrypted env.frame.messageID, fun messageID => ?_,
    fun h hmarker => ?_, fun h => ?_⟩
  · simp [sendMessage, hconnected, sendDirect, hsends.encrypts, sendFrame, honion, hsends.header,
      hsends.onion]
  · have hframe := (RelaySend.deliverMessage encryptedMsg messageID).frame.length_eq
    exact ⟨_, readHeader_append (RelaySend.validate_header _) _, rfl, hframe.symm⟩
  · rw [received_initial aesDecrypt hdecrypt hmarker] at h
    cases h
  · exact received_direct aesDecrypt hdecrypt hlarge h ⟨hcontent, Nat.two_pow_pos 32⟩ rfl

def onionEnv : DirectEnv :=
  { directEnv .ok with
    frame := { (directEnv .ok).frame with
      buildOnion := buildOnionLayers tagRand [sampleRelay 1] loneClient.address } }

theorem direct_end_to_end_lone : ∃ msg frame onion,
    (sendMessage ⟨fill 20 4, true, ∅⟩ loneClient.address [8] 0 onionEnv).written = [(msg, frame)] ∧
    Travels (starNet loneClient.address) loneClient.address msg.encode (sampleAddress 1)
      (frame.header.encode ++ onion) [sampleAddress 1] ∧
    received loneClient msg.encode { plainEnv with rsaDecrypt := some } (fun _ _ => none) =
      some (.direct msg) := by
  have hpath : OnionPath (starNet loneClient.address) loneClient.address [sampleRelay 1] := by
    refine ⟨?_, ?_, ⟨⟨(), rfl⟩, trivial⟩⟩
    · decide
    · simp only [forall_mem_singleton]
      rfl
  obtain ⟨frame, onion, hsend, -, htravels, -, hreceived⟩ := direct_end_to_end
    tagSuite_roundTrips tagRand_answers hpath (by decide) (s := ⟨fill 20 4, true, ∅⟩) rfl
    (by decide +kernel) [8] (by decide) 0 onionEnv rfl ⟨_, by decide +kernel⟩ ⟨rfl, rfl, rfl, rfl⟩
    (tag_layersFit (by decide +kernel)) { plainEnv with rsaDecrypt := some } rfl fun _ _ => none
  exact ⟨_, frame, onion, congrArg DirectOutcome.written hsend, htravels,
    hreceived.mpr (by decide +kernel)⟩

end Zentalk
