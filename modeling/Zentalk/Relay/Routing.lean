import Zentalk.Relay.Handshake
import Zentalk.Relay.Offline
import Zentalk.Relay.Onion

/-!
# The way of an onion through the relays

`handled_run` connects `handleRelayForward` to `Relay.Step`.
-/

namespace Zentalk

open Wire Runs List ByteArr UInt16 Nat

variable {S : OnionSuite} {ι : Type*}

/-! ## One relay -/

/-- The call that `handleRelayForward` makes for a layer. -/
inductive RelayAction
  | forwardToNextHop (nextHop : Address) (payload : Bytes)
  | deliverMessage (recipientAddr : Address) (encryptedPayload : Bytes)

def isDeliveryAddress (addr : Address) : Bool := decide (addr = zero 20)

/-- `handleRelayForward` up to the call that it makes for the layer. An error is what it logs before
it returns. -/
def handleRelayForward (privateKey : S.PrivateKey) (peers : Address → Option (Peer ι))
    (header : Header) (stream : Bytes) : Except Fault RelayAction :=
  match readFull header.length.toNat stream with
  | .error e => .error (.error ("Read payload error: " ++ e))
  | .ok (payload, _) =>
    match decryptOnionLayer payload privateKey with
    | .error .panic => .error .panic
    | .error (.error e) => .error (.error ("Decrypt onion error: " ++ e))
    | .ok layer =>
      if isDeliveryAddress layer.nextHop then
        .error (.error "Error: NextHop is zero, cannot deliver")
      else
        match peers layer.nextHop with
        | none => .ok (.deliverMessage layer.nextHop layer.payload)
        | some peer =>
          if peer.clientType = clientTypeRelay then
            .ok (.forwardToNextHop layer.nextHop layer.payload)
          else .ok (.deliverMessage layer.nextHop layer.payload)

/-- The call for a layer, given what is registered for its next hop. -/
def relayAction (peer? : Option (Peer ι)) (layer : OnionLayer) : RelayAction :=
  match peer? with
  | none => .deliverMessage layer.nextHop layer.payload
  | some peer =>
    if peer.clientType = clientTypeRelay then .forwardToNextHop layer.nextHop layer.payload
    else .deliverMessage layer.nextHop layer.payload

/-- What a relay of the network brings to `handleRelayForward`. -/
structure OnionRelay (S : OnionSuite) (ι : Type*) where
  privateKey : S.PrivateKey
  peers : Address → Option (Peer ι)

/-- A `RelayForward` frame. A client sets the flag `flagEncrypted`, `forwardToNextHop` no flag. -/
def relayFrame (flags : UInt16) (payload : Bytes) (messageID : ByteArr 16) : Bytes :=
  (relayHeader msgTypeRelayForward payload.length flags messageID).encode ++ payload

/-- `handleConnection` reads a header and calls `handleRelayForward`, which makes the call. -/
def OnionRelay.Handles (relay : OnionRelay S ι) (stream : Bytes) (action : RelayAction) : Prop :=
  ∃ header rest, readHeader stream = .ok (header, rest) ∧
    RelayBranch.of header.type = .handleRelayForward ∧
    handleRelayForward relay.privateKey relay.peers header rest = .ok action

/-! ## The network -/

/-- The bytes that arrive at a relay make the onion visit the relays in order, and the last one
calls `deliverMessage`. This holds whatever message IDs `forwardToNextHop` generates. -/
inductive Travels (net : Address → OnionRelay S ι) (recipientAddr : Address) (content : Bytes) :
    Address → Bytes → List Address → Prop
  | delivered (address : Address) (stream : Bytes) :
      (net address).Handles stream (.deliverMessage recipientAddr content) →
      Travels net recipientAddr content address stream [address]
  | forwarded (address nextHop : Address) (stream payload : Bytes) (visited : List Address) :
      (net address).Handles stream (.forwardToNextHop nextHop payload) →
      (∀ messageID, Travels net recipientAddr content nextHop
        (relayFrame 0 payload messageID) visited) →
      Travels net recipientAddr content address stream (address :: visited)

def hopTypeOf : List (RelayInfo S) → UInt8
  | [] => clientTypeUser
  | _ :: _ => clientTypeRelay

/-- Each relay of the path has its next hop among its peers, under the client type of the hop. -/
def Registered (net : Address → OnionRelay S ι) (recipientAddr : Address) :
    List (RelayInfo S) → Prop
  | [] => True
  | relay :: rest =>
    (∃ conn, (net relay.address).peers (nextHopOf recipientAddr rest) =
      some ⟨conn, hopTypeOf rest⟩) ∧ Registered net recipientAddr rest

/-- A path for an onion: relays of the network, with their own public keys. -/
structure OnionPath (net : Address → OnionRelay S ι) (recipientAddr : Address)
    (path : List (RelayInfo S)) : Prop where
  nonzero : ∀ relay ∈ path, relay.address ≠ zero 20
  keys : ∀ relay ∈ path, relay.publicKey = S.publicKey (net relay.address).privateKey
  registered : Registered net recipientAddr path

variable {net : Address → OnionRelay S ι}

theorem OnionPath.tail {recipientAddr : Address} {relay : RelayInfo S} {rest : List (RelayInfo S)}
    (h : OnionPath net recipientAddr (relay :: rest)) : OnionPath net recipientAddr rest where
  nonzero r hr := h.nonzero r (mem_cons_of_mem _ hr)
  keys r hr := h.keys r (mem_cons_of_mem _ hr)
  registered := h.registered.2

/-- The layers for the relays from index `i` on are shorter than `2 ^ 32` bytes. -/
def LayersFit (rand : ℕ → LayerRand S) (recipientAddr : Address) (finalPayload : Bytes) :
    ℕ → List (RelayInfo S) → Prop
  | _, [] => True
  | i, relay :: rest =>
    (∀ layer, buildFrom rand recipientAddr finalPayload i (relay :: rest) = .ok layer →
      layer.length < 2 ^ 32) ∧ LayersFit rand recipientAddr finalPayload (i + 1) rest

/-! ## One hop -/

section

variable {payload stream : Bytes}

theorem readFull_append {n : ℕ} (hlen : payload.length = n) (rest : Bytes) :
    readFull n (payload ++ rest) = .ok (payload, rest) := by
  subst hlen
  by_cases hzero : payload.length = 0
  · obtain rfl := eq_nil_of_length_eq_zero hzero
    rfl
  · have hne : payload ++ rest ≠ [] := by
      rintro hnil
      exact hzero (by rw [(append_eq_nil_iff.mp hnil).1, length_nil])
    have hlong : ¬ (payload ++ rest).length < payload.length := by
      rw [length_append]
      omega
    rw [readFull, if_neg hzero, if_neg hne, if_neg hlong, take_left, drop_left]

theorem readHeader_relayFrame (flags : UInt16) (payload : Bytes) (messageID : ByteArr 16) :
    readHeader (relayFrame flags payload messageID) =
      .ok (relayHeader msgTypeRelayForward payload.length flags messageID, payload) :=
  readHeader_append rfl payload

variable {peers : Address → Option (Peer ι)} {privateKey : S.PrivateKey}

theorem handleRelayForward_decrypted {header : Header} {rest : Bytes} {layer : OnionLayer}
    (hread : readFull header.length.toNat stream = .ok (payload, rest))
    (hdecrypt : decryptOnionLayer payload privateKey = .ok layer)
    (hnonzero : layer.nextHop ≠ zero 20) :
    handleRelayForward privateKey peers header stream =
      .ok (relayAction (peers layer.nextHop) layer) := by
  have hnext : ¬ isDeliveryAddress layer.nextHop = true := by
    simpa [isDeliveryAddress] using hnonzero
  simp only [handleRelayForward, hread, hdecrypt, if_neg hnext, relayAction]
  split
  · rfl
  · split <;> rfl

theorem handleRelayForward_ok_iff {header : Header} {action : RelayAction} :
    handleRelayForward privateKey peers header stream = .ok action ↔
      ∃ payload rest layer, readFull header.length.toNat stream = .ok (payload, rest) ∧
        decryptOnionLayer payload privateKey = .ok layer ∧ layer.nextHop ≠ zero 20 ∧
        relayAction (peers layer.nextHop) layer = action := by
  constructor
  · intro h
    cases hread : readFull header.length.toNat stream with
    | error e =>
      simp only [handleRelayForward, hread] at h
      cases h
    | ok read =>
      obtain ⟨payload, rest⟩ := read
      cases hdecrypt : decryptOnionLayer payload privateKey with
      | error fault =>
        simp only [handleRelayForward, hread, hdecrypt] at h
        cases fault <;> cases h
      | ok layer =>
        by_cases hzero : layer.nextHop = zero 20
        · simp only [handleRelayForward, hread, hdecrypt, isDeliveryAddress, hzero, decide_true,
            if_true] at h
          cases h
        · rw [handleRelayForward_decrypted hread hdecrypt hzero] at h
          exact ⟨payload, rest, layer, rfl, hdecrypt, hzero, Except.ok.inj h⟩
  · rintro ⟨payload, rest, layer, hread, hdecrypt, hnonzero, rfl⟩
    exact handleRelayForward_decrypted hread hdecrypt hnonzero

variable {relay : OnionRelay S ι}

theorem handles_layer {encryptedLayer : Bytes} {nextHop : Address}
    (hfits : encryptedLayer.length < 2 ^ 32)
    (hdecrypt : decryptOnionLayer encryptedLayer relay.privateKey =
      .ok ⟨nextHop, payload, S.hash payload⟩) (hnonzero : nextHop ≠ zero 20) {peer : Peer ι}
    (hpeer : relay.peers nextHop = some peer) (flags : UInt16) (messageID : ByteArr 16) :
    relay.Handles (relayFrame flags encryptedLayer messageID)
      (if peer.clientType = clientTypeRelay then .forwardToNextHop nextHop payload
        else .deliverMessage nextHop payload) := by
  have hlength : encryptedLayer.length = (UInt32.ofNat encryptedLayer.length).toNat :=
    (UInt32.toNat_ofNat_of_lt' hfits).symm
  have hread := readFull_append hlength []
  rw [append_nil] at hread
  refine ⟨_, _, readHeader_relayFrame flags encryptedLayer messageID, rfl, ?_⟩
  rw [handleRelayForward_decrypted hread hdecrypt hnonzero, hpeer]
  rfl

theorem handles_unique {action₁ action₂ : RelayAction} (h₁ : relay.Handles stream action₁)
    (h₂ : relay.Handles stream action₂) : action₁ = action₂ := by
  obtain ⟨header₁, rest₁, hread₁, -, hhandle₁⟩ := h₁
  obtain ⟨header₂, rest₂, hread₂, -, hhandle₂⟩ := h₂
  cases hread₁.symm.trans hread₂
  cases hhandle₁.symm.trans hhandle₂
  rfl

end

/-! ## The whole path -/

/-- An onion goes one way only. -/
theorem Travels.unique {recipient₁ recipient₂ address : Address} {content₁ content₂ stream : Bytes}
    {visited₁ visited₂ : List Address}
    (h₁ : Travels net recipient₁ content₁ address stream visited₁)
    (h₂ : Travels net recipient₂ content₂ address stream visited₂) :
    recipient₁ = recipient₂ ∧ content₁ = content₂ ∧ visited₁ = visited₂ := by
  induction h₁ generalizing visited₂ with
  | delivered address stream hhandles =>
    cases h₂ with
    | delivered _ _ hhandles₂ =>
      cases handles_unique hhandles hhandles₂
      exact ⟨rfl, rfl, rfl⟩
    | forwarded _ _ _ _ _ hhandles₂ _ => cases handles_unique hhandles hhandles₂
  | forwarded address nextHop stream payload visited hhandles _ ih =>
    cases h₂ with
    | delivered _ _ hhandles₂ => cases handles_unique hhandles hhandles₂
    | forwarded _ _ _ _ _ hhandles₂ hrest =>
      cases handles_unique hhandles hhandles₂
      obtain ⟨hrecipient, hcontent, hvisited⟩ := ih (zero 16) (hrest (zero 16))
      exact ⟨hrecipient, hcontent, congrArg _ hvisited⟩

theorem travels_from (hsuite : S.RoundTrips) {rand : ℕ → LayerRand S}
    (hrand : ∀ i, (rand i).Answers) {net : Address → OnionRelay S ι} {recipientAddr : Address}
    (hrecipient : recipientAddr ≠ zero 20) (finalPayload : Bytes) {relay : RelayInfo S}
    {rest : List (RelayInfo S)} (hpath : OnionPath net recipientAddr (relay :: rest)) {i : ℕ}
    (hfit : LayersFit rand recipientAddr finalPayload i (relay :: rest)) :
    ∃ onion, buildFrom rand recipientAddr finalPayload i (relay :: rest) = .ok onion ∧
      ∀ flags messageID, Travels net recipientAddr finalPayload relay.address
        (relayFrame flags onion messageID) ((relay :: rest).map RelayInfo.address) := by
  induction rest generalizing relay i with
  | nil =>
    obtain ⟨onion, hbuild, hdecrypt⟩ := buildLayer_decrypts hsuite (hrand i)
      (hpath.keys relay mem_cons_self) recipientAddr finalPayload
    obtain ⟨conn, hpeer⟩ := hpath.registered.1
    refine ⟨onion, hbuild, fun flags messageID => .delivered _ _ ?_⟩
    exact handles_layer (hfit.1 onion hbuild) hdecrypt hrecipient hpeer flags messageID
  | cons next rest ih =>
    obtain ⟨inner, hinner, htravels⟩ := ih hpath.tail hfit.2
    obtain ⟨onion, hlayer, hdecrypt⟩ := buildLayer_decrypts hsuite (hrand i)
      (hpath.keys relay mem_cons_self) next.address inner
    have hbuild : buildFrom rand recipientAddr finalPayload i (relay :: next :: rest) =
        .ok onion := by
      rw [buildFrom, hinner]
      exact hlayer
    obtain ⟨conn, hpeer⟩ := hpath.registered.1
    refine ⟨onion, hbuild, fun flags messageID => ?_⟩
    refine .forwarded _ next.address _ inner _ ?_ (htravels 0)
    have hnext := hpath.nonzero next (mem_cons_of_mem _ mem_cons_self)
    exact handles_layer (hfit.1 onion hbuild) hdecrypt hnext hpeer flags messageID

/-- `BuildOnionLayers` returns an onion. If each layer is shorter than `2 ^ 32` bytes and a client
sends it to the first relay, it visits exactly the relays of the path in order, and the last one
calls `deliverMessage` with the recipient and the payload. -/
theorem onion_routed (hsuite : S.RoundTrips) {rand : ℕ → LayerRand S}
    (hrand : ∀ i, (rand i).Answers) {net : Address → OnionRelay S ι} {recipientAddr : Address}
    (hrecipient : recipientAddr ≠ zero 20) (finalPayload : Bytes) {first : RelayInfo S}
    {rest : List (RelayInfo S)} (hpath : OnionPath net recipientAddr (first :: rest))
    (hfit : LayersFit rand recipientAddr finalPayload 0 (first :: rest)) :
    ∃ onion, buildOnionLayers rand (first :: rest) recipientAddr finalPayload = .ok onion ∧
      ∀ messageID, Travels net recipientAddr finalPayload first.address
        (relayFrame flagEncrypted onion messageID) ((first :: rest).map RelayInfo.address) := by
  obtain ⟨onion, hbuild, htravels⟩ := travels_from hsuite hrand hrecipient finalPayload hpath hfit
  exact ⟨onion, hbuild, htravels flagEncrypted⟩

/-! ## A path of three relays, and an onion that is too long -/

def tag (key : UInt8) (data : Bytes) : Bytes := key :: data

def untag (ciphertext : Bytes) (key : UInt8) : Option Bytes :=
  if ciphertext.head? = some key then some ciphertext.tail else none

theorem length_tag (key : UInt8) (data : Bytes) : (tag key data).length = data.length + 1 := rfl

theorem untag_tag (key : UInt8) (data : Bytes) : untag (tag key data) key = some data :=
  if_pos rfl

/-- A suite in which each encryption puts its key in front. -/
def tagSuite : OnionSuite where
  PublicKey := UInt8
  PrivateKey := UInt8
  Seed := Unit
  publicKey key := key
  encryptOAEP _ data key := some (tag key data)
  decryptOAEP ciphertext key := untag ciphertext key
  gcmSeal _ plaintext key := key ++ plaintext
  gcmOpen _ sealed key := if key <+: sealed then some (sealed.drop key.length) else none
  hash data := ofSlice 32 data
  marshal layer := .ok (layer.nextHop.bytes ++ (layer.payloadHash.bytes ++ layer.payload))
  unmarshal encoded := some ⟨ofSlice 20 encoded, encoded.drop 52, ofSlice 32 (encoded.drop 20)⟩

theorem tagSuite_roundTrips : tagSuite.RoundTrips where
  rsa _ key privateKey := by
    have hlen := length_tag privateKey key.bytes
    refine ⟨_, rfl, hlen.trans_lt ?_, untag_tag privateKey key.bytes⟩
    rw [key.size_eq]
    decide
  gcm _ plaintext key := by simp [tagSuite]
  json layer := by
    refine ⟨_, rfl, congrArg some ?_⟩
    obtain ⟨nextHop, payload, payloadHash⟩ := layer
    have hhash : (nextHop.bytes ++ (payloadHash.bytes ++ payload)).drop 20 =
        payloadHash.bytes ++ payload := drop_left' nextHop.size_eq
    have hpayload : (nextHop.bytes ++ (payloadHash.bytes ++ payload)).drop 52 = payload := by
      rw [← append_assoc]
      exact drop_left' (by simp)
    simp only [ofSlice_append, hhash, hpayload]

def tagRand (_ : ℕ) : LayerRand tagSuite := ⟨.ok (zero 32), .ok (zero 12), ()⟩

theorem tagRand_answers (i : ℕ) : (tagRand i).Answers := ⟨⟨_, rfl⟩, ⟨_, rfl⟩⟩

def sampleAddress (b : UInt8) : Address := ofSlice 20 [b]

def sampleRelay (b : UInt8) : RelayInfo tagSuite := ⟨sampleAddress b, b⟩

/-- Everything but the recipient is a relay, whose key is the first byte of its address. -/
def starNet (recipientAddr address : Address) : OnionRelay tagSuite Unit where
  privateKey := address.bytes.headD 0
  peers hop := some ⟨(), if hop = recipientAddr then clientTypeUser else clientTypeRelay⟩

section

variable {recipientAddr : Address} {path : List (RelayInfo tagSuite)} {finalPayload : Bytes}

theorem length_tag_buildFrom {i : ℕ} {layer : Bytes}
    (h : buildFrom tagRand recipientAddr finalPayload i path = .ok layer) :
    layer.length = 131 * path.length + finalPayload.length := by
  induction path generalizing i layer with
  | nil =>
    cases h
    simp
  | cons relay rest ih =>
    rw [buildFrom] at h
    cases hinner : buildFrom tagRand recipientAddr finalPayload (i + 1) rest with
    | error e =>
      rw [hinner] at h
      cases h
    | ok inner =>
      rw [hinner] at h
      obtain rfl : combine (tag relay.publicKey (zero 32).bytes)
          ((zero 12).bytes ++ ((zero 32).bytes ++
            ((nextHopOf recipientAddr rest).bytes ++
              ((ofSlice 32 inner).bytes ++ inner)))) = layer := Except.ok.inj h
      have hkey : (tag relay.publicKey (zero 32).bytes).length = 33 := length_tag _ _
      simp only [combine, length_append, length_cons, length_putUint, hkey,
        length_bytes, ih hinner]
      omega

theorem tag_layersFit {i : ℕ} (hlen : 131 * path.length + finalPayload.length < 2 ^ 32) :
    LayersFit tagRand recipientAddr finalPayload i path := by
  induction path generalizing i with
  | nil => trivial
  | cons relay rest ih =>
    refine ⟨fun layer hlayer => ?_, ih ?_⟩
    · rw [length_tag_buildFrom hlayer]
      exact hlen
    · rw [length_cons] at hlen
      omega

theorem handleRelayForward_cut_off {privateKey : S.PrivateKey} {peers : Address → Option (Peer ι)}
    {onion : Bytes} (hlen : onion.length % 2 ^ 32 = 0) (flags : UInt16) (messageID : ByteArr 16) :
    handleRelayForward privateKey peers
      (relayHeader msgTypeRelayForward onion.length flags messageID) onion =
        .error (.error "Decrypt onion error: encrypted layer too short") := by
  have hzero : (relayHeader msgTypeRelayForward onion.length flags messageID).length.toNat = 0 :=
    UInt32.toNat_ofNat'.trans hlen
  rw [handleRelayForward, hzero]
  rfl

theorem not_travels_cut_off {net : Address → OnionRelay S ι} {address : Address}
    {content onion : Bytes} {visited : List Address} (hlen : onion.length % 2 ^ 32 = 0)
    (flags : UInt16) (messageID : ByteArr 16) :
    ¬ Travels net recipientAddr content address (relayFrame flags onion messageID) visited := by
  have hnothing : ∀ action, ¬ (net address).Handles (relayFrame flags onion messageID) action := by
    rintro action ⟨header, rest, hread, -, hhandle⟩
    cases (readHeader_relayFrame flags onion messageID).symm.trans hread
    rw [handleRelayForward_cut_off hlen] at hhandle
    cases hhandle
  intro htravels
  cases htravels with
  | delivered _ _ hhandles => exact hnothing _ hhandles
  | forwarded _ _ _ _ _ hhandles _ => exact hnothing _ hhandles

end

theorem onion_routed_three : ∃ onion,
    buildOnionLayers tagRand [sampleRelay 1, sampleRelay 2, sampleRelay 3] (sampleAddress 9)
      [7, 8] = .ok onion ∧
    ∀ messageID, Travels (starNet (sampleAddress 9)) (sampleAddress 9) [7, 8] (sampleAddress 1)
      (relayFrame flagEncrypted onion messageID)
      [sampleAddress 1, sampleAddress 2, sampleAddress 3] := by
  refine onion_routed tagSuite_roundTrips tagRand_answers (by decide) [7, 8] ⟨?_, ?_, ?_⟩
    (tag_layersFit (by decide))
  · decide
  · simp only [forall_mem_cons]
    exact ⟨rfl, rfl, rfl, forall_mem_nil _⟩
  · exact ⟨⟨(), rfl⟩, ⟨(), rfl⟩, ⟨(), rfl⟩, trivial⟩

/-- An onion of exactly `2 ^ 32` bytes is announced with the length 0 and delivered to nobody. -/
theorem onion_cut_off : ∃ finalPayload onion : Bytes,
    tagSuite.RoundTrips ∧ (∀ i, (tagRand i).Answers) ∧ sampleAddress 9 ≠ zero 20 ∧
    OnionPath (starNet (sampleAddress 9)) (sampleAddress 9) [sampleRelay 1] ∧
    buildOnionLayers tagRand [sampleRelay 1] (sampleAddress 9) finalPayload = .ok onion ∧
    onion.length = 2 ^ 32 ∧ ∀ messageID,
      handleRelayForward (starNet (sampleAddress 9) (sampleAddress 1)).privateKey
        (starNet (sampleAddress 9) (sampleAddress 1)).peers
        (relayHeader msgTypeRelayForward onion.length flagEncrypted messageID) onion =
          .error (.error "Decrypt onion error: encrypted layer too short") ∧
      ∀ recipientAddr content visited, ¬ Travels (starNet (sampleAddress 9)) recipientAddr content
        (sampleAddress 1) (relayFrame flagEncrypted onion messageID) visited := by
  have hpath : OnionPath (starNet (sampleAddress 9)) (sampleAddress 9) [sampleRelay 1] := by
    refine ⟨?_, ?_, ⟨⟨(), rfl⟩, trivial⟩⟩
    · decide
    · simp only [forall_mem_singleton]
      rfl
  obtain ⟨onion, hbuild, -⟩ := buildLayer_decrypts tagSuite_roundTrips (tagRand_answers 0)
    (hpath.keys _ mem_cons_self) (sampleAddress 9) (List.replicate (2 ^ 32 - 131) 0)
  have hbuilt : buildFrom tagRand (sampleAddress 9) (List.replicate (2 ^ 32 - 131) 0) 0
      [sampleRelay 1] = .ok onion := hbuild
  have hlen : onion.length = 2 ^ 32 := by
    rw [length_tag_buildFrom hbuilt, length_replicate]
    rfl
  have hcut : onion.length % 2 ^ 32 = 0 := by rw [hlen, mod_self]
  refine ⟨_, onion, tagSuite_roundTrips, tagRand_answers, by decide, hpath, hbuilt, hlen,
    fun messageID => ⟨handleRelayForward_cut_off hcut _ _, fun _ _ _ => ?_⟩⟩
  exact not_travels_cut_off hcut flagEncrypted messageID

/-! ## The goroutine of the connection -/

def RelayAction.send (messageID : ByteArr 16) (payload : Payload) : RelayAction → RelaySend
  | forwardToNextHop _ _ => .forwardToNextHop payload messageID
  | deliverMessage _ _ => .deliverMessage payload messageID

theorem send_relayAction (peer : Peer ι) (layer : OnionLayer) (payload : Payload)
    (messageID : ByteArr 16) :
    (relayAction (some peer) layer).send messageID payload =
      onlineSend peer.clientType payload messageID := by
  by_cases hrelay : peer.clientType = clientTypeRelay
  · simp only [relayAction, onlineSend, Handler.outgoing, hrelay, if_true, decide_true,
      RelayAction.send]
  · simp only [relayAction, onlineSend, Handler.outgoing, hrelay, if_false, decide_false,
      Bool.false_eq_true, RelayAction.send]

theorem streamTo_onlineEvents [DecidableEq ι] (c : ι) (fwd : Forwarded) (peer : Peer ι)
    (messageID : ByteArr 16) :
    streamTo peer.conn (onlineEvents c fwd peer messageID) =
      (onlineSend peer.clientType fwd.payload messageID).header.encode ++ fwd.payload.bytes := by
  have hbytes : (onlineSend peer.clientType fwd.payload messageID).payloadBytes =
      fwd.payload.bytes := by
    unfold onlineSend Handler.outgoing
    split <;> rfl
  simp [streamTo, onlineEvents, RelayEvent.bytesTo, hbytes]

/-- When `handleRelayForward` makes a call for a layer whose next hop is registered, the goroutine
of its connection has steps for it, which write what the call sends. -/
theorem handled_run [DecidableEq ι] {s : Relay ι} {c : ι} {peerAddr : Address}
    (htask : s.tasks c = .serving peerAddr .idle) {privateKey : S.PrivateKey} {header : Header}
    {stream : Bytes} {action : RelayAction}
    (hhandle : handleRelayForward privateKey s.peers header stream = .ok action) :
    ∃ layer : OnionLayer, action = relayAction (s.peers layer.nextHop) layer ∧
      ∀ (payload : Payload) (peer : Peer ι) (messageID : ByteArr 16),
        payload.bytes = layer.payload → s.peers layer.nextHop = some peer →
        ∃ evs s', Run (Relay.Step true) s evs s' ∧
          streamTo peer.conn evs =
            (action.send messageID payload).header.encode ++ payload.bytes := by
  obtain ⟨-, -, layer, -, -, hnonzero, rfl⟩ := handleRelayForward_ok_iff.mp hhandle
  refine ⟨layer, rfl, fun payload peer messageID _ hpeer => ?_⟩
  have hreceived : Relay.Step true s (.received c ⟨layer.nextHop, payload, header.messageID⟩) _ :=
    .handler s c peerAddr _ _ _ htask (.received _ hnonzero)
  have honline := online_run (s := s.set c (.serving peerAddr (.checkHop ⟨layer.nextHop, payload,
    header.messageID⟩))) (Function.update_self ..) hpeer messageID
  refine ⟨_, _, honline.cons hreceived, ?_⟩
  rw [hpeer, send_relayAction]
  exact streamTo_onlineEvents c ⟨layer.nextHop, payload, header.messageID⟩ peer messageID

/-! ## Layers that make a relay panic -/

/-- `buf[i:j]`. Go panics unless the bounds are in order and do not reach behind the buffer. -/
def subslice (buf : Bytes) (i j : ℕ) : Except Fault Bytes :=
  if i ≤ j ∧ j ≤ buf.length then .ok (slice buf i (j - i)) else .error .panic

theorem toNat_keyEnd (keyLen : UInt16) :
    (2 + keyLen).toNat =
      if keyLen.toNat < 65534 then 2 + keyLen.toNat else keyLen.toNat - 65534 := by
  have hlt := keyLen.toNat_lt
  show (2 + keyLen.toNat) % 2 ^ 16 = _
  split <;> omega

/-- `DecryptOnionLayer` with its two slice expressions, which are where it panics. -/
theorem decryptOnionLayer_sliced (encryptedLayer : Bytes) (privateKey : S.PrivateKey) :
    decryptOnionLayer encryptedLayer privateKey =
      if encryptedLayer.length < 2 then .error (.error "encrypted layer too short")
      else
        let keyEnd := (2 + UInt16.ofNat (getUint (slice encryptedLayer 0 2))).toNat
        if encryptedLayer.length < keyEnd then .error (.error "encrypted layer incomplete")
        else (do
          let encryptedKey ← subslice encryptedLayer 2 keyEnd
          let encryptedData ← subslice encryptedLayer keyEnd encryptedLayer.length
          (openLayer encryptedKey encryptedData privateKey).mapError Fault.error) := by
  unfold decryptOnionLayer
  dsimp only
  generalize 2 + ofNat (getUint (slice encryptedLayer 0 2)) = keyEnd
  split
  · rfl
  · split
    · rfl
    · next hlong =>
      have hend : keyEnd.toNat ≤ encryptedLayer.length := not_lt.mp hlong
      have hdata : slice encryptedLayer keyEnd.toNat (encryptedLayer.length - keyEnd.toNat) =
          encryptedLayer.drop keyEnd.toNat := by
        rw [slice, ← length_drop, take_length]
      by_cases hwrap : keyEnd.toNat < 2
      · rw [if_pos (lt_iff_toNat_lt.mpr hwrap), subslice,
          if_neg fun h => not_lt.mpr h.1 hwrap]
        rfl
      · rw [if_neg fun h => hwrap (lt_iff_toNat_lt.mp h), subslice,
          if_pos ⟨not_lt.mp hwrap, hend⟩, subslice, if_pos ⟨hend, le_rfl⟩, hdata]
        rfl

/-- `DecryptOnionLayer` does not slice outside its input exactly for inputs too short to declare a
key length or that declare one below 65534: for the two above, `2+keyLen` wraps. -/
theorem decryptOnionLayer_returns_iff (encryptedLayer : Bytes) (privateKey : S.PrivateKey) :
    ((∃ layer, decryptOnionLayer encryptedLayer privateKey = .ok layer) ∨
      ∃ e, decryptOnionLayer encryptedLayer privateKey = .error (.error e)) ↔
    encryptedLayer.length < 2 ∨ getUint (slice encryptedLayer 0 2) < 65534 := by
  rw [decryptOnionLayer_sliced]
  by_cases hshort : encryptedLayer.length < 2
  · rw [if_pos hshort]
    exact iff_of_true (.inr ⟨_, rfl⟩) (.inl hshort)
  · have hkeyLen : (ofNat (getUint (slice encryptedLayer 0 2))).toNat =
        getUint (slice encryptedLayer 0 2) := by
      have hslice : (slice encryptedLayer 0 2).length = 2 := length_slice (by omega)
      have hbound := getUint_lt (slice encryptedLayer 0 2)
      rw [hslice] at hbound
      exact toNat_ofNat_of_lt' hbound
    rw [if_neg hshort, or_iff_right hshort]
    dsimp only
    generalize ofNat (getUint (slice encryptedLayer 0 2)) = keyLen at hkeyLen ⊢
    rw [← hkeyLen]
    have hend := toNat_keyEnd keyLen
    by_cases hsmall : keyLen.toNat < 65534
    · rw [if_pos hsmall] at hend
      refine iff_of_true ?_ hsmall
      rw [hend]
      split
      · exact .inr ⟨_, rfl⟩
      · next hlong =>
        have hlong' := not_lt.mp hlong
        rw [subslice, if_pos ⟨le_add_right 2 _, hlong'⟩, subslice, if_pos ⟨hlong', le_rfl⟩]
        cases hopen : openLayer (slice encryptedLayer 2 (2 + keyLen.toNat - 2))
            (slice encryptedLayer (2 + keyLen.toNat)
              (encryptedLayer.length - (2 + keyLen.toNat))) privateKey with
        | error e => exact .inr ⟨e, congrArg (Except.mapError Fault.error) hopen⟩
        | ok layer => exact .inl ⟨layer, congrArg (Except.mapError Fault.error) hopen⟩
    · have hlt := keyLen.toNat_lt
      rw [if_neg hsmall] at hend
      have hpanics : ¬ (2 ≤ (2 + keyLen).toNat ∧ (2 + keyLen).toNat ≤ encryptedLayer.length) := by
        omega
      refine iff_of_false ?_ hsmall
      rw [if_neg (by omega), subslice, if_neg hpanics]
      rintro (⟨layer, h⟩ | ⟨e, h⟩) <;> cases h

/-- Two bytes that declare a key of 65534 bytes make `handleRelayForward` panic, with any key. -/
theorem onion_panics :
    decryptOnionLayer (S := tagSuite) [0xFF, 0xFE] (1 : UInt8) = .error .panic ∧
    handleRelayForward (S := tagSuite) (1 : UInt8) (fun _ => (none : Option (Peer Unit)))
      (relayHeader msgTypeRelayForward 2 flagEncrypted (zero 16)) [0xFF, 0xFE] =
        .error .panic := by
  refine ⟨?_, ?_⟩ <;> rfl

end Zentalk
