import Zentalk.Dht.Storage
import Zentalk.Network.Device
import Zentalk.Network.Establish

/-!
# Where key bundles come from

Nothing calls `VerifySignedPreKey` or compares the address (`bundles_authentic_iff`).
-/

namespace Zentalk

open Wire ByteArr Client

variable {K : Suite}

/-! ## The model -/

/-- What bundles are signed, encoded and looked up with. -/
structure BundleSuite where
  /-- `ed25519.Sign`. -/
  sign : ByteArr 64 → Bytes → ByteArr 64
  /-- `ed25519.Verify`. -/
  verify : ByteArr 32 → Bytes → ByteArr 64 → Bool
  /-- The public key that `ed25519.GenerateKey` makes with a private key. -/
  publicKey : ByteArr 64 → ByteArr 32
  /-- `json.Unmarshal` of a `KeyBundle`. -/
  unmarshal : Bytes → Except String KeyBundle
  /-- `NewNodeID`, which is SHA-1. -/
  newNodeID : Bytes → Dht.NodeID

/-- Ed25519 is correct: a signature verifies under the public key of its private key, and under no
other. -/
structure BundleSuite.Correct (B : BundleSuite) : Prop where
  verify_sign : ∀ privateKey message,
    B.verify (B.publicKey privateKey) message (B.sign privateKey message) = true
  publicKey_eq : ∀ publicKey privateKey message,
    B.verify publicKey message (B.sign privateKey message) = true →
      publicKey = B.publicKey privateKey

variable (B : BundleSuite)

def verifySignedPreKey (identityKey : ByteArr 32) (spk : SignedPreKey) : Bool :=
  let sigData := putUint32 spk.keyID ++ (spk.publicKey.bytes ++ putUint 8 spk.timestamp.toNat)
  B.verify identityKey sigData spk.signature

/-- A DHT node, what `iterativeFindValue` brings from other nodes, and the clock when a value is
read and verified. -/
structure DhtNode where
  suite : Dht.EntrySuite
  storage : Dht.Storage
  remote : Dht.NodeID → Option Bytes
  getAt : ℤ
  verifyAt : ℤ

def DhtNode.lookup (node : DhtNode) (key : Dht.NodeID) : Dht.Storage × Option Bytes :=
  Dht.lookup node.suite node.storage key node.getAt node.verifyAt (node.remote key)

def Client.cacheKeyBundle (c : Client K) (addr : Address) (bundle : KeyBundle) : Client K :=
  { c with keyBundleCache := c.keyBundleCache.insert addr bundle }

/-- What `DiscoverKeyBundle` leaves. -/
structure DiscoverResult (K : Suite) where
  client : Client K
  dhtNode : Option DhtNode
  result : Except String KeyBundle

def discoverKeyBundle (c : Client K) (dhtNode : Option DhtNode) (peerAddress : Address) :
    DiscoverResult K :=
  match dhtNode with
  | none => ⟨c, none, .error "DHT not attached - call AttachDHT() first"⟩
  | some node =>
    match node.lookup (B.newNodeID peerAddress.bytes) with
    | (storage, none) =>
      ⟨c, some { node with storage := storage },
        .error ("key bundle not found in DHT for " ++ hexBytes (peerAddress.bytes.take 8))⟩
    | (storage, some bundleJSON) =>
      match B.unmarshal bundleJSON with
      | .error e =>
        ⟨c, some { node with storage := storage },
          .error ("failed to deserialize key bundle: " ++ e)⟩
      | .ok bundle =>
        ⟨c.cacheKeyBundle peerAddress bundle, some { node with storage := storage }, .ok bundle⟩

/-! ## Authenticity -/

/-- The bundle is for an address, and its signed prekey passes `VerifySignedPreKey`. -/
def Authentic (address : Address) (bundle : KeyBundle) : Prop :=
  bundle.address = address ∧ verifySignedPreKey B bundle.identityKey bundle.signedPreKey = true

/-- `SendRatchetMessage` accepts a bundle: it opens a session with it. -/
def AcceptsBundle (c : Client K) (recipient : Address) (recipientKeyBundle : Option KeyBundle)
    (plaintext : Bytes) (env : SendEnv) (bundle : KeyBundle) : Prop :=
  c.ratchetSessions.lookup recipient = none ∧
    recipientKeyBundle.or (c.keyBundleCache.lookup recipient) = some bundle ∧
    ((sendRatchetMessage c recipient recipientKeyBundle plaintext env).client.ratchetSessions.lookup
      recipient).isSome

variable {B}

/-! ## Discovery -/

variable {bundle : KeyBundle}

theorem discover_ok_iff {c : Client K} {dhtNode : Option DhtNode} {peerAddress : Address} :
    (discoverKeyBundle B c dhtNode peerAddress).result = .ok bundle ↔
      ∃ node data value, dhtNode = some node ∧
        (node.storage.get (B.newNodeID peerAddress.bytes) node.getAt).or
          (node.remote (B.newNodeID peerAddress.bytes)) = some data ∧
        Dht.verifyAndExtract node.suite (Dht.unix node.verifyAt) data = .ok value ∧
        B.unmarshal value = .ok bundle := by
  cases dhtNode with
  | none => simp [discoverKeyBundle]
  | some node =>
    have hfound value :
        (node.lookup (B.newNodeID peerAddress.bytes)).2 = some value ↔
          ∃ data, (node.storage.get (B.newNodeID peerAddress.bytes) node.getAt).or
              (node.remote (B.newNodeID peerAddress.bytes)) = some data ∧
            Dht.verifyAndExtract node.suite (Dht.unix node.verifyAt) data = .ok value :=
      Dht.lookup_eq_some_iff
    have hresult : (discoverKeyBundle B c (some node) peerAddress).result = .ok bundle ↔
        ∃ value, (node.lookup (B.newNodeID peerAddress.bytes)).2 = some value ∧
          B.unmarshal value = .ok bundle := by
      unfold discoverKeyBundle
      dsimp only
      split
      · next hlookup => simp [hlookup]
      · next hlookup =>
        split
        · next hjson => simp [hlookup, hjson]
        · next hjson => simp [hlookup, hjson]
    rw [hresult]
    constructor
    · rintro ⟨value, hvalue, hjson⟩
      obtain ⟨data, hdata, hverify⟩ := (hfound value).mp hvalue
      exact ⟨node, data, value, rfl, hdata, hverify, hjson⟩
    · rintro ⟨_, data, value, ⟨⟩, hdata, hverify, hjson⟩
      exact ⟨value, (hfound value).mpr ⟨data, hdata, hverify⟩, hjson⟩

variable (c : Client K)

theorem discover_authentic_iff (dhtNode : Option DhtNode) (peerAddress : Address) :
    (∀ bundle, (discoverKeyBundle B c dhtNode peerAddress).result = .ok bundle →
      Authentic B peerAddress bundle) ↔
    ∀ node data value bundle, dhtNode = some node →
      (node.storage.get (B.newNodeID peerAddress.bytes) node.getAt).or
        (node.remote (B.newNodeID peerAddress.bytes)) = some data →
      Dht.verifyAndExtract node.suite (Dht.unix node.verifyAt) data = .ok value →
      B.unmarshal value = .ok bundle → Authentic B peerAddress bundle := by
  constructor
  · intro h node data value bundle hnode hdata hverify hjson
    exact h bundle (discover_ok_iff.mpr ⟨node, data, value, hnode, hdata, hverify, hjson⟩)
  · intro h bundle hresult
    obtain ⟨node, data, value, hnode, hdata, hverify, hjson⟩ := discover_ok_iff.mp hresult
    exact h node data value bundle hnode hdata hverify hjson

/-! ## Sending -/

theorem sendWithSession_session (recipient : Address) (session : RatchetState K) (plaintext : Bytes)
    (env : SendEnv) :
    ((sendWithSession c recipient session plaintext env).client.ratchetSessions.lookup
      recipient).isSome := by
  unfold sendWithSession
  split
  · simp [setSession]
  · simp [setSession, persist]

theorem session_opened_iff {c : Client K} {recipient : Address}
    {recipientKeyBundle : Option KeyBundle} {plaintext : Bytes} {env : SendEnv}
    (hnone : c.ratchetSessions.lookup recipient = none)
    (hbundle : recipientKeyBundle.or (c.keyBundleCache.lookup recipient) = some bundle) :
    ((sendRatchetMessage c recipient recipientKeyBundle plaintext env).client.ratchetSessions.lookup
      recipient).isSome ↔
    c.connected = true ∧ c.x3dhIdentity.isSome ∧ env.randEphemeral.isOk := by
  unfold sendRatchetMessage
  cases hconnected : c.connected with
  | false => simp [hnone]
  | true =>
    rw [if_neg (by decide)]
    cases hidentity : c.x3dhIdentity with
    | none => simp [hnone]
    | some identity =>
      rw [hnone, hbundle]
      unfold openSession x3dhInitiator
      cases env.randEphemeral with
      | error e => simp [hnone, Except.isOk, Except.toBool]
      | ok eph =>
        refine iff_of_true ?_ ⟨rfl, rfl, rfl⟩
        dsimp only
        split
        · simp [setSession, persist]
        · exact sendWithSession_session ..

theorem send_authentic_iff (recipient : Address) (recipientKeyBundle : Option KeyBundle)
    (plaintext : Bytes) (env : SendEnv) :
    (∀ bundle, AcceptsBundle c recipient recipientKeyBundle plaintext env bundle →
      Authentic B recipient bundle) ↔
    (c.connected = true → c.x3dhIdentity.isSome → c.ratchetSessions.lookup recipient = none →
      env.randEphemeral.isOk → ∀ bundle,
      recipientKeyBundle.or (c.keyBundleCache.lookup recipient) = some bundle →
      Authentic B recipient bundle) := by
  constructor
  · intro h hconnected hidentity hnone hrand bundle hbundle
    exact h bundle ⟨hnone, hbundle,
      (session_opened_iff hnone hbundle).mpr ⟨hconnected, hidentity, hrand⟩⟩
  · rintro h bundle ⟨hnone, hbundle, hopened⟩
    obtain ⟨hconnected, hidentity, hrand⟩ := (session_opened_iff hnone hbundle).mp hopened
    exact h hconnected hidentity hnone hrand bundle hbundle

/-! ## Creation -/

/-- A created bundle passes the check exactly if the two public keys of the identity are one. -/
theorem created_authentic_iff (hB : B.Correct) {edPrivate : ByteArr 64}
    {randDH rand : Except String (ByteArr 32)} {identity : IdentityKeyPair} {keyID : UInt32}
    {timestamp : UInt64} {spk : SignedPreKeyPrivate}
    (hidentity : generateIdentityKeyPair K (.ok (B.publicKey edPrivate, edPrivate)) randDH =
      .ok identity)
    (hspk : generateSignedPreKey K keyID identity rand timestamp B.sign = .ok spk)
    (address : Address) (opks : List OneTimePreKeyPrivate) (registrationID : UInt32) :
    Authentic B address (createKeyBundle address identity spk opks registrationID) ↔
      identity.dhPublic = identity.publicKey := by
  cases randDH with
  | error e => cases hidentity
  | ok dhPrivate =>
    cases hidentity
    cases rand with
    | error e => cases hspk
    | ok privateKey =>
      cases hspk
      constructor
      · exact fun h => hB.publicKey_eq _ _ _ h.2
      · intro h
        refine ⟨rfl, ?_⟩
        have heq : K.scalarBaseMult dhPrivate = B.publicKey edPrivate := h
        change B.verify (K.scalarBaseMult dhPrivate) _ _ = true
        rw [heq]
        exact hB.verify_sign edPrivate _

/-- Bundles are authentic where they are taken from, and created ones pass the check, exactly under
these conditions. -/
theorem bundles_authentic_iff (hB : B.Correct) :
    (∀ (c : Client K) dhtNode peerAddress,
      (∀ bundle, (discoverKeyBundle B c dhtNode peerAddress).result = .ok bundle →
        Authentic B peerAddress bundle) ↔
      ∀ node data value bundle, dhtNode = some node →
        (node.storage.get (B.newNodeID peerAddress.bytes) node.getAt).or
          (node.remote (B.newNodeID peerAddress.bytes)) = some data →
        Dht.verifyAndExtract node.suite (Dht.unix node.verifyAt) data = .ok value →
        B.unmarshal value = .ok bundle → Authentic B peerAddress bundle) ∧
    (∀ (c : Client K) recipient recipientKeyBundle plaintext env,
      (∀ bundle, AcceptsBundle c recipient recipientKeyBundle plaintext env bundle →
        Authentic B recipient bundle) ↔
      (c.connected = true → c.x3dhIdentity.isSome → c.ratchetSessions.lookup recipient = none →
        env.randEphemeral.isOk → ∀ bundle,
        recipientKeyBundle.or (c.keyBundleCache.lookup recipient) = some bundle →
        Authentic B recipient bundle)) ∧
    ∀ edPrivate randDH identity keyID rand timestamp spk,
      generateIdentityKeyPair K (.ok (B.publicKey edPrivate, edPrivate)) randDH = .ok identity →
      generateSignedPreKey K keyID identity rand timestamp B.sign = .ok spk →
      ∀ address opks registrationID,
        Authentic B address (createKeyBundle address identity spk opks registrationID) ↔
          identity.dhPublic = identity.publicKey :=
  ⟨discover_authentic_iff, send_authentic_iff,
    fun _ _ _ _ _ _ _ hidentity hspk => created_authentic_iff hB hidentity hspk⟩

/-! ## A forged bundle -/

/-- A signature starts with the public key of its author, and a private key ends with its public
key. Every text decodes to one bundle. -/
def stampSuite (bundle : KeyBundle) : BundleSuite where
  sign privateKey _ := ofSlice 64 (ofSlice 32 (privateKey.bytes.drop 32)).bytes
  verify publicKey _ signature := ofSlice 32 signature.bytes = publicKey
  publicKey privateKey := ofSlice 32 (privateKey.bytes.drop 32)
  unmarshal _ := .ok bundle
  newNodeID _ := zero 20

theorem stampSuite_correct (bundle : KeyBundle) : (stampSuite bundle).Correct := by
  have hstamp publicKey : ofSlice 32 (ofSlice 64 publicKey.bytes).bytes = publicKey := by
    have hbytes : (ofSlice 64 publicKey.bytes).bytes =
        publicKey.bytes ++ List.replicate 32 0 := by
      simp [ofSlice, List.take_append]
    rw [hbytes, ofSlice_append]
  constructor
  · intro privateKey message
    exact decide_eq_true (hstamp _)
  · intro publicKey privateKey message h
    exact ((hstamp _).symm.trans (of_decide_eq_true h)).symm

/-- A node that finds an entry with an empty value for every key. -/
def openNode : DhtNode where
  suite :=
    { sign _ _ := []
      verify _ _ _ := true
      marshal _ := .ok []
      unmarshal data :=
        .ok ⟨zero 20, data, List.replicate 32 0, List.replicate 64 0, 0, 0, []⟩ }
  storage := .empty
  remote _ := some []
  getAt := 0
  verifyAt := 0

/-- A bundle for another address with a signature of nobody. -/
def forgedBundle : KeyBundle where
  address := fill 20 9
  identityKey := fill 32 8
  signedPreKey := ⟨1, fill 32 7, zero 64, 0⟩
  oneTimePreKeys := []
  registrationID := 0

def stampedPreKey : SignedPreKeyPrivate :=
  ⟨1, fill 32 3, fill 32 3, (stampSuite forgedBundle).sign (fill 64 5) [], 0⟩

/-- The bundle of an identity whose two public keys are one. -/
def stampedBundle : KeyBundle := createKeyBundle (fill 20 2) (sampleIdentity 5) stampedPreKey [] 0

theorem bundles_authentic_stamped :
    Authentic (stampSuite stampedBundle) (fill 20 2) stampedBundle ∧
    (∀ bundle, (discoverKeyBundle (stampSuite stampedBundle) (sampleClient 1 ∅) (some openNode)
      (fill 20 2)).result = .ok bundle →
        Authentic (stampSuite stampedBundle) (fill 20 2) bundle) ∧
    ∀ plaintext env bundle,
      AcceptsBundle (sampleClient 1 ∅) (fill 20 2) (some stampedBundle) plaintext env bundle →
        Authentic (stampSuite stampedBundle) (fill 20 2) bundle := by
  obtain ⟨hdiscover, hsend, hcreated⟩ :=
    bundles_authentic_iff (K := freeSuite) (stampSuite_correct stampedBundle)
  have hauthentic : Authentic (stampSuite stampedBundle) (fill 20 2) stampedBundle :=
    (hcreated (fill 64 5) (.ok (fill 32 5)) (sampleIdentity 5) 1 (.ok (fill 32 3)) 0 stampedPreKey
      rfl rfl (fill 20 2) [] 0).mpr rfl
  refine ⟨hauthentic, ?_, ?_⟩
  · refine (hdiscover _ _ _).mpr fun node data value bundle _ _ _ hjson => ?_
    cases hjson
    exact hauthentic
  · intro plaintext env
    refine (hsend _ _ _ _ _).mpr fun _ _ _ _ bundle hbundle => ?_
    cases hbundle
    exact hauthentic

/-- A bundle for another address, with a wrong signature, is taken for a session; that of an
identity with two different keys does not pass the check. -/
theorem forged_bundle_accepted :
    ¬ Authentic (stampSuite forgedBundle) (fill 20 2) forgedBundle ∧
    (discoverKeyBundle (stampSuite forgedBundle) (sampleClient 1 ∅) (some openNode)
      (fill 20 2)).result = .ok forgedBundle ∧
    (∀ plaintext (env : SendEnv), env.randEphemeral.isOk →
      AcceptsBundle (sampleClient 1 ∅) (fill 20 2) (some forgedBundle) plaintext env forgedBundle) ∧
    ∃ identity spk,
      generateIdentityKeyPair freeSuite
        (.ok ((stampSuite forgedBundle).publicKey (fill 64 5), fill 64 5)) (.ok (fill 32 6)) =
          .ok identity ∧
      generateSignedPreKey freeSuite 1 identity (.ok (fill 32 3)) 0
        (stampSuite forgedBundle).sign = .ok spk ∧
      ¬ Authentic (stampSuite forgedBundle) (fill 20 2)
        (createKeyBundle (fill 20 2) identity spk [] 0) := by
  have hidentity : generateIdentityKeyPair freeSuite
      (.ok ((stampSuite forgedBundle).publicKey (fill 64 5), fill 64 5)) (.ok (fill 32 6)) =
        .ok ⟨(stampSuite forgedBundle).publicKey (fill 64 5), fill 64 5, fill 32 6, fill 32 6⟩ :=
    rfl
  obtain ⟨spk, hspk⟩ : ∃ spk, generateSignedPreKey freeSuite 1
      ⟨(stampSuite forgedBundle).publicKey (fill 64 5), fill 64 5, fill 32 6, fill 32 6⟩
      (.ok (fill 32 3)) 0 (stampSuite forgedBundle).sign = .ok spk := ⟨_, rfl⟩
  refine ⟨fun h => absurd h.1 (by decide), rfl, fun plaintext env hrand => ?_, _, spk, hidentity,
    hspk, fun h => ?_⟩
  · exact ⟨rfl, rfl, (session_opened_iff rfl rfl).mpr ⟨rfl, rfl, hrand⟩⟩
  · have hkeys := (created_authentic_iff (stampSuite_correct forgedBundle) hidentity hspk
      (fill 20 2) [] 0).mp h
    exact absurd hkeys (by decide)

end Zentalk
