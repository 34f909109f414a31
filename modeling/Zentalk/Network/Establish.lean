import Zentalk.Network.Session

/-!
# Session establishment

A `Handshake` is one client opening a session with the key bundle of another
(`handshake_establishes`).
-/

namespace Zentalk

open Wire Finmap List

/-- One client opens a session with the bundle of another. -/
structure Handshake (K : Suite) where
  initiator : Client K
  responder : Client K
  aliceIdentity : IdentityKeyPair
  bobIdentity : IdentityKeyPair
  signedPreKey : SignedPreKeyPrivate
  /-- The one-time prekeys the bundle was built from, in the order of the bundle. -/
  oneTimePreKeys : List OneTimePreKeyPrivate
  registrationID : UInt32
  initiator_identity : initiator.x3dhIdentity = some aliceIdentity
  responder_identity : responder.x3dhIdentity = some bobIdentity
  holds_signedPreKey : responder.signedPreKey = some signedPreKey
  alice_valid : aliceIdentity.Valid K
  bob_valid : bobIdentity.Valid K
  signedPreKey_valid : signedPreKey.Valid K
  oneTimePreKeys_valid : ∀ k ∈ oneTimePreKeys, k.Valid K
  keyIDs_nonzero : ∀ k ∈ oneTimePreKeys, k.keyID ≠ 0
  holds_used : ∀ k, oneTimePreKeys.head? = some k →
    responder.oneTimePreKeys.lookup k.keyID = some k

namespace Handshake

variable {K : Suite}

def bundle (h : Handshake K) : KeyBundle :=
  createKeyBundle h.responder.address h.bobIdentity h.signedPreKey h.oneTimePreKeys
    h.registrationID

/-- What the initiator's `SendRatchetMessage` computes for this bundle. -/
def opened (h : Handshake K) (rand : Except String (ByteArr 32)) :
    Except String (RatchetState K × InitialMessage) :=
  openSession K h.initiator.address h.responder.address h.aliceIdentity h.bundle rand

/-- The shared secret, as the initiator computes it. -/
def sharedSecret (h : Handshake K) (eph : ByteArr 32) : ByteArr 32 :=
  x3dhSecret K (K.scalarMult h.aliceIdentity.dhPrivate h.signedPreKey.publicKey)
    (K.scalarMult eph h.bobIdentity.dhPublic) (K.scalarMult eph h.signedPreKey.publicKey)
    (h.oneTimePreKeys.head?.map fun k => K.scalarMult eph k.publicKey)

def initiatorState (h : Handshake K) (eph : ByteArr 32) : RatchetState K :=
  newRatchetState (h.sharedSecret eph) h.signedPreKey.publicKey eph (K.scalarBaseMult eph)
    h.initiator.address h.responder.address

def initialMsg (h : Handshake K) (eph : ByteArr 32) : InitialMessage :=
  { senderAddress := h.initiator.address
    identityKey := h.aliceIdentity.dhPublic
    ephemeralKey := K.scalarBaseMult eph
    usedSignedPreKeyID := h.signedPreKey.keyID
    usedOneTimePreKeyID := (h.oneTimePreKeys.head?.map OneTimePreKeyPrivate.keyID).getD 0
    ciphertext := [] }

def responderState (h : Handshake K) (eph : ByteArr 32) : RatchetState K :=
  responderSession (h.sharedSecret eph) h.signedPreKey (K.scalarBaseMult eph)
    h.responder.address h.initiator.address

variable (h : Handshake K) (eph : ByteArr 32)

theorem openSession_eq : h.opened (.ok eph) = .ok (h.initiatorState eph, h.initialMsg eph) := by
  simp only [opened, openSession, bundle, x3dhInitiator_bundle]
  rfl

theorem opened_ok {h : Handshake K} {rand : Except String (ByteArr 32)}
    {r : RatchetState K × InitialMessage} (hok : h.opened rand = .ok r) :
    ∃ eph, rand = .ok eph ∧ r = (h.initiatorState eph, h.initialMsg eph) := by
  cases rand with
  | error e => cases hok
  | ok eph =>
    rw [openSession_eq] at hok
    exact ⟨eph, rfl, (Except.ok.inj hok).symm⟩

theorem decode_initialMsg :
    InitialMessage.decode (h.initialMsg eph).encode = .ok (h.initialMsg eph) :=
  InitialMessage.decode_encode (Nat.two_pow_pos 32)

theorem responder_agrees (hdh : K.DHCommutes) (h : Handshake K) (eph : ByteArr 32) :
    x3dhResponder K h.bobIdentity h.signedPreKey h.responder.oneTimePreKeys (h.initialMsg eph) =
      (h.responder.oneTimePreKeys.without h.oneTimePreKeys.head?, .ok (h.sharedSecret eph)) := by
  have hopk : ∀ k, h.oneTimePreKeys.head? = some k →
      k.Valid K ∧ k.keyID ≠ 0 ∧ h.responder.oneTimePreKeys.lookup k.keyID = some k := by
    intro k hk
    have hmem := mem_of_mem_head? hk
    exact ⟨h.oneTimePreKeys_valid k hmem, h.keyIDs_nonzero k hmem, h.holds_used k hk⟩
  exact x3dhResponder_agrees hdh h.alice_valid h.bob_valid h.signedPreKey_valid hopk
    (x3dhInitiator_bundle h.initiator.address h.responder.address _ _ _ _ h.registrationID eph)

theorem initialize_eq (hdh : K.DHCommutes) (h : Handshake K) (eph : ByteArr 32)
    (hnone : h.responder.ratchetSessions.lookup h.initiator.address = none)
    (outcome : WriteOutcome) :
    initializeRatchetSession h.responder h.initiator.address (h.initialMsg eph) outcome =
      ((({ h.responder with
            oneTimePreKeys :=
              h.responder.oneTimePreKeys.without h.oneTimePreKeys.head? }).setSession
          h.initiator.address (h.responderState eph)).persist h.initiator.address
            (h.responderState eph) outcome, .ok ()) := by
  simp only [initializeRatchetSession, h.responder_identity, h.holds_signedPreKey, hnone,
    responder_agrees hdh]
  rfl

/-- With a session in place, the initial message has no effect. -/
theorem existing_session_ignores_message {s : RatchetState K}
    (hsome : h.responder.ratchetSessions.lookup h.initiator.address = some s)
    (outcome : WriteOutcome) :
    initializeRatchetSession h.responder h.initiator.address (h.initialMsg eph) outcome =
      (h.responder, .ok ()) := by
  simp only [initializeRatchetSession, h.responder_identity, h.holds_signedPreKey, hsome]

/-- The two clients run the session protocol with this ephemeral key and end with these two
sessions. The responder had no session with the initiator before. -/
inductive Completes (h : Handshake K) (eph : ByteArr 32) : RatchetState K → RatchetState K → Prop
  | intro {alice bob : RatchetState K} {initialMsg received : InitialMessage}
      {responder : Client K} {outcome : WriteOutcome} :
      h.responder.ratchetSessions.lookup h.initiator.address = none →
      h.opened (.ok eph) = .ok (alice, initialMsg) →
      InitialMessage.decode initialMsg.encode = .ok received →
      initializeRatchetSession h.responder received.senderAddress received outcome =
        (responder, .ok ()) →
      responder.ratchetSessions.lookup h.initiator.address = some bob →
      Completes h eph alice bob

theorem completes_eq (hdh : K.DHCommutes) {h : Handshake K} {eph : ByteArr 32}
    {alice bob : RatchetState K} (hc : h.Completes eph alice bob) :
    alice = h.initiatorState eph ∧ bob = h.responderState eph := by
  cases hc with
  | intro hnone hopened hdecode hinit hbob =>
    rw [openSession_eq] at hopened
    obtain ⟨rfl, rfl⟩ := Prod.mk.inj (Except.ok.inj hopened)
    rw [decode_initialMsg] at hdecode
    obtain rfl := Except.ok.inj hdecode
    obtain ⟨rfl, -⟩ := Prod.mk.inj (hinit.symm.trans (initialize_eq hdh h eph hnone _))
    exact ⟨rfl, Option.some.inj (hbob.symm.trans (lookup_insert _))⟩

theorem completes (hdh : K.DHCommutes) {h : Handshake K}
    (hnone : h.responder.ratchetSessions.lookup h.initiator.address = none) (eph : ByteArr 32) :
    h.Completes eph (h.initiatorState eph) (h.responderState eph) :=
  .intro hnone (openSession_eq h eph) (decode_initialMsg h eph)
    (initialize_eq hdh h eph hnone .written) (lookup_insert _)

def Established (h : Handshake K) (initiatorSession : RatchetState K) (responder : Client K) :
    Prop :=
  ∃ s, responder.ratchetSessions.lookup h.initiator.address = some s ∧
    s.rootKey = initiatorSession.rootKey ∧
    s.receivingChainKey = initiatorSession.sendingChainKey ∧
    s.dhReceivingPublic = initiatorSession.dhSendingPublic ∧
    s.dhSendingPublic = initiatorSession.dhReceivingPublic ∧
    ∀ id, responder.oneTimePreKeys.lookup id =
      if h.oneTimePreKeys.head?.map OneTimePreKeyPrivate.keyID = some id then none
      else h.responder.oneTimePreKeys.lookup id

def Establishes (h : Handshake K) : Prop :=
  ∀ rand session initialMsg outcome, h.opened rand = .ok (session, initialMsg) →
    ∃ received responder, InitialMessage.decode initialMsg.encode = .ok received ∧
      initializeRatchetSession h.responder received.senderAddress received outcome =
        (responder, .ok ()) ∧
      h.Established session responder

theorem lookup_without (pool : PreKeyPool) (used : Option OneTimePreKeyPrivate) (id : UInt32) :
    (pool.without used).lookup id =
      if used.map OneTimePreKeyPrivate.keyID = some id then none else pool.lookup id := by
  cases used with
  | none => rfl
  | some k =>
    by_cases hid : k.keyID = id
    · subst hid
      simp [PreKeyPool.without]
    · simp [PreKeyPool.without, hid, lookup_erase_ne (Ne.symm hid)]

/-- The responder's DH computation mirrors the initiator's. -/
theorem states_match (hdh : K.DHCommutes) (h : Handshake K) (eph : ByteArr 32) :
    (h.responderState eph).rootKey = (h.initiatorState eph).rootKey ∧
    (h.responderState eph).receivingChainKey = (h.initiatorState eph).sendingChainKey := by
  have hmix : K.dh h.signedPreKey.privateKey (K.scalarBaseMult eph) =
      K.dh eph h.signedPreKey.publicKey := by
    rw [h.signedPreKey_valid]
    exact hdh _ _
  simp only [responderState, responderSession, initiatorState, newRatchetState,
    newRatchetStateReceiver, hmix, and_self]

end Handshake

open Handshake in
/-- Without a session on the responder's side, the initial message leaves both sides with one root
key, matching chains and DH keys, and removes exactly the one-time prekey that was used. -/
theorem handshake_establishes {K : Suite} (hdh : K.DHCommutes) (h : Handshake K)
    (hnone : h.responder.ratchetSessions.lookup h.initiator.address = none) : h.Establishes := by
  intro rand session initialMsg outcome hok
  obtain ⟨eph, rfl, heq⟩ := opened_ok hok
  obtain ⟨rfl, rfl⟩ := Prod.mk.inj heq
  obtain ⟨hroot, hchain⟩ := states_match hdh h eph
  refine ⟨_, _, decode_initialMsg h eph, initialize_eq hdh h eph hnone outcome,
    h.responderState eph, lookup_insert _, hroot, hchain, rfl, rfl, ?_⟩
  exact lookup_without _ _

/-! ## A concrete handshake -/

def fill (n : Nat) (b : UInt8) : ByteArr n := ⟨replicate n b, length_replicate⟩

def sampleIdentity (b : UInt8) : IdentityKeyPair :=
  { publicKey := fill 32 b, privateKey := fill 64 b, dhPublic := fill 32 b, dhPrivate := fill 32 b }

def samplePreKey : SignedPreKeyPrivate :=
  { keyID := 1, publicKey := fill 32 3, privateKey := fill 32 3, signature := fill 64 0,
    timestamp := 0 }

def sampleOneTimeKey : OneTimePreKeyPrivate :=
  { keyID := 100, publicKey := fill 32 4, privateKey := fill 32 4 }

/-- A connected client with one one-time prekey and the given sessions. -/
def sampleClient (b : UInt8) (sessions : SessionMap freeSuite) : Client freeSuite :=
  { address := fill 20 b
    connected := true
    x3dhIdentity := some (sampleIdentity b)
    signedPreKey := some samplePreKey
    oneTimePreKeys := singleton 100 sampleOneTimeKey
    ratchetSessions := sessions
    keyBundleCache := ∅
    sessionStorage := none }

def meeting (a b : UInt8) (initiatorSessions responderSessions : SessionMap freeSuite) :
    Handshake freeSuite where
  initiator := sampleClient a initiatorSessions
  responder := sampleClient b responderSessions
  aliceIdentity := sampleIdentity a
  bobIdentity := sampleIdentity b
  signedPreKey := samplePreKey
  oneTimePreKeys := [sampleOneTimeKey]
  registrationID := 0
  initiator_identity := rfl
  responder_identity := rfl
  holds_signedPreKey := rfl
  alice_valid := rfl
  bob_valid := rfl
  signedPreKey_valid := rfl
  oneTimePreKeys_valid := by
    intro k hk
    rw [mem_singleton.mp hk]
    rfl
  keyIDs_nonzero := by
    intro k hk
    rw [mem_singleton.mp hk]
    decide
  holds_used := by
    intro k hk
    cases hk
    rfl

def sampleHandshake (sessions : SessionMap freeSuite) : Handshake freeSuite :=
  meeting 1 2 ∅ sessions

abbrev sampleInitiator : RatchetState freeSuite := (sampleHandshake ∅).initiatorState (fill 32 5)

abbrev sampleResponder : RatchetState freeSuite := (sampleHandshake ∅).responderState (fill 32 5)

theorem handshake_establishes_sample : freeSuite.DHCommutes ∧ (sampleHandshake ∅).Establishes :=
  ⟨freeSuite_dhCommutes, handshake_establishes freeSuite_dhCommutes (sampleHandshake ∅) rfl⟩

/-- A responder that has a session from an earlier handshake does not get the new one. -/
theorem existing_session_not_established :
    freeSuite.DHCommutes ∧
    ¬ (sampleHandshake (singleton (fill 20 1) sampleResponder)).Establishes := by
  refine ⟨freeSuite_dhCommutes, fun hest => ?_⟩
  obtain ⟨received, responder, hdec, hinit, _, _, _, _, _, _, hpool⟩ :=
    hest (.ok (fill 32 6)) _ _ .written (Handshake.openSession_eq _ _)
  cases hdec
  have hsame := Handshake.existing_session_ignores_message
    (sampleHandshake (singleton (fill 20 1) sampleResponder)) (fill 32 6)
    lookup_singleton_eq .written
  obtain ⟨hclient, -⟩ := Prod.mk.inj (hinit.symm.trans hsame)
  have hkey := hpool 100
  rw [hclient] at hkey
  cases hkey

end Zentalk
