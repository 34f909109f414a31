import Zentalk.Network.Transport
import Zentalk.Exchange.Healing

/-!
# Two clients that may both open a session

If no call opens a second session, they go through the phases of `Phase` (`sessions_agree`).
-/

namespace Zentalk

open Wire Runs List Function Option Party MessageHeader

variable {K : Suite}

/-! ## The system -/

/-- Two clients and the packets in flight to each. -/
structure Net (K : Suite) where
  client : Party → Client K
  inbox : Party → List Packet

def Net.session (n : Net K) (p : Party) : Option (RatchetState K) :=
  (n.client p).ratchetSessions.lookup (n.client p.peer).address

/-- What a step shows: a client called `SendRatchetMessage` with this key bundle and this
randomness for an ephemeral key, or was given a packet. -/
inductive NetEvent
  | called (p : Party) (recipientKeyBundle : Option KeyBundle) (rand : Except String (ByteArr 32))
  | delivered (p : Party)

/-- Nothing of the call is lost: it succeeds, or it fails without any effect. -/
def SendOutcome.Whole (out : SendOutcome K) (c : Client K) : Prop :=
  out.result = .ok () ∨ out.client = c ∧ out.frames = []

/-- A client calls `SendRatchetMessage` for the other and its frames join the channel, or the
oldest packet of a channel is handled. Key bundles are genuine, and a chain has fewer than
`2 ^ 32` messages. -/
inductive Net.Step : Net K → NetEvent → Net K → Prop
  | send {n : Net K} (p : Party) {recipientKeyBundle plaintext} {env : SendEnv} {out} :
      sendRatchetMessage (n.client p) (n.client p.peer).address recipientKeyBundle plaintext env =
        out →
      Genuine (n.client p) (n.client p.peer) recipientKeyBundle →
      (∀ s, n.session p = some s → s.sendingMsgNum.toNat + 1 < 2 ^ 32) →
      out.Whole (n.client p) →
      Step n (.called p recipientKeyBundle env.randEphemeral)
        { client := update n.client p out.client
          inbox := update n.inbox p.peer
            (n.inbox p.peer ++ out.frames.map fun f => ⟨f.payload, plaintext⟩) }
  | deliver {n : Net K} (p : Party) {m : Packet} {rest} {env : ReceiveEnv} {c result} :
      n.inbox p = m :: rest →
      env.Serves (n.client p) m.payload →
      handleDirectMessage (n.client p) m.payload env = (c, result) →
      Step n (.delivered p)
        { client := update n.client p c
          inbox := update n.inbox p rest }

/-- No sessions and nothing in flight. -/
structure Net.Fresh (n : Net K) : Prop where
  sessions : ∀ p, (n.client p).ratchetSessions = ∅
  inbox : ∀ p, n.inbox p = []

/-- No call opens a session while the peer has one with the caller. -/
def NotCrossing (n : Net K) : NetEvent → Prop
  | .called p recipientKeyBundle rand =>
    (n.client p).opening (n.client p.peer).address recipientKeyBundle rand ≠ none →
      n.session p.peer = none
  | .delivered _ => True

/-- The two sessions are the ends of this handshake, with `p` as its initiator: they have its
root key and its DH keys, each with the other's as the peer's. -/
structure Stems (h : Handshake K) (eph : ByteArr 32) (p : Party) (s : Party → RatchetState K) :
    Prop where
  root : ∀ x, (s x).rootKey = (h.initiatorState eph).rootKey
  key : ∀ x, (s x).dhSendingPublic = ratchetKeys h eph p x
  mirror : ∀ x, (s x).dhReceivingPublic = (s x.peer).dhSendingPublic

/-- If both clients have a session with the other and no initial message is in flight, the sessions
stem from one handshake, and each client reads all that the other sent. -/
def Net.Agreed (n : Net K) : Prop :=
  ∀ s : Party → RatchetState K, (∀ x, n.session x = some (s x)) →
    (∀ x, ∀ m ∈ n.inbox x, ¬ IsInitial m.payload) →
    (∃ h eph p, h.initiator.address = (n.client p).address ∧
      h.responder.address = (n.client p.peer).address ∧ Stems h eph p s) ∧
    ∀ x, ReadsAll (n.client x.peer).address (n.client x) (n.inbox x)

def Packet.ofFlight (m : Flight) : Packet :=
  ⟨ratchetPayload m.header m.ciphertext, m.plaintext⟩

section

/-! ## The phases -/

/-- Where the two clients with these addresses are. `d` is the session as the two ends of the
ratchet see it; while the initial message is in flight, the responder's end is the one to be. -/
inductive Phase (addr : Party → Address) (n : Net K) : Prop
  | idle : (∀ x, (n.client x).ratchetSessions = ∅) → (∀ x, n.inbox x = []) → Phase addr n
  | opening {h : Handshake K} {eph : ByteArr 32} {p : Party} {d : Duplex K} :
      Quiet aesDecryptGCM (ratchetKeys h eph p) (h.initiatorState eph).rootKey d →
      OnlySession (n.client p) (addr p.peer) (d.state p) →
      d.state p.peer = h.responderState eph →
      (n.client p.peer).ratchetSessions = ∅ →
      h.initiator.address = addr p → h.responder = n.client p.peer →
      (∃ plaintext, n.inbox p.peer =
        ⟨initialPayload (h.initialMsg eph), plaintext⟩ :: (d.inbox p.peer).map Packet.ofFlight) →
      n.inbox p = [] → d.inbox p = [] → Phase addr n
  | established {h : Handshake K} {eph : ByteArr 32} {p : Party} {d : Duplex K} :
      Quiet aesDecryptGCM (ratchetKeys h eph p) (h.initiatorState eph).rootKey d →
      (∀ x, OnlySession (n.client x) (addr x.peer) (d.state x)) →
      h.initiator.address = addr p → h.responder.address = addr p.peer →
      (∀ x, n.inbox x = (d.inbox x).map Packet.ofFlight) → Phase addr n

/-! ## Deliveries -/

variable {keys : Party → DHPublicKey} {root : K.RootKey} {d : Duplex K} {x : Party} {c : Client K}
  {plaintext : Bytes} {env : SendEnv} {addr : Party → Address} {n : Net K} {sender : Address}

theorem quiet_handle (h : Quiet aesDecryptGCM keys root d) {m : Flight} {rest : List Flight}
    (hin : d.inbox x = m :: rest) (honly : OnlySession c sender (d.state x)) {env : ReceiveEnv}
    (hserves : env.Serves c (Packet.ofFlight m).payload) :
    handleDirectMessage c (Packet.ofFlight m).payload env =
      (c.setSession sender (d.state x).advanceReceiving, .decrypted sender m.plaintext) ∧
    Quiet aesDecryptGCM keys root
      { state := update d.state x (d.state x).advanceReceiving
        inbox := update d.inbox x rest
        published := d.published } := by
  obtain ⟨hdec, -, hquiet⟩ := quiet_deliver h hin (env.rand sender) d.published
  have hlen : m.header.length = 40 := by
    have hsync := h.sync x.peer
    rw [peer_peer, hin] at hsync
    obtain ⟨⟨num, -, hheader⟩, -⟩ := hsync.segment
    rw [hheader, length_encode]
  obtain ⟨hclient, hresult⟩ := handleDirectMessage_only hlen honly hserves hdec
  exact ⟨Prod.ext hclient ((hresult m.plaintext).mpr rfl), hquiet⟩

theorem quiet_reads (h : Quiet aesDecryptGCM keys root d)
    (honly : OnlySession c sender (d.state x)) :
    ReadsAll sender c ((d.inbox x).map Packet.ofFlight) := by
  generalize hin : d.inbox x = q
  induction q generalizing d c with
  | nil => exact trivial
  | cons m rest ih =>
    intro env hserves
    obtain ⟨hhandle, hquiet⟩ := quiet_handle h hin honly hserves
    rw [hhandle]
    refine ⟨fun _ => rfl, ih hquiet ?_ (update_self ..)⟩
    simp only [update_self]
    exact onlySession_set honly rfl

/-! ## Calls -/

theorem sendWithSession_ok (hgcm : K.GcmOpens) {recipient : Address} {session : RatchetState K}
    (hok : (sendWithSession c recipient session plaintext env).result = .ok ()) :
    ∃ ciphertext, aesDecryptGCM ciphertext session.sendingKey = .ok plaintext ∧
      let sent := sendWithSession c recipient session plaintext env
      sent.frames.map (fun f => (⟨f.payload, plaintext⟩ : Packet)) =
        [Packet.ofFlight ⟨session.nextHeader.encode, ciphertext, plaintext⟩] ∧
      SameKeys c sent.client ∧
      sent.client.ratchetSessions = c.ratchetSessions.insert recipient session.advanceSending := by
  obtain ⟨c', frames, result, heq, hkeys, hsessions, ⟨-, e, rfl, -⟩ |
    ⟨-, f, nonce, rfl, rfl, -, -, hpayload⟩⟩ :=
    sendWithSession_cases c recipient session plaintext env
  · rw [heq] at hok
    cases hok
  · refine ⟨_, aesDecryptGCM_seal hgcm nonce plaintext session.sendingKey, ?_⟩
    rw [heq]
    exact ⟨by rw [map_singleton, hpayload]; rfl, hkeys, hsessions⟩

variable {recipientKeyBundle : Option KeyBundle} {out : SendOutcome K}

theorem quiet_send (hgcm : K.GcmOpens) (h : Quiet aesDecryptGCM keys root d) {peer : Client K}
    (honly : OnlySession c peer.address (d.state x))
    (hlt : (d.state x).sendingMsgNum.toNat + 1 < 2 ^ 32)
    (hgenuine : Genuine c peer recipientKeyBundle)
    (hout : sendRatchetMessage c peer.address recipientKeyBundle plaintext env = out)
    (hok : out.result = .ok ()) :
    ∃ m : Flight,
      out.frames.map (fun f => (⟨f.payload, plaintext⟩ : Packet)) = [Packet.ofFlight m] ∧
      SameKeys c out.client ∧
      OnlySession out.client peer.address (d.state x).advanceSending ∧
      Quiet aesDecryptGCM keys root
        { d with
          state := update d.state x (d.state x).advanceSending
          inbox := update d.inbox x.peer (d.inbox x.peer ++ [m]) } := by
  obtain (⟨-, -, e, heq⟩ | ⟨-, session, -, hsome, heq⟩) | ⟨_, _, hnone, -⟩ :=
    send_cases hgenuine plaintext env
  · rw [← hout, heq] at hok
    cases hok
  · obtain rfl := some.inj (hsome.symm.trans honly.here)
    rw [heq] at hout
    subst hout
    obtain ⟨ciphertext, hopen, hframes, hkeys, hsessions⟩ := sendWithSession_ok hgcm hok
    exact ⟨_, hframes, hkeys, onlySession_set honly hsessions, quiet_encrypt h x hlt hopen⟩
  · rw [honly.here] at hnone
    cases hnone

theorem quiet_first (hdh : K.DHCommutes) (h : Handshake K) (eph : ByteArr 32) (x : Party)
    {ciphertext : Bytes}
    (hopen : aesDecryptGCM ciphertext (h.initiatorState eph).sendingKey = .ok plaintext) :
    ∃ d : Duplex K,
      Quiet aesDecryptGCM (ratchetKeys h eph x) (h.initiatorState eph).rootKey d ∧
      d.state x = (h.initiatorState eph).advanceSending ∧
      d.state x.peer = h.responderState eph ∧ d.inbox x = [] ∧
      d.inbox x.peer = [⟨(h.initiatorState eph).nextHeader.encode, ciphertext, plaintext⟩] := by
  let d₀ : Duplex K :=
    { state := update (fun _ => h.responderState eph) x (h.initiatorState eph)
      inbox := fun _ => []
      published := [] }
  have hstate : d₀.state x = h.initiatorState eph := by
    simp only [d₀, update_self]
  have hpeer : d₀.state x.peer = h.responderState eph := by
    simp only [d₀, update_peer]
  have hzero : (d₀.state x).sendingMsgNum = 0 := by
    rw [hstate]
    rfl
  rw [← hstate] at hopen
  refine ⟨_, quiet_encrypt (quiet_handshake hdh h eph hstate hpeer fun _ => rfl) x
    (by rw [hzero]; decide) hopen, ?_, ?_, ?_, ?_⟩
  · simp only [update_self, hstate]
  · simp only [update_peer]
    exact hpeer
  · simp only [update_of_peer, d₀]
  · simp only [update_self, d₀, nil_append]

/-- A call without a session opens a quiet one; the responder's end is still to be made. -/
theorem quiet_open (hdh : K.DHCommutes) (hgcm : K.GcmOpens) (x : Party) {peer : Client K}
    (hempty : c.ratchetSessions = ∅) (hgenuine : Genuine c peer recipientKeyBundle)
    (hout : sendRatchetMessage c peer.address recipientKeyBundle plaintext env = out)
    (hok : out.result = .ok ()) :
    ∃ (h : Handshake K) (eph : ByteArr 32) (m : Flight) (d : Duplex K),
      c.opening peer.address recipientKeyBundle env.randEphemeral ≠ none ∧
      h.initiator = c ∧ h.responder = peer ∧
      out.frames.map (fun f => (⟨f.payload, plaintext⟩ : Packet)) =
        [⟨initialPayload (h.initialMsg eph), plaintext⟩, Packet.ofFlight m] ∧
      SameKeys c out.client ∧ OnlySession out.client peer.address (d.state x) ∧
      Quiet aesDecryptGCM (ratchetKeys h eph x) (h.initiatorState eph).rootKey d ∧
      d.state x.peer = h.responderState eph ∧ d.inbox x = [] ∧ d.inbox x.peer = [m] := by
  obtain (⟨-, -, e, heq⟩ | ⟨-, session, -, hsome, -⟩) | ⟨h, eph, -, hinit, hresp, hopening,
    ⟨-, frames, e, -, heq⟩ | ⟨-, f, -, -, hpayload, heq⟩⟩ := send_cases hgenuine plaintext env
  · rw [← hout, heq] at hok
    cases hok
  · rw [hempty] at hsome
    cases hsome
  · rw [← hout, heq] at hok
    cases hok
  · rw [heq] at hout
    subst hout
    obtain ⟨ciphertext, hopen, hframes, hkeys, hsessions⟩ := sendWithSession_ok hgcm hok
    have honly : OnlySession ((c.setSession peer.address (h.initiatorState eph)).persist
        peer.address (h.initiatorState eph) env.saveNew) peer.address (h.initiatorState eph) :=
      onlySession_first hempty rfl
    obtain ⟨d, hquiet, hstate, hpeer, hin, hin'⟩ := quiet_first hdh h eph x hopen
    refine ⟨h, eph, _, d, ?_, hinit, hresp, ?_, (sameKeys_persist _ _ _ _ _).trans hkeys, ?_,
      hquiet, hpeer, hin, hin'⟩
    · rw [hopening]
      exact some_ne_none _
    · rw [map_cons, hpayload, hframes]
    · rw [hstate]
      exact onlySession_set honly hsessions

/-! ## One step -/

/-- The net after a call of `x` with this outcome. -/
def Net.sends (n : Net K) (x : Party) (out : SendOutcome K) (plaintext : Bytes) : Net K :=
  { client := update n.client x out.client
    inbox := update n.inbox x.peer
      (n.inbox x.peer ++ out.frames.map fun f => ⟨f.payload, plaintext⟩) }

section Send

variable {addr : Party → Address} {n : Net K} {x : Party} {recipientKeyBundle : Option KeyBundle}
  {plaintext : Bytes} {env : SendEnv} {out : SendOutcome K}
  (haddr : ∀ x, (n.client x).address = addr x)
  (hout : sendRatchetMessage (n.client x) (n.client x.peer).address recipientKeyBundle plaintext
    env = out)
  (hgenuine : Genuine (n.client x) (n.client x.peer) recipientKeyBundle) (hok : out.result = .ok ())

include haddr hout hgenuine hok

theorem idle_send (hdh : K.DHCommutes) (hgcm : K.GcmOpens)
    (hempty : ∀ x, (n.client x).ratchetSessions = ∅) (hinbox : ∀ x, n.inbox x = []) :
    out.client.address = addr x ∧ Phase addr (Net.sends n x out plaintext) := by
  obtain ⟨h, eph, m, d, -, hinit, hresp, hframes, hkeys, honly, hquiet, hpeer, hd, hd'⟩ :=
    quiet_open hdh hgcm x (hempty x) hgenuine hout hok
  rw [haddr] at honly
  refine ⟨hkeys.address.trans (haddr x), ?_⟩
  refine .opening hquiet ?_ hpeer ?_ (hinit ▸ haddr x) ?_ ?_ ?_ hd
  · simp only [Net.sends, update_self]
    exact honly
  · simp only [Net.sends, update_peer]
    exact hempty x.peer
  · simp only [Net.sends, update_peer]
    exact hresp
  · simp only [Net.sends, update_self]
    rw [hinbox, hframes, hd']
    exact ⟨plaintext, rfl⟩
  · simp only [Net.sends, update_of_peer]
    exact hinbox x

theorem session_send (hgcm : K.GcmOpens) {keys : Party → DHPublicKey} {root : K.RootKey}
    {d : Duplex K} (hquiet : Quiet aesDecryptGCM keys root d)
    (honly : OnlySession (n.client x) (addr x.peer) (d.state x))
    (hlt : ∀ s, n.session x = some s → s.sendingMsgNum.toNat + 1 < 2 ^ 32) :
    ∃ m : Flight, out.frames.map (fun f => (⟨f.payload, plaintext⟩ : Packet)) =
        [Packet.ofFlight m] ∧
      out.client.address = addr x ∧
      OnlySession out.client (addr x.peer) (d.state x).advanceSending ∧
      Quiet aesDecryptGCM keys root
        { d with
          state := update d.state x (d.state x).advanceSending
          inbox := update d.inbox x.peer (d.inbox x.peer ++ [m]) } := by
  rw [← haddr] at honly
  obtain ⟨m, hframes, hkeys, honly', hquiet'⟩ :=
    quiet_send hgcm hquiet honly (hlt _ honly.here) hgenuine hout hok
  rw [haddr] at honly'
  exact ⟨m, hframes, hkeys.address.trans (haddr x), honly', hquiet'⟩

theorem phase_send (hdh : K.DHCommutes) (hgcm : K.GcmOpens) (hphase : Phase addr n)
    (hlt : ∀ s, n.session x = some s → s.sendingMsgNum.toNat + 1 < 2 ^ 32)
    (hcross : NotCrossing n (.called x recipientKeyBundle env.randEphemeral)) :
    out.client.address = addr x ∧ Phase addr (Net.sends n x out plaintext) := by
  cases hphase with
  | idle hempty hinbox => exact idle_send haddr hout hgenuine hok hdh hgcm hempty hinbox
  | @opening h eph p d hquiet honly hpeer hempty hinit hresp hin hin' hd =>
    obtain ⟨text, hin⟩ := hin
    rcases eq_or_eq_peer p x with rfl | rfl
    · obtain ⟨m, hframes, hc, honly', hquiet'⟩ :=
        session_send haddr hout hgenuine hok hgcm hquiet honly hlt
      refine ⟨hc, .opening hquiet' ?_ ?_ ?_ hinit ?_ ?_ ?_ ?_⟩
      · simp only [Net.sends, update_self]
        exact honly'
      · simp only [update_peer]
        exact hpeer
      · simp only [Net.sends, update_peer]
        exact hempty
      · simp only [Net.sends, update_peer]
        exact hresp
      · simp only [Net.sends, update_self]
        rw [hin, hframes, map_append, map_singleton, cons_append]
        exact ⟨text, rfl⟩
      · simp only [Net.sends, update_of_peer]
        exact hin'
      · simp only [update_of_peer]
        exact hd
    · -- the responder would open a second session
      obtain ⟨_, _, _, _, hopening, -⟩ := quiet_open hdh hgcm p.peer hempty hgenuine hout hok
      have hsome : n.session p.peer.peer = some (d.state p) := by
        rw [peer_peer, Net.session, haddr]
        exact honly.here
      have hnone := hcross hopening
      rw [hsome] at hnone
      cases hnone
  | @established h eph p d hquiet honly hinit hresp hinbox =>
    obtain ⟨m, hframes, hc, honly', hquiet'⟩ :=
      session_send haddr hout hgenuine hok hgcm hquiet (honly x) hlt
    refine ⟨hc, .established hquiet' ?_ hinit hresp ?_⟩
    · refine (forall_iff x).mpr ⟨?_, ?_⟩
      · simp only [Net.sends, update_self]
        exact honly'
      · simp only [Net.sends, update_peer]
        exact honly x.peer
    · refine (forall_iff x).mpr ⟨?_, ?_⟩
      · simp only [Net.sends, update_of_peer]
        exact hinbox x
      · simp only [Net.sends, update_self]
        rw [hinbox, hframes, map_append, map_singleton]

end Send

theorem phase_deliver (hdh : K.DHCommutes) (haddr : ∀ x, (n.client x).address = addr x)
    (hphase : Phase addr n) {m : Packet} {rest : List Packet} {env : ReceiveEnv} {result : Incoming}
    (hin : n.inbox x = m :: rest) (hserves : env.Serves (n.client x) m.payload)
    (hhandle : handleDirectMessage (n.client x) m.payload env = (c, result)) :
    c.address = addr x ∧
    Phase addr
      { client := update n.client x c
        inbox := update n.inbox x rest } := by
  cases hphase with
  | idle hempty hinbox =>
    rw [hinbox] at hin
    cases hin
  | @opening h eph p d hquiet honly hpeer hempty hinit hresp hinp hin' hd =>
    rcases eq_or_eq_peer p x with rfl | rfl
    · rw [hin'] at hin
      cases hin
    · obtain ⟨text, hinp⟩ := hinp
      rw [hinp] at hin
      obtain ⟨rfl, rfl⟩ := List.cons.inj hin
      have hnone : h.responder.ratchetSessions.lookup h.initiator.address = none := by
        rw [hresp, hempty]
        rfl
      have hinitialize := h.initialize_eq hdh eph hnone env.saveNew
      rw [hresp] at hinitialize
      have heq := handleDirectMessage_initial (h.initialMsg eph) (Nat.two_pow_pos 32)
        hserves.notRsa hinitialize
      obtain ⟨rfl, -⟩ := Prod.mk.inj (hhandle.symm.trans heq)
      refine ⟨haddr p.peer, .established hquiet ?_ hinit (hresp ▸ haddr p.peer) ?_⟩
      · refine (forall_iff p).mpr ⟨?_, ?_⟩
        · simp only [update_of_peer]
          exact honly
        · simp only [update_self, peer_peer]
          rw [hpeer, ← hinit]
          exact onlySession_first hempty rfl
      · refine (forall_iff p).mpr ⟨?_, ?_⟩
        · simp only [update_of_peer]
          rw [hin', hd]
          rfl
        · simp only [update_self]
  | @established h eph p d hquiet honly hinit hresp hinbox =>
    rw [hinbox] at hin
    obtain ⟨m, q, hq, rfl, rfl⟩ := map_eq_cons_iff.mp hin
    obtain ⟨heq, hquiet'⟩ := quiet_handle hquiet hq (honly x) hserves
    obtain ⟨rfl, -⟩ := Prod.mk.inj (hhandle.symm.trans heq)
    refine ⟨haddr x, .established hquiet' ?_ hinit hresp ?_⟩
    · refine (forall_iff x).mpr ⟨?_, ?_⟩
      · simp only [update_self]
        exact onlySession_set (honly x) rfl
      · simp only [update_peer]
        exact honly x.peer
    · refine (forall_iff x).mpr ⟨?_, ?_⟩
      · simp only [update_self]
      · simp only [update_peer]
        exact hinbox x.peer

theorem phase_step (hdh : K.DHCommutes) (hgcm : K.GcmOpens) {n' : Net K} {e : NetEvent}
    (h : (∀ x, (n.client x).address = addr x) ∧ Phase addr n) (hstep : Net.Step n e n')
    (hcross : NotCrossing n e) : (∀ x, (n'.client x).address = addr x) ∧ Phase addr n' := by
  obtain ⟨haddr, hphase⟩ := h
  have hupdate : ∀ x c, Client.address c = addr x →
      ∀ y, (update n.client x c y).address = addr y := fun x c hc =>
    (forall_update_iff n.client fun y c => Client.address c = addr y).mpr
      ⟨hc, fun y _ => haddr y⟩
  cases hstep with
  | @send p _ _ _ out hout hgenuine hlt hwhole =>
    rcases hwhole with hok | ⟨hsame, hframes⟩
    · obtain ⟨hc, hphase'⟩ := phase_send haddr hout hgenuine hok hdh hgcm hphase hlt hcross
      exact ⟨hupdate p _ hc, hphase'⟩
    · rw [hsame, hframes, map_nil, append_nil, update_eq_self, update_eq_self]
      exact ⟨haddr, hphase⟩
  | @deliver p _ _ _ c _ hin hserves hhandle =>
    obtain ⟨hc, hphase'⟩ := phase_deliver hdh haddr hphase hin hserves hhandle
    exact ⟨hupdate p c hc, hphase'⟩

theorem phase_agreed (haddr : ∀ x, (n.client x).address = addr x) (hphase : Phase addr n) :
    n.Agreed := by
  intro s hs hnone
  cases hphase with
  | idle hempty _ =>
    have h := hs .alice
    rw [Net.session, hempty] at h
    cases h
  | @opening _ _ p _ _ _ _ hempty _ _ _ _ _ =>
    have h := hs p.peer
    rw [Net.session, hempty] at h
    cases h
  | @established h eph p d hquiet honly hinit hresp hinbox =>
    have hstate : ∀ x, s x = d.state x := by
      intro x
      have h := hs x
      rw [Net.session, haddr, (honly x).here] at h
      exact (some.inj h).symm
    refine ⟨⟨h, eph, p, hinit.trans (haddr p).symm, hresp.trans (haddr p.peer).symm, ?_⟩, ?_⟩
    · refine ⟨fun x => ?_, fun x => ?_, fun x => ?_⟩
      · rw [hstate]
        exact (hquiet.keeps x).root
      · rw [hstate]
        exact (hquiet.keeps x).key
      · have hsync := hquiet.sync x.peer
        rw [peer_peer] at hsync
        rw [hstate, hstate]
        exact hsync.key
    · intro x
      rw [hinbox, haddr]
      exact quiet_reads hquiet (honly x)

end

/-- Two clients without sessions, in any interleaving with in-order delivery. If no call opens a
session while the peer has one with the caller, two sessions without an initial message in flight
always stem from one handshake, and each client reads all that the other sent. -/
theorem sessions_agree (hdh : K.DHCommutes) (hgcm : K.GcmOpens) {n₀ n : Net K} (hfresh : n₀.Fresh)
    {evs : List NetEvent}
    (hrun : Run (fun n e n' => Net.Step n e n' ∧ NotCrossing n e) n₀ evs n) : n.Agreed := by
  let addr : Party → Address := fun x => (n₀.client x).address
  obtain ⟨haddr, hphase⟩ := hrun.invariant
    (I := fun n => (∀ x, (n.client x).address = addr x) ∧ Phase addr n)
    ⟨fun _ => rfl, .idle hfresh.sessions hfresh.inbox⟩
    fun _ _ _ h hstep => phase_step hdh hgcm h hstep.1 hstep.2
  exact phase_agreed haddr hphase

/-! ## Two clients of the suite of terms -/

theorem call_step {n : Net K} (p : Party) {recipientKeyBundle : Option KeyBundle}
    (plaintext : Bytes) (env : SendEnv)
    (hgenuine : Genuine (n.client p) (n.client p.peer) recipientKeyBundle)
    (hlt : ∀ s, n.session p = some s → s.sendingMsgNum.toNat + 1 < 2 ^ 32)
    (hok : (sendRatchetMessage (n.client p) (n.client p.peer).address recipientKeyBundle plaintext
      env).result = .ok ()) :
    Net.Step n (.called p recipientKeyBundle env.randEphemeral)
      { client := update n.client p
          (sendRatchetMessage (n.client p) (n.client p.peer).address recipientKeyBundle plaintext
            env).client
        inbox := update n.inbox p.peer (n.inbox p.peer ++
          (sendRatchetMessage (n.client p) (n.client p.peer).address recipientKeyBundle plaintext
            env).frames.map fun f => ⟨f.payload, plaintext⟩) } :=
  .send p rfl hgenuine hlt (.inl hok)

theorem handle_step {n : Net K} (p : Party) {m : Packet} {rest : List Packet} (env : ReceiveEnv)
    (hin : n.inbox p = m :: rest) (hserves : env.Serves (n.client p) m.payload) :
    Net.Step n (.delivered p)
      { client := update n.client p (handleDirectMessage (n.client p) m.payload env).1
        inbox := update n.inbox p rest } :=
  .deliver p hin hserves rfl

def sampleFrame : FrameEnv :=
  { buildOnion := .ok
    messageID := fill 16 0
    writeHeader := .ok ()
    writeOnion := .ok () }

def sampleSend (b : UInt8) : SendEnv :=
  { randEphemeral := .ok (fill 32 b)
    saveNew := .written
    initial := sampleFrame
    randNonce := .ok (fill 12 0)
    saveSent := .written
    message := sampleFrame }

def sampleNet : Net freeSuite :=
  { client := Party.pick (sampleClient 1 ∅) (sampleClient 2 ∅)
    inbox := fun _ => [] }

theorem sampleNet_fresh : sampleNet.Fresh := by
  refine ⟨?_, fun _ => rfl⟩
  rintro (_ | _) <;> rfl

theorem sample_genuine (a b : UInt8) (initiatorSessions responderSessions : SessionMap freeSuite) :
    Genuine (sampleClient a initiatorSessions) (sampleClient b responderSessions)
      (some (meeting a b initiatorSessions responderSessions).bundle) :=
  fun _ _ h => ⟨meeting a b initiatorSessions responderSessions, rfl, rfl, some.inj h⟩

theorem sample_only (a b e : UInt8) (sessions : SessionMap freeSuite) (plaintext : Bytes) :
    OnlySession (sendRatchetMessage (sampleClient a ∅) (fill 20 b)
        (some (meeting a b ∅ sessions).bundle) plaintext (sampleSend e)).client (fill 20 b)
      ((meeting a b ∅ sessions).initiatorState (fill 32 e)).advanceSending := by
  have hopened : OnlySession ((sampleClient a ∅).setSession (fill 20 b)
      ((meeting a b ∅ sessions).initiatorState (fill 32 e))) (fill 20 b)
      ((meeting a b ∅ sessions).initiatorState (fill 32 e)) :=
    onlySession_first (c := sampleClient a ∅) rfl rfl
  exact onlySession_set hopened rfl

set_option maxRecDepth 4000 in
/-- Both clients open a session before the other's initial message arrives, and neither can read
what the other sends. -/
theorem crossing_disagrees : ∃ (evs : List NetEvent) (n : Net freeSuite),
    sampleNet.Fresh ∧ Run Net.Step sampleNet evs n ∧ ¬ n.Agreed := by
  have h0 : Run Net.Step sampleNet [] sampleNet := Run.nil
  have h1 := h0.snoc (call_step .alice [7] (sampleSend 5) (sample_genuine 1 2 ∅ ∅)
    (fun _ h => nomatch h) rfl)
  have h2 := h1.snoc (call_step .bob [8] (sampleSend 6) (sample_genuine 2 1 ∅ _)
    (fun _ h => nomatch h) rfl)
  have halice := sample_only 1 2 5 ∅ [7]
  have hbob := sample_only 2 1 6 (sampleClient 1 ∅).ratchetSessions [8]
  have h3 := h2.snoc (handle_step .bob (plainReceive [fill 20 1]) rfl (serves_only hbob _))
  have h4 := h3.snoc (handle_step .alice (plainReceive [fill 20 2]) rfl (serves_only halice _))
  refine ⟨_, _, sampleNet_fresh, h4, fun hagreed => ?_⟩
  obtain ⟨-, hreads⟩ := hagreed (pick _ _)
    (by
      rintro (_ | _)
      · exact halice.here
      · exact hbob.here)
    (by
      rintro (_ | _) m hm
      · rw [mem_singleton.mp hm]
        exact not_isInitial_ratchetPayload (length_encode _) _
      · rw [mem_singleton.mp hm]
        exact not_isInitial_ratchetPayload (length_encode _) _)
  have hread := (hreads .bob (plainReceive [fill 20 1]) (serves_only hbob _)).1
    (not_isInitial_ratchetPayload (length_encode _) _)
  exact nomatch hread

theorem sessions_agree_opened : ∃ (evs : List NetEvent) (n : Net freeSuite),
    sampleNet.Fresh ∧
    Run (fun n e n' => Net.Step n e n' ∧ NotCrossing n e) sampleNet evs n ∧
    (∀ x, n.session x ≠ none) ∧ n.inbox .bob ≠ [] ∧ n.Agreed := by
  have h0 : Run (fun n e n' => Net.Step n e n' ∧ NotCrossing n e) sampleNet [] sampleNet :=
    Run.nil
  have h1 := h0.snoc ⟨call_step .alice [7] (sampleSend 5) (sample_genuine 1 2 ∅ ∅)
    (fun _ h => nomatch h) rfl, fun _ => rfl⟩
  have h2 := h1.snoc ⟨handle_step .bob (plainReceive []) rfl (serves_none rfl _), trivial⟩
  refine ⟨_, _, sampleNet_fresh, h2, ?_, cons_ne_nil _ _,
    sessions_agree freeSuite_dhCommutes freeSuite_gcmOpens sampleNet_fresh h2⟩
  rintro (_ | _) hnone
  · exact nomatch hnone
  · exact nomatch hnone

end Zentalk
