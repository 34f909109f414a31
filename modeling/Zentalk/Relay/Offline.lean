import Zentalk.Relay.Wakeup

/-!
# The offline path against the online path

A delivery sends everything as `DirectMessage` (`queued_as_online_iff`).
-/

namespace Zentalk

open Wire Runs List ByteArr Relay

variable {ι : Type*} [DecidableEq ι]

/-! ## What a connected peer gets -/

/-- What `handleRelayForward` sends to a connected next hop of the client type. -/
def onlineSend (clientType : UInt8) (payload : Payload) (messageID : ByteArr 16) : RelaySend :=
  Handler.outgoing (clientType = clientTypeRelay) payload messageID

/-- The steps of a message for a peer that is connected. -/
def onlineEvents (c : ι) (fwd : Forwarded) (peer : Peer ι) (messageID : ByteArr 16) :
    List (RelayEvent ι) :=
  [.looked c fwd.nextHop (some peer), .looked c fwd.nextHop (some peer),
    .header c peer.conn (onlineSend peer.clientType fwd.payload messageID),
    .payload c peer.conn (onlineSend peer.clientType fwd.payload messageID)]

theorem looked_run {s : Relay ι} {c : ι} {peerAddr : Address} {fwd : Forwarded} {peer : Peer ι}
    (htask : s.tasks c = .serving peerAddr (.checkHop fwd))
    (hpeer : s.peers fwd.nextHop = some peer) :
    Run (Step true) s [.looked c fwd.nextHop (some peer), .looked c fwd.nextHop (some peer)]
      (s.set c (.serving peerAddr (.sendHeader fwd true peer.conn
        (peer.clientType = clientTypeRelay)))) := by
  have hchecked : Run (Step true) s ([] ++ [.looked c fwd.nextHop (some peer)]) _ :=
    Run.nil.snoc (.handler s c peerAddr _ _ _ htask
      (.looked (.checkHop fwd) fwd.nextHop _ rfl hpeer))
  by_cases hrelay : peer.clientType = clientTypeRelay
  · have hfound : (Handler.checkHop fwd).found true (some peer) = .forward fwd := if_pos hrelay
    rw [hfound] at hchecked
    rw [decide_eq_true hrelay]
    exact run_handler hchecked (.looked (.forward fwd) fwd.nextHop _ rfl hpeer)
  · have hfound : (Handler.checkHop fwd).found true (some peer) = .deliver fwd true :=
      if_neg hrelay
    rw [hfound] at hchecked
    rw [decide_eq_false hrelay]
    exact run_handler hchecked (.looked (.deliver fwd true) fwd.nextHop _ rfl hpeer)

/-- It is sent as `onlineSend` says. -/
theorem online_run {s : Relay ι} {c : ι} {peerAddr : Address} {fwd : Forwarded} {peer : Peer ι}
    (htask : s.tasks c = .serving peerAddr (.checkHop fwd))
    (hpeer : s.peers fwd.nextHop = some peer) (messageID : ByteArr 16) :
    Run (Step true) s (onlineEvents c fwd peer messageID)
      (s.set c (.serving peerAddr (.afterDelivery fwd true))) := by
  have hheader := run_handler (looked_run htask hpeer)
    (.header fwd true peer.conn _ messageID _ rfl)
  exact run_handler hheader (.payload fwd true peer.conn _)

/-! ## What is sent from the queue -/

/-- The row was written to a connection registered for its recipient, as a connected peer of the
client type gets it. -/
def SentAs (clientType : UInt8) (evs : List (RelayEvent ι)) (row : QueuedMessage) : Prop :=
  ∃ d conn send messageID,
    send.header = (onlineSend clientType row.encryptedPayload messageID).header ∧
    send.payloadBytes = (onlineSend clientType row.encryptedPayload messageID).payloadBytes ∧
    Found evs d row.recipientAddr conn
      [.queuedHeader d conn row send, .queuedPayload d conn row send]

section

variable {evs : List (RelayEvent ι)} {s : Relay ι} {row : QueuedMessage}

omit [DecidableEq ι] in
theorem sentAs_user (h : Delivered evs row) : SentAs clientTypeUser evs row := by
  obtain ⟨d, conn, messageID, hfound⟩ := h
  exact ⟨d, conn, row.send messageID, messageID, rfl, rfl, hfound⟩

theorem of_queuedHeader {s' : Relay ι} {d conn : ι} {msg : QueuedMessage} {send : RelaySend}
    (hs : Step true s (.queuedHeader d conn msg send) s') :
    ∃ messageID, send = msg.send messageID := by
  cases hs with
  | handler _ _ _ _ _ _ hstep => cases hstep
  | drain _ _ _ _ _ _ hstep =>
    cases hstep with
    | header _ _ _ messageID => exact ⟨messageID, rfl⟩

theorem not_sentAs_relay {s₀ : Relay ι} (hrun : Run (Step true) s₀ evs s) :
    ¬ SentAs clientTypeRelay evs row := by
  rintro ⟨d, conn, send, messageID, hheader, -, reg, ct, -, hsub⟩
  have hmem : .queuedHeader d conn row send ∈ evs := hsub.subset (by simp)
  obtain ⟨pre, post, rfl⟩ := append_of_mem hmem
  obtain ⟨s₁, s₂, -, hstep⟩ := hrun.split
  obtain ⟨messageID', rfl⟩ := of_queuedHeader hstep
  have htype : msgTypeDirectMessage = msgTypeRelayForward := congrArg Header.type hheader
  exact absurd htype (by decide)

omit [DecidableEq ι] in
theorem pair_sublist_snoc {a b e : RelayEvent ι} (h : [a, b].Sublist (evs ++ [e])) :
    [a, b].Sublist evs ∨ (a ∈ evs ∧ e = b) := by
  obtain ⟨l, last, heq, hl, hlast⟩ := sublist_append_iff.mp h
  cases hlast with
  | cons _ hnil =>
    obtain rfl := sublist_nil.mp hnil
    rw [append_nil] at heq
    exact .inl (heq ▸ hl)
  | cons_cons _ hnil =>
    obtain rfl := sublist_nil.mp hnil
    obtain ⟨rfl, hb⟩ := append_inj' (show [a] ++ [b] = l ++ [e] from heq) rfl
    exact .inr ⟨singleton_sublist.mp hl, (singleton_inj.mp hb).symm⟩

def CoveredSince (address : Address) (evs : List (RelayEvent ι)) (s : Relay ι) : Prop :=
  ∀ g c row, row.recipientAddr = address →
    [.queued g row, .registered c address clientTypeUser].Sublist evs → row ∈ s.queue.rows →
    s.now < row.expiresAt → s.peers address ≠ none → s.Covers row

theorem coveredSince_step {queue : Queue} {address : Address} {s' : Relay ι} {e : RelayEvent ι}
    (h : CoveredSince address evs s) (htype : HasType address clientTypeUser evs s e)
    (hok : Succeeds address evs s e) (hclock : ClockForward evs s e)
    (hfresh : FreshIDs queue evs s e) (hs : Step true s e s') :
    CoveredSince address (evs ++ [e]) s' := by
  rintro g c row rfl hsub hrow hunexpired hconn
  rcases pair_sublist_snoc hsub with hold | ⟨-, rfl⟩
  · have hbefore : row ∈ s.queue.rows := by
      rcases hs.row_after hrow with hbefore | ⟨-, g', rfl⟩
      · exact hbefore
      · -- its message ID would not be new
        have hqueued : EverQueued queue evs row := .inr ⟨g, hold.subset mem_cons_self⟩
        exact absurd rfl (hfresh row hqueued)
    refine covers_connected hs htype hok hclock hbefore hrow hunexpired hconn fun hpeers => ?_
    exact h g c row rfl hold hbefore ((now_le hclock hs).trans_lt hunexpired) hpeers
  · exact .inl ⟨c, willRead_registered hs⟩

theorem coveredSince_run {queue : Queue} {now : ℤ}
    (hrun : Run (Step true) (init queue now) evs s) {address : Address}
    (htype : Guarded (Step true) (init queue now) (HasType address clientTypeUser) evs)
    (hok : Guarded (Step true) (init queue now) (Succeeds address) evs)
    (hclock : Guarded (Step true) (init queue now) ClockForward evs)
    (hfresh : Guarded (Step true) (init queue now) (FreshIDs queue) evs) :
    CoveredSince address evs s := by
  refine Run.guarded_invariant ?_ ?_ hrun ((htype.and hok).and (hclock.and hfresh))
  · intro g c row _ hsub
    cases hsub
  · rintro evs e s s' h ⟨⟨htype, hok⟩, hclock, hfresh⟩ hs
    exact coveredSince_step h htype hok hclock hfresh hs

end

/-- Take a message queued for an address before a handshake of it, all of whose handshakes have one
client type. Once nothing for the address is in progress, it is connected and the message is not
expired, the message is gone from the queue and was sent as online exactly if that type is a user's.
-/
theorem queued_as_online_iff {queue : Queue} {now : ℤ} {evs : List (RelayEvent ι)} {s : Relay ι}
    (hrun : Run (Step true) (init queue now) evs s) {address : Address}
    {clientType : UInt8} (hkind : clientType = clientTypeUser ∨ clientType = clientTypeRelay)
    (htype : Guarded (Step true) (init queue now) (HasType address clientType) evs)
    (hok : Guarded (Step true) (init queue now) (Succeeds address) evs)
    (hclock : Guarded (Step true) (init queue now) ClockForward evs)
    (hfresh : Guarded (Step true) (init queue now) (FreshIDs queue) evs)
    {g c : ι} {row : QueuedMessage} (hrecipient : row.recipientAddr = address)
    (hqueued : [.queued g row, .registered c address clientType].Sublist evs)
    (hfinished : ∀ g, ¬ (s.tasks g).DeliversTo address) (hconn : s.peers address ≠ none)
    (hunexpired : s.now < row.expiresAt) :
    (row ∉ s.queue.rows ∧ SentAs clientType evs row) ↔ clientType = clientTypeUser := by
  subst hrecipient
  constructor
  · rintro ⟨-, hsent⟩
    rcases hkind with huser | rfl
    · exact huser
    · exact absurd hsent (not_sentAs_relay hrun)
  · rintro rfl
    have hgone : row ∉ s.queue.rows := by
      intro hrow
      refine not_covers_of_finished hfinished ?_
      exact coveredSince_run hrun htype hok hclock hfresh g c row rfl hqueued hrow hunexpired hconn
    refine ⟨hgone, sentAs_user ?_⟩
    have hever : EverQueued queue evs row := .inr ⟨g, hqueued.subset mem_cons_self⟩
    rcases (retained_run hrun hclock hfresh).kept row hever with hrow | hdelivered | hexpired
    · exact absurd hrow hgone
    · exact hdelivered
    · exact absurd hexpired (not_le.mpr hunexpired)

theorem queued_as_online_iff_served : ∃ s : Relay Three,
    Run (Step true) (init (Queue.empty 10) 0) servedEvents s ∧
    sampleRow ∉ s.queue.rows ∧ SentAs clientTypeUser servedEvents sampleRow := by
  obtain ⟨s, hrun, hpeer, hnow, -, hfinished⟩ := served_run
  have hfresh : Guarded (Step true) (init (Queue.empty 10) 0)
      (FreshIDs (Queue.empty 10)) servedEvents := by
    refine served_guarded (fun _ _ e hne => ?_) fun old hold => ?_
    · cases e with
      | queued g row => exact absurd rfl (hne g row)
      | _ => trivial
    · simp [EverQueued, missedSampleEvents, missedEvents, Queue.empty] at hold
  have hregistered : [.registered .two samplePeer clientTypeUser].Sublist
      (greetEvents Three.two .three samplePeer sampleAckPayload (zero 16)) :=
    singleton_sublist.mpr mem_cons_self
  have hsublist : [.queued .one sampleRow, .registered .two samplePeer clientTypeUser].Sublist
      servedEvents :=
    (((sublist_append_right missedSampleEvents [.queued .one sampleRow]).append
      hregistered).trans (sublist_append_left _ _)).trans (sublist_append_left _ _)
  have hunexpired : s.now < sampleRow.expiresAt := by
    rw [hnow]
    decide
  exact ⟨s, hrun, (queued_as_online_iff hrun (.inl rfl) served_hasType served_succeeds served_clock
    hfresh rfl hsublist (fun g hg => hfinished g (busyFor_of_deliversTo hg))
    (by simp [hpeer]) hunexpired).mpr rfl⟩

/-! ## A relay that registers -/

def relayEvents : List (RelayEvent Three) :=
  missedSampleEvents ++ [.queued .one sampleRow] ++
    ackEvents .two samplePeer clientTypeRelay sampleAckPayload (zero 16) ++
    [.returned .two]

/-- No write failed, the relay is connected, and the message is in the queue and was not sent. -/
theorem relay_left_in_queue : ∃ s : Relay Three,
    Run (Step true) (init (Queue.empty 10) 0) relayEvents s ∧
    (∀ g, .writeFailed g ∉ relayEvents) ∧ s.peers samplePeer = some ⟨.two, clientTypeRelay⟩ ∧
    (∀ g, ¬ (s.tasks g).BusyFor samplePeer) ∧ s.now < sampleRow.expiresAt ∧
    sampleRow ∈ s.queue.rows ∧ ¬ SentAs clientTypeRelay relayEvents sampleRow := by
  have hqueued := missedRelay_run.snoc (.queued _ Three.one (zero 20) sampleForwarded false
    (zero 16) sampleRow sampleQueue rfl rfl sampleQueue_queueMessage)
  have hacked := hqueued.append (acknowledged_run (c := Three.two) rfl samplePeer
    clientTypeRelay sampleAckPayload (zero 16))
  have hrun := hacked.snoc (.returned _ Three.two _ samplePeer clientTypeRelay rfl (by decide))
  refine ⟨_, hrun, ?_, rfl, fun g hbusy => ?_, by decide, mem_cons_self,
    not_sentAs_relay hrun⟩
  · simp [missedSampleEvents, missedEvents, ackEvents, relayEvents]
  · cases g with
    | one => cases hbusy
    | two => cases hbusy
    | three => exact hbusy

end Zentalk
