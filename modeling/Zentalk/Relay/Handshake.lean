import Zentalk.Relay.Server

/-!
# The first frame on a new connection

`handleHandshake` stores the peer before it sends the acknowledgement (`handshakeAck_first`).
-/

namespace Zentalk

open Wire Runs List Option Relay

variable {ι : Type*} {attached : Bool}

/-! ## What a client receives -/

section

variable [DecidableEq ι]

def RelayEvent.bytesTo (c : ι) : RelayEvent ι → Bytes
  | header _ conn send => if conn = c then send.header.encode else []
  | payload _ conn send => if conn = c then send.payloadBytes else []
  | queuedHeader _ conn _ send => if conn = c then send.header.encode else []
  | queuedPayload _ conn _ send => if conn = c then send.payloadBytes else []
  | _ => []

def streamTo (c : ι) (evs : List (RelayEvent ι)) : Bytes := evs.flatMap (RelayEvent.bytesTo c)

/-- `performHandshake` after its own handshake is sent, on what the relay writes to the
connection. -/
def performHandshake (stream : Bytes) : Except String Unit :=
  match readHeader stream with
  | .error e => .error e
  | .ok (ackHeader, rest) =>
    if ackHeader.type ≠ msgTypeHandshakeAck then .error "handshake failed"
    else if ackHeader.length > 0 then
      match readFull ackHeader.length.toNat rest with
      | .error e => .error e
      | .ok _ => .ok ()
    else .ok ()

/-- The relay has written nothing to the connection, or a handshake acknowledgement first. -/
def AckFirst (c : ι) (evs : List (RelayEvent ι)) : Prop :=
  streamTo c evs = [] ∨ ∃ handshake messageID rest,
    streamTo c evs = (RelaySend.sendHandshakeAck handshake messageID).header.encode ++ rest

end

/-! ## The conditions -/

/-- Nothing else arrives before the handshake, and it is not a connection that the relay dials. -/
def StartsWithHandshake (c : ι) (evs : List (RelayEvent ι)) (_ : Relay ι) : RelayEvent ι → Prop
  | .received c' _ => c' = c → ∃ address clientType, .registered c address clientType ∈ evs
  | .pinged c' _ => c' = c → ∃ address clientType, .registered c address clientType ∈ evs
  | .dialing g _ => g ≠ c
  | _ => True

def Task.Acknowledging : Task ι → Prop
  | serving _ (.ackHeader _ _) => True
  | _ => False

/-- While the handler is about to write the acknowledgement, no lookup finds the connection, and the
write does not fail. -/
def AckUndisturbed (c : ι) (_ : List (RelayEvent ι)) (s : Relay ι) : RelayEvent ι → Prop
  | .looked _ _ (some peer) => peer.conn = c → ¬ (s.tasks c).Acknowledging
  | .writeFailed g => g = c → ¬ (s.tasks c).Acknowledging
  | _ => True

/-! ## Who may write to a connection -/

/-- The connection that a handler writes to, or is going to. -/
def Handler.target? (c : ι) : Handler ι → Option ι
  | ackHeader _ _ => some c
  | ackPayload _ _ _ => some c
  | reply _ => some c
  | sendHeader _ _ conn _ => some conn
  | sendPayload _ _ conn _ => some conn
  | _ => none

def Drain.target? : Drain ι → Option ι
  | header conn _ _ => some conn
  | payload conn _ _ _ => some conn
  | delete conn _ _ => some conn
  | _ => none

/-- The connection that a goroutine writes to, or is going to. -/
def Task.target? (g : ι) : Task ι → Option ι
  | serving _ handler => handler.target? g
  | draining _ drain => drain.target?
  | _ => none

def Task.Silent : Task ι → Prop
  | serving _ .idle => True
  | serving _ .ended => True
  | serving _ _ => False
  | dialing _ => False
  | dialed => False
  | _ => True

section

theorem afterDelivery_target {fwd : Forwarded} {connected : Bool} {c x : ι}
    (htarget : (Handler.afterDelivery fwd connected).target? c = some x) : x = c := by
  cases connected with
  | false => cases htarget
  | true => exact (some.inj htarget).symm

variable {h : Handler ι} {c x : ι} {e : RelayEvent ι} {s s' : Relay ι} {address : Address}

theorem found_target (attached : Bool) (hlookup : h.lookup? = some address)
    (peer? : Option (Peer ι)) (htarget : (h.found attached peer?).target? c = some x) :
    x = c ∨ ∃ peer, peer? = some peer ∧ peer.conn = x := by
  cases h with
  | checkHop fwd =>
    cases peer? with
    | none => cases htarget
    | some peer =>
      unfold Handler.found at htarget
      dsimp only at htarget
      split at htarget <;> cases htarget
  | forward fwd =>
    cases peer? with
    | none => exact .inl (afterDelivery_target htarget)
    | some peer => exact .inr ⟨peer, rfl, some.inj htarget⟩
  | deliver fwd connected =>
    cases peer? with
    | none =>
      cases attached with
      | false => exact .inl (afterDelivery_target htarget)
      | true => cases htarget
    | some peer => exact .inr ⟨peer, rfl, some.inj htarget⟩
  | _ => cases hlookup

variable {peers : Address → Option (Peer ι)}

theorem handler_target {h' : Handler ι} (hs : Handler.Step attached peers c h e h')
    (htarget : h'.target? c = some x) :
    x = c ∨ h.target? c = some x ∨
      ∃ address peer, e = .looked c address (some peer) ∧ peer.conn = x := by
  cases hs with
  | looked _ address peer? hlookup =>
    rcases found_target attached hlookup peer? htarget with heq | ⟨peer, rfl, hpeer⟩
    · exact .inl heq
    · exact .inr (.inr ⟨address, peer, rfl, hpeer⟩)
  | headerFailed | payload | payloadFailed | queueFailed =>
    exact .inl (afterDelivery_target htarget)
  | header => exact .inr (.inl htarget)
  | pinged | ackHeader => exact .inl (some.inj htarget).symm
  | _ => cases htarget

variable {recipientAddr : Address}

theorem next_target {conn : ι} {rest : List QueuedMessage} {g : ι}
    (htarget : (Task.ofDrain recipientAddr (Drain.next conn rest)).target? g = some x) :
    conn = x := by
  cases rest with
  | nil => cases htarget
  | cons => exact some.inj htarget

theorem drain_target {d : ι} {y : Drain ι} {y' : Option (Drain ι)}
    (hs : Drain.Step peers d recipientAddr y e y')
    (htarget : (Task.ofDrain recipientAddr y').target? d = some x) :
    y.target? = some x ∨ ∃ address peer, e = .looked d address (some peer) ∧ peer.conn = x := by
  cases hs with
  | looked messages peer? hpeers =>
    cases peer? with
    | none => cases htarget
    | some peer => exact .inr ⟨recipientAddr, peer, rfl, next_target htarget⟩
  | headerFailed | payloadFailed | deleteFailed =>
    exact .inl (congrArg some (next_target htarget))
  | header | payload => exact .inl htarget

theorem not_silent_of_target {peerAddr : Address}
    (htarget : (Task.serving peerAddr h).target? c = some x) :
    ¬ (Task.serving peerAddr h).Silent := by
  cases h with
  | idle | ended => cases htarget
  | _ => exact fun hsilent => hsilent

theorem acknowledging_iff {task : Task ι} : task.Acknowledging ↔
    ∃ peerAddr address clientType, task = .serving peerAddr (.ackHeader address clientType) := by
  constructor
  · intro h
    cases task with
    | serving p handler =>
      cases handler with
      | ackHeader a ct => exact ⟨p, a, ct, rfl⟩
      | _ => exact h.elim
    | _ => exact h.elim
  · rintro ⟨p, a, ct, rfl⟩
    trivial

variable [DecidableEq ι]

theorem step_target (hs : Step attached s e s') {g : ι}
    (htarget : (s'.tasks g).target? g = some x) :
    (s.tasks g).target? g = some x ∨ (x = g ∧ ¬ (s'.tasks g).Silent) ∨
      ∃ address peer, e = .looked g address (some peer) ∧ peer.conn = x := by
  rcases hs.moves g with ⟨hsame, -⟩ | ⟨c, a, -, -, hstart⟩ | ⟨-, hmove⟩
  · rw [hsame] at htarget
    exact .inl htarget
  · rw [hstart] at htarget
    cases htarget
  · generalize s.tasks g = task at hmove ⊢
    generalize s'.tasks g = task' at hmove htarget ⊢
    cases hmove with
    | handler p h h' e hstep =>
      rcases handler_target hstep htarget with heq | hold | hfound
      · exact .inr (.inl ⟨heq, not_silent_of_target htarget⟩)
      · exact .inl hold
      · exact .inr (.inr hfound)
    | drain a y y' e hstep => exact (drain_target hstep htarget).imp_right .inr
    | registered =>
      exact .inr (.inl ⟨(some.inj htarget).symm, not_silent_of_target htarget⟩)
    | queued => exact .inr (.inl ⟨afterDelivery_target htarget, not_silent_of_target htarget⟩)
    | deleted => exact .inl (congrArg some (next_target htarget))
    | fetched => split at htarget <;> cases htarget
    | _ => cases htarget

theorem step_bytes (hs : Step attached s e s') (c : ι) :
    e.bytesTo c = [] ∨ ∃ g, e.goroutine? = some g ∧ (s.tasks g).target? g = some c := by
  have hif {conn : ι} (b : Bytes) : (if conn = c then b else []) = [] ∨ conn = c := by
    by_cases hconn : conn = c
    · exact .inr hconn
    · exact .inl (if_neg hconn)
  cases hs with
  | handler g p h h' e ht hstep =>
    cases hstep with
    | ackHeader | ackPayload | header | payload | reply =>
      refine (hif _).imp_right ?_
      rintro rfl
      exact ⟨g, rfl, by rw [ht]; rfl⟩
    | _ => exact .inl rfl
  | drain d a y y' e ht hstep =>
    cases hstep with
    | header | payload =>
      refine (hif _).imp_right ?_
      rintro rfl
      exact ⟨d, rfl, by rw [ht]; rfl⟩
    | _ => exact .inl rfl
  | _ => exact .inl rfl

theorem not_silent_registered {clientType : UInt8}
    (hs : Step attached s (.registered c address clientType) s') : ¬ (s'.tasks c).Silent := by
  obtain ⟨peerAddr, htask⟩ := hs.of_registered
  rw [htask]
  exact id

theorem step_silent (hs : Step attached s e s') (hsilent : (s.tasks c).Silent) :
    (s'.tasks c).Silent ∨ (∃ address clientType, e = .registered c address clientType) ∨
      (∃ fwd, e = .received c fwd) ∨ (∃ messageID, e = .pinged c messageID) ∨
      ∃ relayAddr, e = .dialing c relayAddr := by
  rcases hs.moves c with ⟨hsame, -⟩ | ⟨c', a, -, -, hstart⟩ | ⟨-, hmove⟩
  · rw [hsame]
    exact .inl hsilent
  · rw [hstart]
    exact .inl trivial
  · generalize s.tasks c = task at hmove hsilent
    generalize s'.tasks c = task' at hmove ⊢
    cases hmove with
    | handler p h h' e hstep =>
      cases hstep with
      | pinged messageID => exact .inr (.inr (.inr (.inl ⟨messageID, rfl⟩)))
      | received fwd => exact .inr (.inr (.inl ⟨fwd, rfl⟩))
      | looked _ _ _ hlookup =>
        cases h with
        | idle | ended => cases hlookup
        | _ => exact hsilent.elim
      | _ => exact hsilent.elim
    | registered p a clientType => exact .inr (.inl ⟨a, clientType, rfl⟩)
    | dialing a => exact .inr (.inr (.inr (.inr ⟨a, rfl⟩)))
    | queued | dialed => exact hsilent.elim
    | drain a y y' => cases y' <;> exact .inl trivial
    | deleted a conn msg rest => cases rest <;> exact .inl trivial
    | fetched => split <;> exact .inl trivial
    | _ => exact .inl trivial

theorem streamTo_snoc (c : ι) (evs : List (RelayEvent ι)) (e : RelayEvent ι) :
    streamTo c (evs ++ [e]) = streamTo c evs ++ e.bytesTo c := by
  rw [streamTo, flatMap_append, flatMap_singleton]
  rfl

/-- How far the handshake on the connection `c` is. -/
inductive AckStage (c : ι) (evs : List (RelayEvent ι)) (s : Relay ι) : Prop
  | before : (∀ address clientType, .registered c address clientType ∉ evs) →
      (∀ address, s.entry address ≠ some c) → (s.tasks c).Silent →
      (∀ g, (s.tasks g).target? g ≠ some c) → streamTo c evs = [] → AckStage c evs s
  | acking : (s.tasks c).Acknowledging → (∀ g, g ≠ c → (s.tasks g).target? g ≠ some c) →
      streamTo c evs = [] → AckStage c evs s
  | acked (handshake : Payload) (messageID : ByteArr 16) (rest : Bytes) :
      streamTo c evs = (RelaySend.sendHandshakeAck handshake messageID).header.encode ++ rest →
      AckStage c evs s

variable {c : ι} {evs : List (RelayEvent ι)} {s s' : Relay ι} {e : RelayEvent ι}

/-- Before the handshake nobody knows the connection, so nobody writes to it. -/
theorem ackStage_before (hnew : ∀ address clientType, .registered c address clientType ∉ evs)
    (hentry : ∀ address, s.entry address ≠ some c) (hsilent : (s.tasks c).Silent)
    (htarget : ∀ g, (s.tasks g).target? g ≠ some c) (hstream : streamTo c evs = [])
    (hclient : StartsWithHandshake c evs s e) (hs : Step attached s e s') :
    AckStage c (evs ++ [e]) s' := by
  have hbytes : e.bytesTo c = [] := by
    rcases step_bytes hs c with hnil | ⟨g, -, hg⟩
    · exact hnil
    · exact absurd hg (htarget g)
  have hstream' : streamTo c (evs ++ [e]) = [] := by
    rw [streamTo_snoc, hstream, hbytes, append_nil]
  have hfound g (address : Address) (peer : Peer ι) (he : e = .looked g address (some peer)) :
      peer.conn ≠ c := by
    rintro rfl
    subst he
    refine hentry address ?_
    rw [entry, hs.peers_of_looked]
    rfl
  rcases step_silent hs hsilent with hsilent' | ⟨a, ct, rfl⟩ | ⟨fwd, rfl⟩ | ⟨id, rfl⟩ | ⟨a, rfl⟩
  · refine .before ?_ ?_ hsilent' ?_ hstream'
    · intro a ct hmem
      rcases mem_append.mp hmem with hold | hlast
      · exact hnew a ct hold
      · obtain rfl := mem_singleton.mp hlast
        exact not_silent_registered hs hsilent'
    · intro a ha
      rcases hs.entry_cases ha with hold | ⟨ct, rfl⟩ | rfl
      · exact hentry a hold
      · exact not_silent_registered hs hsilent'
      · cases hs with
        | handler _ _ _ _ _ _ hstep => cases hstep
        | drain _ _ _ _ _ _ hstep => cases hstep
        | dialed _ _ ht =>
          rw [ht] at hsilent
          exact hsilent
    · intro g hg
      rcases step_target hs hg with hold | ⟨rfl, hloud⟩ | ⟨a, peer, he, hconn⟩
      · exact htarget g hold
      · exact hloud hsilent'
      · exact hfound g a peer he hconn
  · refine .acking ?_ ?_ hstream'
    · obtain ⟨peerAddr, htask⟩ := hs.of_registered
      rw [htask]
      trivial
    · intro g hne hg
      rcases step_target hs hg with hold | ⟨heq, -⟩ | ⟨a', peer, he, hconn⟩
      · exact htarget g hold
      · exact hne heq.symm
      · cases he
  · obtain ⟨a, ct, hmem⟩ := hclient rfl
    exact absurd hmem (hnew a ct)
  · obtain ⟨a, ct, hmem⟩ := hclient rfl
    exact absurd hmem (hnew a ct)
  · exact absurd rfl hclient

/-- Between the registration and the acknowledgement only the handler itself may write. -/
theorem ackStage_acking (hack : (s.tasks c).Acknowledging)
    (htarget : ∀ g, g ≠ c → (s.tasks g).target? g ≠ some c) (hstream : streamTo c evs = [])
    (hundisturbed : AckUndisturbed c evs s e) (hs : Step attached s e s') :
    AckStage c (evs ++ [e]) s' := by
  obtain ⟨p, a, ct, htask⟩ := acknowledging_iff.mp hack
  rcases hs.moves c with ⟨hsame, hg⟩ | ⟨c', a', -, habsent, -⟩ | ⟨-, hmove⟩
  · refine .acking ?_ ?_ ?_
    · rw [hsame]
      exact hack
    · intro g hne htarget'
      rcases step_target hs htarget' with hold | ⟨heq, -⟩ | ⟨a', peer, rfl, hconn⟩
      · exact htarget g hne hold
      · exact hne heq.symm
      · exact hundisturbed hconn hack
    · rcases step_bytes hs c with hnil | ⟨g, hgo, hto⟩
      · rw [streamTo_snoc, hstream, hnil, append_nil]
      · refine absurd hto (htarget g ?_)
        rintro rfl
        exact hg hgo
  · cases htask.symm.trans habsent
  · rw [htask] at hmove
    generalize s'.tasks c = task' at hmove
    cases hmove with
    | handler _ _ _ _ hstep =>
      cases hstep with
      | ackHeader _ _ handshake messageID =>
        refine .acked handshake messageID [] ?_
        rw [streamTo_snoc, hstream, nil_append, append_nil]
        exact if_pos rfl
      | ackHeaderFailed => exact absurd hack (hundisturbed rfl)
      | looked _ _ _ hlookup => cases hlookup

theorem ackStage_step (hstage : AckStage c evs s) (hclient : StartsWithHandshake c evs s e)
    (hundisturbed : AckUndisturbed c evs s e) (hs : Step attached s e s') :
    AckStage c (evs ++ [e]) s' := by
  cases hstage with
  | before hnew hentry hsilent htarget hstream =>
    exact ackStage_before hnew hentry hsilent htarget hstream hclient hs
  | acking hack htarget hstream => exact ackStage_acking hack htarget hstream hundisturbed hs
  | acked handshake messageID rest hstream =>
    refine .acked handshake messageID (rest ++ e.bytesTo c) ?_
    rw [streamTo_snoc, hstream, append_assoc]

theorem readFull_error {n : ℕ} {stream : Bytes} {e : String} (h : readFull n stream = .error e) :
    e = "EOF" ∨ e = "unexpected EOF" := by
  unfold readFull at h
  split_ifs at h
  · cases h
    exact .inl rfl
  · cases h
    exact .inr rfl

theorem performHandshake_ack (handshake : Payload) (messageID : ByteArr 16) (rest : Bytes) :
    performHandshake ((RelaySend.sendHandshakeAck handshake messageID).header.encode ++ rest) ≠
      .error "handshake failed" := by
  have htype : (RelaySend.sendHandshakeAck handshake messageID).header.type =
      msgTypeHandshakeAck := rfl
  rw [performHandshake, readHeader_append (RelaySend.validate_header _)]
  dsimp only
  rw [if_neg (not_not.mpr htype)]
  intro h
  split at h
  · split at h
    · next e hread =>
      cases h
      rcases readFull_error hread with heq | heq
      · exact absurd heq (by decide)
      · exact absurd heq (by decide)
    · cases h
  · cases h

theorem performHandshake_of_ackFirst (h : AckFirst c evs) :
    performHandshake (streamTo c evs) ≠ .error "handshake failed" := by
  rcases h with hnil | ⟨handshake, messageID, rest, hstream⟩
  · rw [hnil]
    exact fun heq => absurd (Except.error.inj heq) (by decide)
  · rw [hstream]
    exact performHandshake_ack handshake messageID rest

end

variable [DecidableEq ι]

/-- If the client starts with its handshake and no lookup finds the connection between its
registration and the acknowledgement, the acknowledgement is the first thing that the relay writes
to it. -/
theorem handshakeAck_first {queue : Queue} {now : ℤ} {evs : List (RelayEvent ι)} {s : Relay ι}
    (hrun : Run (Step attached) (init queue now) evs s) {c : ι}
    (hclient : Guarded (Step attached) (init queue now) (StartsWithHandshake c) evs)
    (hundisturbed : Guarded (Step attached) (init queue now) (AckUndisturbed c) evs) :
    AckFirst c evs ∧ performHandshake (streamTo c evs) ≠ .error "handshake failed" := by
  have hstage : AckStage c evs s := by
    refine Run.guarded_invariant ?_ (fun evs e s s' hi hg hs => ackStage_step hi hg.1 hg.2 hs) hrun
      (hclient.and hundisturbed)
    exact .before (by simp) (by simp [entry, init]) trivial
      (by simp [init, Task.target?]) rfl
  have hfirst : AckFirst c evs := by
    cases hstage with
    | before _ _ _ _ hstream => exact .inl hstream
    | acking _ _ hstream => exact .inl hstream
    | acked handshake messageID rest hstream => exact .inr ⟨handshake, messageID, rest, hstream⟩
  exact ⟨hfirst, performHandshake_of_ackFirst hfirst⟩

/-- A message for the client arrives on the connection `true` after the acknowledgement. -/
def ackedEvents : List (RelayEvent Bool) :=
  [.accepted false, .accepted true] ++
    ackEvents false samplePeer clientTypeUser sampleAckPayload (ByteArr.zero 16) ++
    [.received true sampleForwarded]

theorem handshakeAck_first_delivered : ∃ (evs : List (RelayEvent Bool)) (s : Relay Bool),
    Run (Step false) (idleRelay Bool) evs s ∧
    .header true false (.deliverMessage sampleAckPayload (ByteArr.zero 16)) ∈ evs ∧
    AckFirst false evs ∧ performHandshake (streamTo false evs) ≠ .error "handshake failed" := by
  have haccepted : Run (Step false) (idleRelay Bool) ([.accepted false] ++ [.accepted true])
      _ := (Run.nil.snoc (.accepted _ false rfl)).snoc (.accepted _ true rfl)
  have hreceived : Run (Step false) (idleRelay Bool) ackedEvents _ :=
    (haccepted.append (acknowledged_run (c := false) rfl samplePeer clientTypeUser
      sampleAckPayload (ByteArr.zero 16))).snoc
        (.handler _ true _ _ _ _ rfl (.received sampleForwarded (by decide)))
  have hchecked := hreceived.snoc
    (.handler _ true _ _ _ _ rfl (.looked _ samplePeer (some ⟨false, clientTypeUser⟩) rfl rfl))
  have hlooked := hchecked.snoc
    (.handler _ true _ _ _ _ rfl (.looked _ samplePeer (some ⟨false, clientTypeUser⟩) rfl rfl))
  have hrun := hlooked.snoc
    (.handler _ true _ _ _ _ rfl (.header sampleForwarded true false false (ByteArr.zero 16) _ rfl))
  have hclient : Guarded (Step false) (idleRelay Bool) (StartsWithHandshake false)
      ([] ++ ackedEvents) :=
    Guarded.nil.append_of_free _ (by simp [ackedEvents, ackEvents, StartsWithHandshake])
  have hundisturbed : Guarded (Step false) (idleRelay Bool) (AckUndisturbed false)
      ([] ++ ackedEvents) :=
    Guarded.nil.append_of_free _ (by simp [ackedEvents, ackEvents, AckUndisturbed])
  refine ⟨_, _, hrun, mem_append_right _ (mem_singleton_self _), handshakeAck_first hrun ?_ ?_⟩
  · exact Guarded.snoc (Guarded.snoc (hclient.snoc fun _ _ => trivial) fun _ _ => trivial)
      fun _ _ => trivial
  · refine Guarded.snoc (Guarded.snoc_of_run (fun _ _ _ _ h₁ h₂ => h₁.unique h₂)
      (hundisturbed.snoc_of_run (fun _ _ _ _ h₁ h₂ => h₁.unique h₂) hreceived ?_) hchecked ?_)
      fun _ _ => trivial
    · exact fun _ => id
    · exact fun _ => id

/-! ## A message that comes first -/

/-- Before the acknowledgement is written, a message for the client arrives on the connection `true`
and is delivered. -/
def overtakeEvents : List (RelayEvent Bool) :=
  [.accepted false, .accepted true, .registered false samplePeer clientTypeUser,
    .received true sampleForwarded, .looked true samplePeer (some ⟨false, clientTypeUser⟩),
    .looked true samplePeer (some ⟨false, clientTypeUser⟩),
    .header true false (.deliverMessage sampleAckPayload (ByteArr.zero 16))]

/-- The header of the message is the first thing that the client reads, and its handshake fails. -/
theorem handshakeAck_overtaken : ∃ s : Relay Bool,
    Run (Step false) (idleRelay Bool) overtakeEvents s ∧
    (s.tasks false).Acknowledging ∧
    performHandshake (streamTo false overtakeEvents) = .error "handshake failed" ∧
    ¬ AckFirst false overtakeEvents := by
  have haccepted : Run (Step false) (idleRelay Bool) ([] ++ [.accepted false]) _ :=
    Run.nil.snoc (.accepted _ false rfl)
  have hregistered := (haccepted.snoc (.accepted _ true rfl)).snoc
    (.registered _ false _ samplePeer clientTypeUser rfl)
  have hreceived := hregistered.snoc
    (.handler _ true _ _ _ _ rfl (.received sampleForwarded (by decide)))
  have hchecked := hreceived.snoc
    (.handler _ true _ _ _ _ rfl (.looked _ samplePeer (some ⟨false, clientTypeUser⟩) rfl rfl))
  have hlooked := hchecked.snoc
    (.handler _ true _ _ _ _ rfl (.looked _ samplePeer (some ⟨false, clientTypeUser⟩) rfl rfl))
  have hrun := hlooked.snoc
    (.handler _ true _ _ _ _ rfl (.header sampleForwarded true false false (ByteArr.zero 16) _ rfl))
  have hfailed : performHandshake (streamTo false overtakeEvents) = .error "handshake failed" := by
    rfl
  exact ⟨_, hrun, trivial, hfailed, fun hfirst => performHandshake_of_ackFirst hfirst hfailed⟩

end Zentalk
