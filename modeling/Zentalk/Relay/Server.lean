import Zentalk.Codec.Safety
import Zentalk.Relay.Queue

/-!
# The goroutines of a relay

A step is what one of the goroutines does until another may come in: `Step.moves`. Its label
determines it (`Step.unique`).
-/

namespace Zentalk

open Wire Runs Function Option ByteArr List

def clientTypeUser : UInt8 := 0x00
def clientTypeRelay : UInt8 := 0x01

/-- `Peer`. The public key and the time are not read anywhere; the address is its key. -/
structure Peer (ι : Type*) where
  conn : ι
  clientType : UInt8

/-- What `handleRelayForward` has after decrypting the layer: the next hop, the payload, and the
message ID of the header that came in. -/
structure Forwarded where
  nextHop : Address
  payload : Payload
  messageID : ByteArr 16

/-! ## Labels -/

/-- What a step shows. The first argument is the goroutine. -/
inductive RelayEvent (ι : Type*)
  /-- `acceptLoop` starts `handleConnection`. -/
  | accepted (c : ι)
  /-- `handleHandshake` stores the peer. -/
  | registered (c : ι) (address : Address) (clientType : UInt8)
  /-- `handleHandshake` returns the zero address. -/
  | handshakeFailed (c : ι)
  /-- `handleHandshake` returns without starting a delivery. -/
  | returned (c : ι)
  /-- `handleHandshake` starts `deliverQueuedMessages` and returns. -/
  | spawned (c d : ι)
  /-- A `RelayForward` frame arrives, and its layer is decrypted. -/
  | received (c : ι) (fwd : Forwarded)
  /-- A `Ping` frame arrives. -/
  | pinged (c : ι) (messageID : ByteArr 16)
  /-- A lookup in the table of peers. -/
  | looked (g : ι) (address : Address) (found : Option (Peer ι))
  /-- A header is written to a connection. -/
  | header (g conn : ι) (send : RelaySend)
  /-- A payload is written to a connection. -/
  | payload (g conn : ι) (send : RelaySend)
  /-- The header of a queued message is written to a connection. -/
  | queuedHeader (d conn : ι) (msg : QueuedMessage) (send : RelaySend)
  /-- The payload of a queued message is written to a connection. -/
  | queuedPayload (d conn : ι) (msg : QueuedMessage) (send : RelaySend)
  /-- A write fails, or the relay's own key cannot be exported for it. -/
  | writeFailed (g : ι)
  | queued (g : ι) (row : QueuedMessage)
  | queueFailed (g : ι)
  | fetched (d : ι) (messages : List QueuedMessage)
  | fetchFailed (d : ι)
  | deleted (d : ι) (msg : QueuedMessage)
  | deleteFailed (d : ι)
  /-- `handleConnection` ends and removes the peer. -/
  | removed (c : ι)
  /-- `handleConnection` closes its connection. -/
  | closed (c : ι)
  /-- `ConnectToRelay` does not find the relay among the peers. -/
  | dialing (g : ι) (relayAddr : Address)
  | dialFailed (g : ι)
  /-- `ConnectToRelay` stores the peer. -/
  | dialed (g : ι) (relayAddr : Address)
  /-- `ConnectToRelay` starts `handleConnection`. -/
  | started (g : ι)
  /-- A pass of `cleanupExpiredMessages`. -/
  | cleaned
  /-- The clock changes. -/
  | ticked (now : ℤ)

/-- The goroutine of a step. The cleanup and the clock have none. -/
def RelayEvent.goroutine? {ι : Type*} : RelayEvent ι → Option ι
  | accepted c | registered c _ _ | handshakeFailed c | returned c | spawned c _ | received c _ |
    pinged c _ | looked c _ _ | header c _ _ | payload c _ _ | queuedHeader c _ _ _ |
    queuedPayload c _ _ _ | writeFailed c | queued c _ | queueFailed c | fetched c _ |
    fetchFailed c | deleted c _ | deleteFailed c | removed c | closed c | dialing c _ |
    dialFailed c | dialed c _ | started c => some c
  | cleaned | ticked _ => none

/-! ## handleConnection -/

/-- Where `handleConnection` is. In `deliver`, `enqueue` and the two sends, `connected` says whether
`handleRelayForward` had found the next hop, and so goes on to `sendAck`. -/
inductive Handler (ι : Type*)
  /-- In `ReadHeader`. -/
  | idle
  /-- `handleHandshake` has stored the peer; the acknowledgement comes next. -/
  | ackHeader (address : Address) (clientType : UInt8)
  | ackPayload (address : Address) (clientType : UInt8) (send : RelaySend)
  | acked (address : Address) (clientType : UInt8)
  /-- `handleRelayForward` looks up the next hop. -/
  | checkHop (fwd : Forwarded)
  /-- `forwardToNextHop` looks it up. -/
  | forward (fwd : Forwarded)
  /-- `deliverMessage` looks it up. -/
  | deliver (fwd : Forwarded) (connected : Bool)
  | enqueue (fwd : Forwarded) (connected : Bool)
  | sendHeader (fwd : Forwarded) (connected : Bool) (conn : ι) (asRelay : Bool)
  | sendPayload (fwd : Forwarded) (connected : Bool) (conn : ι) (send : RelaySend)
  /-- `sendAck` or `handlePing` answers on the handler's own connection. -/
  | reply (send : RelaySend)
  /-- The peer is removed; the connection is closed next. -/
  | ended

namespace Handler

variable {ι : Type*}

def lookup? : Handler ι → Option Address
  | checkHop fwd => some fwd.nextHop
  | forward fwd => some fwd.nextHop
  | deliver fwd _ => some fwd.nextHop
  | _ => none

/-- `handleRelayForward` after `deliverMessage` or `forwardToNextHop`, whose errors it ignores. -/
def afterDelivery (fwd : Forwarded) (connected : Bool) : Handler ι :=
  if connected then reply (.sendAck fwd.messageID) else idle

/-- What the handler does with the result of its lookup. `attached` says whether the relay has
a queue. -/
def found (attached : Bool) (peer? : Option (Peer ι)) : Handler ι → Handler ι
  | checkHop fwd =>
    match peer? with
    | none => deliver fwd false
    | some peer => if peer.clientType = clientTypeRelay then forward fwd else deliver fwd true
  | forward fwd =>
    match peer? with
    | none => afterDelivery fwd true
    | some peer => sendHeader fwd true peer.conn true
  | deliver fwd connected =>
    match peer? with
    | none => if attached then enqueue fwd connected else afterDelivery fwd connected
    | some peer => sendHeader fwd connected peer.conn false
  | h => h

/-- What `forwardToNextHop` or `deliverMessage` sends. -/
def outgoing (asRelay : Bool) (payload : Payload) (messageID : ByteArr 16) : RelaySend :=
  if asRelay then .forwardToNextHop payload messageID else .deliverMessage payload messageID

/-- The steps of a handler that change only its own state. -/
inductive Step (attached : Bool) (peers : Address → Option (Peer ι)) (c : ι) :
    Handler ι → RelayEvent ι → Handler ι → Prop
  | pinged (messageID : ByteArr 16) :
      Step attached peers c idle (.pinged c messageID) (reply (.handlePing messageID))
  -- a layer without a next hop is an error
  | received (fwd : Forwarded) : fwd.nextHop ≠ zero 20 →
      Step attached peers c idle (.received c fwd) (checkHop fwd)
  | looked (h : Handler ι) (address : Address) (peer? : Option (Peer ι)) :
      h.lookup? = some address → peers address = peer? →
      Step attached peers c h (.looked c address peer?) (h.found attached peer?)
  | ackHeader (address clientType handshake messageID) :
      Step attached peers c (ackHeader address clientType)
        (.header c c (.sendHandshakeAck handshake messageID))
        (ackPayload address clientType (.sendHandshakeAck handshake messageID))
  | ackHeaderFailed (address clientType) :
      Step attached peers c (ackHeader address clientType) (.writeFailed c)
        (acked address clientType)
  | ackPayload (address clientType send) :
      Step attached peers c (ackPayload address clientType send) (.payload c c send)
        (acked address clientType)
  | ackPayloadFailed (address clientType send) :
      Step attached peers c (ackPayload address clientType send) (.writeFailed c)
        (acked address clientType)
  | header (fwd : Forwarded) (connected : Bool) (conn : ι) (asRelay : Bool)
      (messageID : ByteArr 16) (send : RelaySend) : send = outgoing asRelay fwd.payload messageID →
      Step attached peers c (sendHeader fwd connected conn asRelay) (.header c conn send)
        (sendPayload fwd connected conn send)
  | headerFailed (fwd connected conn asRelay) :
      Step attached peers c (sendHeader fwd connected conn asRelay) (.writeFailed c)
        (afterDelivery fwd connected)
  | payload (fwd connected conn send) :
      Step attached peers c (sendPayload fwd connected conn send) (.payload c conn send)
        (afterDelivery fwd connected)
  | payloadFailed (fwd connected conn send) :
      Step attached peers c (sendPayload fwd connected conn send) (.writeFailed c)
        (afterDelivery fwd connected)
  | queueFailed (fwd connected) :
      Step attached peers c (enqueue fwd connected) (.queueFailed c)
        (afterDelivery fwd connected)
  | reply (send) : Step attached peers c (reply send) (.header c c send) idle
  | replyFailed (send) : Step attached peers c (reply send) (.writeFailed c) idle

end Handler

/-! ## deliverQueuedMessages -/

/-- Where `deliverQueuedMessages` is. -/
inductive Drain (ι : Type*)
  | start
  /-- It has the messages and looks up the recipient. -/
  | fetched (messages : List QueuedMessage)
  /-- In the loop, with the current message and those after it. -/
  | header (conn : ι) (msg : QueuedMessage) (rest : List QueuedMessage)
  | payload (conn : ι) (msg : QueuedMessage) (rest : List QueuedMessage) (send : RelaySend)
  | delete (conn : ι) (msg : QueuedMessage) (rest : List QueuedMessage)

namespace Drain

variable {ι : Type*}

/-- The next round of the loop; `none` when the function returns. -/
def next (conn : ι) : List QueuedMessage → Option (Drain ι)
  | [] => none
  | msg :: rest => some (header conn msg rest)

/-- The steps of a delivery that change only its own state. -/
inductive Step (peers : Address → Option (Peer ι)) (d : ι) (recipientAddr : Address) :
    Drain ι → RelayEvent ι → Option (Drain ι) → Prop
  | looked (messages : List QueuedMessage) (peer? : Option (Peer ι)) :
      peers recipientAddr = peer? →
      Step peers d recipientAddr (fetched messages) (.looked d recipientAddr peer?)
        (peer?.bind fun peer => next peer.conn messages)
  | header (conn) (msg : QueuedMessage) (rest messageID) :
      Step peers d recipientAddr (header conn msg rest)
        (.queuedHeader d conn msg (.deliverQueuedMessages msg.encryptedPayload messageID))
        (some (payload conn msg rest (.deliverQueuedMessages msg.encryptedPayload messageID)))
  | headerFailed (conn msg rest) :
      Step peers d recipientAddr (header conn msg rest) (.writeFailed d) (next conn rest)
  | payload (conn msg rest send) :
      Step peers d recipientAddr (payload conn msg rest send) (.queuedPayload d conn msg send)
        (some (delete conn msg rest))
  | payloadFailed (conn msg rest send) :
      Step peers d recipientAddr (payload conn msg rest send) (.writeFailed d) (next conn rest)
  | deleteFailed (conn msg rest) :
      Step peers d recipientAddr (delete conn msg rest) (.deleteFailed d) (next conn rest)

end Drain

/-! ## The relay -/

inductive Task (ι : Type*)
  /-- Not started yet. -/
  | absent
  /-- `handleConnection`, with its variable `peerAddr`. -/
  | serving (peerAddr : Address) (handler : Handler ι)
  /-- `deliverQueuedMessages`. -/
  | draining (recipientAddr : Address) (drain : Drain ι)
  /-- `ConnectToRelay` dials the relay and exchanges the handshake. -/
  | dialing (relayAddr : Address)
  /-- `ConnectToRelay` has stored the peer. -/
  | dialed
  | done

def Task.ofDrain {ι : Type*} (recipientAddr : Address) : Option (Drain ι) → Task ι
  | none => .done
  | some drain => .draining recipientAddr drain

/-- `RelayServer`: the table of peers, the queue, the clock and the goroutines. -/
structure Relay (ι : Type*) where
  peers : Address → Option (Peer ι)
  queue : Queue
  now : ℤ
  tasks : ι → Task ι

namespace Relay

variable {ι : Type*} [DecidableEq ι]

/-- A relay that starts, with the queue that it finds. -/
def init (queue : Queue) (now : ℤ) : Relay ι := ⟨fun _ => none, queue, now, fun _ => .absent⟩

/-- One goroutine moves on. -/
def set (s : Relay ι) (g : ι) (task : Task ι) : Relay ι :=
  { s with tasks := update s.tasks g task }

/-- `delete(rs.peers, ...)` at the end of `handleConnection`, unless `peerAddr` is zero. -/
def removePeer (s : Relay ι) (peerAddr : Address) : Relay ι :=
  if peerAddr = zero 20 then s
  else { s with peers := update s.peers peerAddr none }

/-- The steps of a relay. `attached` says whether it has a queue. -/
inductive Step (attached : Bool) : Relay ι → RelayEvent ι → Relay ι → Prop
  | accepted (s : Relay ι) (c : ι) : s.tasks c = .absent →
      Step attached s (.accepted c) (s.set c (.serving (zero 20) .idle))
  | handler (s : Relay ι) (c peerAddr h h' e) :
      s.tasks c = .serving peerAddr h → Handler.Step attached s.peers c h e h' →
      Step attached s e (s.set c (.serving peerAddr h'))
  | registered (s : Relay ι) (c peerAddr address clientType) :
      s.tasks c = .serving peerAddr .idle →
      Step attached s (.registered c address clientType)
        { s.set c (.serving peerAddr (.ackHeader address clientType)) with
          peers := update s.peers address (some ⟨c, clientType⟩) }
  -- the payload is not read, or the public key in it is not valid
  | handshakeFailed (s : Relay ι) (c peerAddr) : s.tasks c = .serving peerAddr .idle →
      Step attached s (.handshakeFailed c) (s.set c (.serving (zero 20) .idle))
  | returned (s : Relay ι) (c peerAddr address clientType) :
      s.tasks c = .serving peerAddr (.acked address clientType) →
      ¬ (attached = true ∧ clientType = clientTypeUser) →
      Step attached s (.returned c) (s.set c (.serving address .idle))
  | spawned (s : Relay ι) (c d peerAddr address clientType) :
      s.tasks c = .serving peerAddr (.acked address clientType) →
      attached = true → clientType = clientTypeUser → s.tasks d = .absent →
      Step attached s (.spawned c d)
        ((s.set c (.serving address .idle)).set d (.draining address .start))
  | queued (s : Relay ι) (c peerAddr) (fwd : Forwarded) (connected messageID row queue) :
      s.tasks c = .serving peerAddr (.enqueue fwd connected) →
      row = s.queue.newRow s.now fwd.nextHop messageID fwd.payload →
      s.queue.queueMessage s.now fwd.nextHop messageID fwd.payload = .ok queue →
      Step attached s (.queued c row)
        { s.set c (.serving peerAddr (.afterDelivery fwd connected)) with queue := queue }
  | removed (s : Relay ι) (c peerAddr) : s.tasks c = .serving peerAddr .idle →
      Step attached s (.removed c) ((s.removePeer peerAddr).set c (.serving peerAddr .ended))
  | closed (s : Relay ι) (c peerAddr) : s.tasks c = .serving peerAddr .ended →
      Step attached s (.closed c) (s.set c .done)
  | dialing (s : Relay ι) (g relayAddr) : s.tasks g = .absent → s.peers relayAddr = none →
      Step attached s (.dialing g relayAddr) (s.set g (.dialing relayAddr))
  | dialFailed (s : Relay ι) (g relayAddr) : s.tasks g = .dialing relayAddr →
      Step attached s (.dialFailed g) (s.set g .done)
  | dialed (s : Relay ι) (g relayAddr) : s.tasks g = .dialing relayAddr →
      Step attached s (.dialed g relayAddr)
        { s.set g .dialed with peers := update s.peers relayAddr (some ⟨g, clientTypeRelay⟩) }
  | started (s : Relay ι) (g : ι) : s.tasks g = .dialed →
      Step attached s (.started g) (s.set g (.serving (zero 20) .idle))
  | drain (s : Relay ι) (d recipientAddr x x' e) :
      s.tasks d = .draining recipientAddr x → Drain.Step s.peers d recipientAddr x e x' →
      Step attached s e (s.set d (.ofDrain recipientAddr x'))
  | fetched (s : Relay ι) (d recipientAddr messages) :
      s.tasks d = .draining recipientAddr .start →
      s.queue.IsResult s.now recipientAddr messages →
      Step attached s (.fetched d messages)
        (s.set d (if messages = [] then .done else .draining recipientAddr (.fetched messages)))
  | fetchFailed (s : Relay ι) (d recipientAddr) : s.tasks d = .draining recipientAddr .start →
      Step attached s (.fetchFailed d) (s.set d .done)
  | deleted (s : Relay ι) (d recipientAddr conn msg rest) :
      s.tasks d = .draining recipientAddr (.delete conn msg rest) →
      Step attached s (.deleted d msg)
        { s.set d (.ofDrain recipientAddr (Drain.next conn rest)) with
          queue := s.queue.deleteMessage msg.messageID }
  | cleaned (s : Relay ι) :
      Step attached s .cleaned { s with queue := s.queue.cleanup s.now }
  | ticked (s : Relay ι) (now : ℤ) : Step attached s (.ticked now) { s with now := now }

end Relay

/-- What a step of the goroutine `g` does to its own state. -/
inductive Task.Move {ι : Type*} (attached : Bool) (s : Relay ι) (g : ι) :
    Task ι → RelayEvent ι → Task ι → Prop
  | accepted : Move attached s g .absent (.accepted g) (.serving (zero 20) .idle)
  | registered (p a clientType) :
      Move attached s g (.serving p .idle) (.registered g a clientType)
        (.serving p (.ackHeader a clientType))
  | handshakeFailed (p) :
      Move attached s g (.serving p .idle) (.handshakeFailed g) (.serving (zero 20) .idle)
  | returned (p a clientType) : ¬ (attached = true ∧ clientType = clientTypeUser) →
      Move attached s g (.serving p (.acked a clientType)) (.returned g) (.serving a .idle)
  | spawned (d p a clientType) :
      Move attached s g (.serving p (.acked a clientType)) (.spawned g d) (.serving a .idle)
  | queued (p fwd connected row) :
      Move attached s g (.serving p (.enqueue fwd connected)) (.queued g row)
        (.serving p (.afterDelivery fwd connected))
  | removed (p) : Move attached s g (.serving p .idle) (.removed g) (.serving p .ended)
  | closed (p) : Move attached s g (.serving p .ended) (.closed g) .done
  | dialing (a) : Move attached s g .absent (.dialing g a) (.dialing a)
  | dialFailed (a) : Move attached s g (.dialing a) (.dialFailed g) .done
  | dialed (a) : Move attached s g (.dialing a) (.dialed g a) .dialed
  | started : Move attached s g .dialed (.started g) (.serving (zero 20) .idle)
  | fetched (a messages) : s.queue.IsResult s.now a messages →
      Move attached s g (.draining a .start) (.fetched g messages)
        (if messages = [] then .done else .draining a (.fetched messages))
  | fetchFailed (a) : Move attached s g (.draining a .start) (.fetchFailed g) .done
  | deleted (a conn msg rest) :
      Move attached s g (.draining a (.delete conn msg rest)) (.deleted g msg)
        (.ofDrain a (Drain.next conn rest))
  | handler (p h h' e) : Handler.Step attached s.peers g h e h' →
      Move attached s g (.serving p h) e (.serving p h')
  | drain (a x x' e) : Drain.Step s.peers g a x e x' →
      Move attached s g (.draining a x) e (.ofDrain a x')

/-! ## The label determines the step -/

section

variable {ι : Type*} {attached : Bool} {peers : Address → Option (Peer ι)} {c : ι}

variable {e : RelayEvent ι}

theorem handler_goroutine {h h' : Handler ι} (hs : Handler.Step attached peers c h e h') :
    e.goroutine? = some c := by
  cases hs <;> rfl

variable {recipientAddr : Address}

theorem drain_goroutine {x : Drain ι} {x' : Option (Drain ι)}
    (hs : Drain.Step peers c recipientAddr x e x') : e.goroutine? = some c := by
  cases hs <;> rfl

theorem handler_unique {h h₁ h₂ : Handler ι} (hs₁ : Handler.Step attached peers c h e h₁)
    (hs₂ : Handler.Step attached peers c h e h₂) : h₁ = h₂ := by
  cases hs₁ <;> cases hs₂ <;> rfl

theorem drain_unique {x : Drain ι} {x₁ x₂ : Option (Drain ι)}
    (hs₁ : Drain.Step peers c recipientAddr x e x₁)
    (hs₂ : Drain.Step peers c recipientAddr x e x₂) : x₁ = x₂ := by
  cases hs₁ <;> cases hs₂ <;> rfl

end

namespace Relay

variable {ι : Type*} [DecidableEq ι] {attached : Bool}

variable {s s' : Relay ι} {e : RelayEvent ι} {g c d : ι} {peerAddr : Address}

theorem Step.unique {s₁ s₂ : Relay ι} (hs₁ : Step attached s e s₁) (hs₂ : Step attached s e s₂) :
    s₁ = s₂ := by
  cases hs₁ with
  | handler c p h h' e ht hstep =>
    cases hs₂ with
    | handler c₂ p₂ h₂ h₂' _ ht₂ hstep₂ =>
      obtain rfl := some.inj
        ((handler_goroutine hstep).symm.trans (handler_goroutine hstep₂))
      cases ht.symm.trans ht₂
      rw [handler_unique hstep hstep₂]
    | drain d a x x' _ ht₂ hstep₂ =>
      obtain rfl := some.inj ((handler_goroutine hstep).symm.trans (drain_goroutine hstep₂))
      cases ht.symm.trans ht₂
    | _ => cases hstep
  | drain d a x x' e ht hstep =>
    cases hs₂ with
    | handler c₂ p₂ h₂ h₂' _ ht₂ hstep₂ =>
      obtain rfl := some.inj ((drain_goroutine hstep).symm.trans (handler_goroutine hstep₂))
      cases ht.symm.trans ht₂
    | drain d₂ a₂ x₂ x₂' _ ht₂ hstep₂ =>
      obtain rfl := some.inj ((drain_goroutine hstep).symm.trans (drain_goroutine hstep₂))
      cases ht.symm.trans ht₂
      rw [drain_unique hstep hstep₂]
    | _ => cases hstep
  | queued c p fwd connected messageID row queue ht hrow hqueue =>
    cases hs₂ with
    | handler c₂ p₂ h₂ h₂' _ ht₂ hstep₂ => cases hstep₂
    | drain d₂ a₂ x₂ x₂' _ ht₂ hstep₂ => cases hstep₂
    | queued _ p₂ fwd₂ connected₂ messageID₂ _ queue₂ ht₂ hrow₂ hqueue₂ =>
      cases ht.symm.trans ht₂
      obtain rfl : messageID = messageID₂ :=
        congrArg QueuedMessage.messageID (hrow.symm.trans hrow₂)
      cases hqueue.symm.trans hqueue₂
      rfl
  | _ =>
    cases hs₂ with
    | handler c₂ p₂ h₂ h₂' _ ht₂ hstep₂ => cases hstep₂
    | drain d₂ a₂ x₂ x₂' _ ht₂ hstep₂ => cases hstep₂
    | _ => simp_all

/-! ## What a step leaves as it is -/

theorem tasks_set_self (s : Relay ι) (g : ι) (task : Task ι) : (s.set g task).tasks g = task :=
  update_self ..

theorem tasks_set_of_ne (s : Relay ι) (task : Task ι) (h : c ≠ g) :
    (s.set g task).tasks c = s.tasks c :=
  update_of_ne h ..

omit [DecidableEq ι] in
theorem tasks_removePeer (s : Relay ι) (peerAddr : Address) :
    (s.removePeer peerAddr).tasks = s.tasks := by
  unfold removePeer
  split <;> rfl

theorem Step.tasks_eq (hs : Step attached s e s') (hg : e.goroutine? ≠ some g)
    (hspawn : ∀ c, e ≠ .spawned c g) : s'.tasks g = s.tasks g := by
  have hne {c : ι} (hc : e.goroutine? = some c) : g ≠ c := by
    rintro rfl
    exact hg hc
  cases hs with
  | handler c p h h' e ht hstep => exact s.tasks_set_of_ne _ (hne (handler_goroutine hstep))
  | drain d a x x' e ht hstep => exact s.tasks_set_of_ne _ (hne (drain_goroutine hstep))
  | spawned c d p a ct ht =>
    have hd : g ≠ d := by
      rintro rfl
      exact hspawn c rfl
    rw [tasks_set_of_ne _ _ hd, tasks_set_of_ne _ _ (hne rfl)]
  | removed c p ht => rw [tasks_set_of_ne _ _ (hne rfl), tasks_removePeer]
  | cleaned | ticked => rfl
  | _ => exact s.tasks_set_of_ne _ (hne rfl)

def entry (s : Relay ι) (address : Address) : Option ι := (s.peers address).map Peer.conn

omit [DecidableEq ι] in
theorem entry_removePeer (s : Relay ι) (peerAddr address : Address) :
    (s.removePeer peerAddr).entry address =
      if peerAddr ≠ zero 20 ∧ address = peerAddr then none else s.entry address := by
  unfold removePeer
  split
  · next hzero => simp [hzero]
  · next hzero =>
    by_cases heq : address = peerAddr
    · simp [entry, heq, hzero]
    · simp [entry, heq]

omit [DecidableEq ι] in
theorem entry_update (s : Relay ι) (address address' : Address) (peer : Peer ι) :
    Option.map Peer.conn (update s.peers address (some peer) address') =
      if address' = address then some peer.conn else s.entry address' := by
  rw [update_apply]
  split <;> rfl

variable {address : Address}

theorem Step.entry_cases (hs : Step attached s e s') (hentry : s'.entry address = some c) :
    s.entry address = some c ∨ (∃ clientType, e = .registered c address clientType) ∨
      e = .dialed c address := by
  cases hs with
  | registered c' p a ct ht =>
    have hupdate := s.entry_update a address ⟨c', ct⟩
    rw [show Option.map Peer.conn _ = some c from hentry] at hupdate
    split at hupdate
    · next heq =>
      cases hupdate
      exact .inr (.inl ⟨ct, by rw [heq]⟩)
    · exact .inl hupdate.symm
  | dialed g a ht =>
    have hupdate := s.entry_update a address ⟨g, clientTypeRelay⟩
    rw [show Option.map Peer.conn _ = some c from hentry] at hupdate
    split at hupdate
    · next heq =>
      cases hupdate
      exact .inr (.inr (by rw [heq]))
    · exact .inl hupdate.symm
  | removed c' p ht =>
    have hremove : (s.removePeer p).entry address = some c := hentry
    rw [entry_removePeer] at hremove
    split at hremove
    · cases hremove
    · exact .inl hremove
  | _ => exact .inl hentry

/-! ## What a label says about its step -/

section Labels

variable {s s' : Relay ι} {c d g : ι}

theorem Step.of_spawned (hs : Step attached s (.spawned c d) s') :
    s.tasks d = .absent ∧ ∃ p a clientType, s.tasks c = .serving p (.acked a clientType) ∧
      s'.tasks d = .draining a .start := by
  cases hs with
  | handler _ _ _ _ _ _ hstep => cases hstep
  | drain _ _ _ _ _ _ hstep => cases hstep
  | spawned _ _ p a clientType ht _ _ hd => exact ⟨hd, p, a, clientType, ht, tasks_set_self ..⟩

/-- A goroutine stays as it is, is a delivery that is started, or moves in its own step. -/
theorem Step.moves {e : RelayEvent ι} (hs : Step attached s e s') (g : ι) :
    (s'.tasks g = s.tasks g ∧ e.goroutine? ≠ some g) ∨
    (∃ c a, e = .spawned c g ∧ s.tasks g = .absent ∧ s'.tasks g = .draining a .start) ∨
    e.goroutine? = some g ∧ Task.Move attached s g (s.tasks g) e (s'.tasks g) := by
  by_cases hspawn : ∃ c, e = .spawned c g
  · obtain ⟨c, rfl⟩ := hspawn
    obtain ⟨habsent, -, a, -, -, hstart⟩ := hs.of_spawned
    exact .inr (.inl ⟨c, a, rfl, habsent, hstart⟩)
  by_cases hg : e.goroutine? = some g
  · refine .inr (.inr ⟨hg, ?_⟩)
    cases hs with
    | handler c p h h' e ht hstep =>
      obtain rfl := some.inj ((handler_goroutine hstep).symm.trans hg)
      rw [ht, tasks_set_self]
      exact .handler p h h' e hstep
    | drain d a x x' e ht hstep =>
      obtain rfl := some.inj ((drain_goroutine hstep).symm.trans hg)
      rw [ht, tasks_set_self]
      exact .drain a x x' e hstep
    | spawned c d p a clientType ht _ _ hd =>
      obtain rfl : c = g := some.inj hg
      rw [ht, tasks_set_of_ne _ _ fun heq => hspawn ⟨c, by rw [heq]⟩, tasks_set_self]
      exact .spawned d p a clientType
    | cleaned | ticked => cases hg
    | _ =>
      obtain rfl := some.inj hg
      rw [‹s.tasks _ = _›]
      simp only [set, update_self]
      constructor <;> assumption
  · exact .inl ⟨hs.tasks_eq hg fun c hc => hspawn ⟨c, hc⟩, hg⟩

theorem Step.of_registered {address : Address} {clientType : UInt8}
    (hs : Step attached s (.registered c address clientType) s') :
    ∃ peerAddr, s'.tasks c = .serving peerAddr (.ackHeader address clientType) := by
  cases hs with
  | handler _ _ _ _ _ _ hstep => cases hstep
  | drain _ _ _ _ _ _ hstep => cases hstep
  | registered _ peerAddr _ _ ht => exact ⟨peerAddr, s.tasks_set_self c _⟩

theorem Step.of_queued {row : QueuedMessage} (hs : Step attached s (.queued g row) s') :
    s'.peers = s.peers ∧ row ∈ s'.queue.rows := by
  cases hs with
  | handler _ _ _ _ _ _ hstep => cases hstep
  | drain _ _ _ _ _ _ hstep => cases hstep
  | queued _ p fwd connected messageID _ queue ht hrow hqueue =>
    obtain ⟨_, rfl⟩ := Queue.queueMessage_ok hqueue
    exact ⟨rfl, mem_append_right _ (mem_singleton.mpr hrow)⟩

theorem Step.of_deleted {msg : QueuedMessage} (hs : Step attached s (.deleted d msg) s') :
    (∃ recipientAddr conn rest, s.tasks d = .draining recipientAddr (.delete conn msg rest)) ∧
      s'.queue = s.queue.deleteMessage msg.messageID := by
  cases hs with
  | handler _ _ _ _ _ _ hstep => cases hstep
  | drain _ _ _ _ _ _ hstep => cases hstep
  | deleted _ a conn _ rest ht => exact ⟨⟨a, conn, rest, ht⟩, rfl⟩

end Labels

theorem Step.peers_of_looked {peer? : Option (Peer ι)}
    (hs : Step attached s (.looked g address peer?) s') : s.peers address = peer? := by
  cases hs with
  | handler _ _ _ _ _ _ hstep =>
    cases hstep with
    | looked _ _ _ _ hpeers => exact hpeers
  | drain _ _ _ _ _ _ hstep =>
    cases hstep with
    | looked _ _ hpeers => exact hpeers

/-! ## One goroutine without interference -/

theorem set_set (s : Relay ι) (g : ι) (task task' : Task ι) :
    (s.set g task).set g task' = s.set g task' := by
  simp only [set, update_idem]

variable {evs : List (RelayEvent ι)}

theorem run_handler {s₀ : Relay ι} {h h' : Handler ι}
    (hrun : Run (Step attached) s₀ evs (s.set c (.serving peerAddr h)))
    (hstep : Handler.Step attached s.peers c h e h') :
    Run (Step attached) s₀ (evs ++ [e]) (s.set c (.serving peerAddr h')) := by
  have hnext := hrun.snoc (.handler _ c peerAddr h h' e (s.tasks_set_self c _) hstep)
  rw [set_set] at hnext
  exact hnext

variable {recipientAddr : Address}

theorem run_drain {s₀ : Relay ι} {x : Drain ι} {x' : Option (Drain ι)}
    (hrun : Run (Step attached) s₀ evs (s.set d (.draining recipientAddr x)))
    (hstep : Drain.Step s.peers d recipientAddr x e x') :
    Run (Step attached) s₀ (evs ++ [e]) (s.set d (.ofDrain recipientAddr x')) := by
  have hnext := hrun.snoc (.drain _ d recipientAddr x x' e (s.tasks_set_self d _) hstep)
  rw [set_set] at hnext
  exact hnext

/-- The relay when a handshake of `c` has been acknowledged. -/
def acknowledged (s : Relay ι) (c : ι) (peerAddr address : Address) (clientType : UInt8) :
    Relay ι :=
  { s.set c (.serving peerAddr (.acked address clientType)) with
    peers := update s.peers address (some ⟨c, clientType⟩) }

/-- The steps of a handshake up to the acknowledgement. -/
def ackEvents (c : ι) (address : Address) (clientType : UInt8) (handshake : Payload)
    (messageID : ByteArr 16) : List (RelayEvent ι) :=
  [.registered c address clientType, .header c c (.sendHandshakeAck handshake messageID),
    .payload c c (.sendHandshakeAck handshake messageID)]

theorem acknowledged_run (htask : s.tasks c = .serving peerAddr .idle) (address : Address)
    (clientType : UInt8) (handshake : Payload) (messageID : ByteArr 16) :
    Run (Step attached) s (ackEvents c address clientType handshake messageID)
      (s.acknowledged c peerAddr address clientType) := by
  let table := update s.peers address (some ⟨c, clientType⟩)
  have hregistered : Run (Step attached) s ([] ++ [.registered c address clientType])
      (Relay.set ⟨table, s.queue, s.now, s.tasks⟩ c
        (.serving peerAddr (.ackHeader address clientType))) :=
    Run.nil.snoc (.registered s c peerAddr address clientType htask)
  have hheader := run_handler hregistered (.ackHeader address clientType handshake messageID)
  exact run_handler hheader (.ackPayload address clientType _)

def greetEvents (c d : ι) (address : Address) (handshake : Payload) (messageID : ByteArr 16) :
    List (RelayEvent ι) :=
  ackEvents c address clientTypeUser handshake messageID ++ [.spawned c d]

def greeted (s : Relay ι) (c d : ι) (peerAddr address : Address) : Relay ι :=
  ((s.acknowledged c peerAddr address clientTypeUser).set c (.serving address .idle)).set d
    (.draining address .start)

theorem greeted_run (htask : s.tasks c = .serving peerAddr .idle) (hd : s.tasks d = .absent)
    (address : Address) (handshake : Payload) (messageID : ByteArr 16) :
    Run (Step true) s (greetEvents c d address handshake messageID)
      (s.greeted c d peerAddr address) := by
  have hne : d ≠ c := by
    rintro rfl
    cases htask.symm.trans hd
  refine (acknowledged_run htask address clientTypeUser handshake messageID).snoc ?_
  refine .spawned _ c d peerAddr address clientTypeUser (update_self ..) rfl rfl ?_
  exact (s.tasks_set_of_ne _ hne).trans hd

def missedEvents (c : ι) (fwd : Forwarded) : List (RelayEvent ι) :=
  [.received c fwd, .looked c fwd.nextHop none, .looked c fwd.nextHop none]

theorem missed_run (fwd : Forwarded) (htask : s.tasks c = .serving peerAddr .idle)
    (hhop : fwd.nextHop ≠ zero 20) (hnone : s.peers fwd.nextHop = none) :
    Run (Step true) s (missedEvents c fwd) (s.set c (.serving peerAddr (.enqueue fwd false))) := by
  have hreceived : Run (Step true) s ([] ++ [.received c fwd]) _ :=
    Run.nil.snoc (.handler s c peerAddr _ _ _ htask (.received fwd hhop))
  have hchecked := run_handler hreceived (.looked (.checkHop fwd) fwd.nextHop none rfl hnone)
  exact run_handler hchecked (.looked (.deliver fwd false) fwd.nextHop none rfl hnone)

def writeEvents (d : ι) (recipientAddr : Address) (peer : Peer ι) (msg : QueuedMessage)
    (messageID : ByteArr 16) : List (RelayEvent ι) :=
  [.looked d recipientAddr (some peer),
    .queuedHeader d peer.conn msg (.deliverQueuedMessages msg.encryptedPayload messageID),
    .queuedPayload d peer.conn msg (.deliverQueuedMessages msg.encryptedPayload messageID)]

theorem written_run {peer : Peer ι} {msg : QueuedMessage} {rest : List QueuedMessage}
    (htask : s.tasks d = .draining recipientAddr (.fetched (msg :: rest)))
    (hpeer : s.peers recipientAddr = some peer) (messageID : ByteArr 16) :
    Run (Step attached) s (writeEvents d recipientAddr peer msg messageID)
      (s.set d (.draining recipientAddr (.delete peer.conn msg rest))) := by
  have hlooked : Run (Step attached) s ([] ++ [.looked d recipientAddr (some peer)]) _ :=
    Run.nil.snoc (.drain s d recipientAddr _ _ _ htask (.looked _ _ hpeer))
  have hheader := run_drain hlooked (.header peer.conn msg rest messageID)
  exact run_drain hheader (.payload peer.conn msg rest _)

end Relay

/-! ## Samples -/

/-- Names for three goroutines. -/
inductive Three
  | one
  | two
  | three
  deriving DecidableEq

def samplePeer : Address := ⟨replicate 20 7, rfl⟩

def idleRelay (ι : Type*) : Relay ι := Relay.init (Queue.empty 0) 0

def sampleAckPayload : Payload := ⟨[1], by decide⟩

def sampleForwarded : Forwarded := ⟨samplePeer, sampleAckPayload, zero 16⟩

/-- The message, when it is queued at time 0, for ten seconds. -/
def sampleRow : QueuedMessage := (Queue.empty 10).newRow 0 samplePeer (zero 16) sampleAckPayload

def sampleQueue : Queue := (Queue.empty 10).insert sampleRow rfl (by simp [Queue.empty])

theorem sampleQueue_isResult : sampleQueue.IsResult 0 samplePeer [sampleRow] :=
  ⟨[sampleRow], Perm.refl _, pairwise_singleton _ _, prefix_rfl⟩

end Zentalk
