import Zentalk.Relay.Delivery
import Zentalk.Relay.Peers

/-!
# Where payloads come from and where they go

Between a lookup and a write connections come and go, and addresses are registered again. Still
a payload only goes where its address was registered (`relay_no_misdelivery`).
-/

namespace Zentalk

open Wire Runs List Relay

/-- The payload came in for the address, or was queued for it when the relay started. -/
def Entrusted {ι : Type*} (queue : Queue) (evs : List (RelayEvent ι)) (address : Address)
    (payload : Payload) : Prop :=
  (∃ row ∈ queue.rows, row.recipientAddr = address ∧ row.encryptedPayload = payload) ∨
    ∃ c fwd, .received c fwd ∈ evs ∧ fwd.nextHop = address ∧ fwd.payload = payload

/-- The payload that is sent on for somebody. -/
def RelaySend.carried? : RelaySend → Option Payload
  | forwardToNextHop payload _ => some payload
  | deliverMessage encryptedPayload _ => some encryptedPayload
  | deliverQueuedMessages encryptedPayload _ => some encryptedPayload
  | _ => none

/-- The connection that a payload is written to. -/
def RelayEvent.written? {ι : Type*} : RelayEvent ι → Option (ι × RelaySend)
  | payload _ conn send => some (conn, send)
  | queuedPayload _ conn _ send => some (conn, send)
  | _ => none

section

-- Both are fixed for a whole run, so that a step has nothing to carry over.
variable {ι : Type*} (E : Address → Payload → Prop) (R : ι → Address → Prop)

/-- What comes in is as `E` says, and what is registered as `R` says. -/
def Allowed (e : RelayEvent ι) : Prop :=
  (∀ c fwd, e = .received c fwd → E fwd.nextHop fwd.payload) ∧
    ∀ c a, e.registration? = some (c, a) → R c a

/-- So is what a goroutine is to send on, and the connection that it has looked up. -/
def TaskAttributed : Task ι → Prop
  | .serving _ (.checkHop fwd) | .serving _ (.forward fwd) | .serving _ (.deliver fwd _) |
    .serving _ (.enqueue fwd _) => E fwd.nextHop fwd.payload
  | .serving _ (.sendHeader fwd _ conn _) => E fwd.nextHop fwd.payload ∧ R conn fwd.nextHop
  | .serving _ (.sendPayload fwd _ conn send) =>
    (E fwd.nextHop fwd.payload ∧ R conn fwd.nextHop) ∧ send.carried? = some fwd.payload
  | .serving _ (.ackPayload _ _ send) => send.carried? = none
  | .draining a (.fetched rows) => ∀ row ∈ rows, E a row.encryptedPayload
  | .draining a (.header conn msg rest) | .draining a (.delete conn msg rest) =>
    (∀ row ∈ msg :: rest, E a row.encryptedPayload) ∧ R conn a
  | .draining a (.payload conn msg rest send) =>
    ((∀ row ∈ msg :: rest, E a row.encryptedPayload) ∧ R conn a) ∧
      send.carried? = some msg.encryptedPayload
  | _ => True

structure Attributed (s : Relay ι) : Prop where
  peers : ∀ a c, s.entry a = some c → R c a
  rows : ∀ row ∈ s.queue.rows, E row.recipientAddr row.encryptedPayload
  tasks : ∀ g, TaskAttributed E R (s.tasks g)

variable {E R} {attached : Bool} {s s' : Relay ι} {g : ι} {e : RelayEvent ι} {task task' : Task ι}

theorem Attributed.of_task (h : Attributed E R s) (ht : s.tasks g = task) :
    TaskAttributed E R task :=
  ht ▸ h.tasks g

theorem attributed_next {a : Address} {conn : ι} {rest : List QueuedMessage}
    (h : ∀ row ∈ rest, E a row.encryptedPayload) (hconn : R conn a) :
    TaskAttributed E R (.ofDrain a (Drain.next conn rest)) := by
  cases rest with
  | nil => exact trivial
  | cons msg rest => exact ⟨h, hconn⟩

theorem attributed_after (p : Address) (fwd : Forwarded) (connected : Bool) :
    TaskAttributed E R (.serving p (.afterDelivery fwd connected)) := by
  cases connected <;> exact trivial

theorem attributed_found {p a : Address} {h : Handler ι} {peer? : Option (Peer ι)}
    (hlookup : h.lookup? = some a) (hpeer : ∀ peer, peer? = some peer → R peer.conn a)
    (hin : TaskAttributed E R (.serving p h)) (attached : Bool) :
    TaskAttributed E R (.serving p (h.found attached peer?)) := by
  cases h with
  | checkHop fwd =>
    cases peer? with
    | none => exact hin
    | some peer =>
      rw [Handler.found]
      split <;> exact hin
  | forward fwd =>
    cases hlookup
    cases peer? with
    | none => exact attributed_after p fwd true
    | some peer => exact ⟨hin, hpeer peer rfl⟩
  | deliver fwd connected =>
    cases hlookup
    cases peer? with
    | none =>
      cases attached with
      | false => exact attributed_after p fwd connected
      | true => exact hin
    | some peer => exact ⟨hin, hpeer peer rfl⟩
  | _ => cases hlookup

theorem attributed_move (h : Attributed E R s) (he : Allowed E R e) (hin : TaskAttributed E R task)
    (hmove : Task.Move attached s g task e task') : TaskAttributed E R task' := by
  have hpeers {a : Address} {peer : Peer ι} (hpeer : s.peers a = some peer) : R peer.conn a :=
    h.peers a peer.conn (congrArg (Option.map Peer.conn) hpeer)
  cases hmove with
  | queued p fwd connected => exact attributed_after p fwd connected
  | fetched a messages hresult =>
    split
    · exact trivial
    · intro row hrow
      obtain ⟨hrow, heq, -⟩ := (s.queue.mem_selected).mp (hresult.mem_selected hrow)
      exact heq ▸ h.rows row hrow
  | deleted a conn msg rest => exact attributed_next (forall_mem_of_forall_mem_cons hin.1) hin.2
  | handler p _ _ _ hstep =>
    cases hstep with
    | received fwd => exact he.1 g fwd rfl
    | ackHeader => exact rfl
    | looked _ a peer? hlookup hpeer =>
      exact attributed_found hlookup (fun peer heq => hpeers (hpeer.trans heq)) hin attached
    | header fwd connected conn asRelay messageID send heq =>
      refine ⟨hin, ?_⟩
      rw [heq]
      cases asRelay <;> rfl
    | headerFailed fwd connected | payload fwd connected => exact attributed_after p fwd connected
    | payloadFailed fwd connected => exact attributed_after p fwd connected
    | queueFailed fwd connected => exact attributed_after p fwd connected
    | _ => exact trivial
  | drain a _ _ _ hstep =>
    cases hstep with
    | looked messages peer? hpeer =>
      cases peer? with
      | none => exact trivial
      | some peer => exact attributed_next hin (hpeers hpeer)
    | header => exact ⟨hin, rfl⟩
    | payload => exact hin.1
    | headerFailed | deleteFailed =>
      exact attributed_next (forall_mem_of_forall_mem_cons hin.1) hin.2
    | payloadFailed => exact attributed_next (forall_mem_of_forall_mem_cons hin.1.1) hin.1.2
  | _ => exact trivial

variable [DecidableEq ι]

theorem attributed_rows (h : Attributed E R s) (hs : Step attached s e s')
    {row : QueuedMessage} (hrow : row ∈ s'.queue.rows) :
    E row.recipientAddr row.encryptedPayload := by
  rcases hs.row_after hrow with hold | ⟨-, g, rfl⟩
  · exact h.rows row hold
  · cases hs with
    | handler _ _ _ _ _ _ hstep => cases hstep
    | drain _ _ _ _ _ _ hstep => cases hstep
    | queued _ p fwd connected messageID _ queue ht heq =>
      rw [heq]
      exact h.of_task ht

theorem attributed_step (h : Attributed E R s) (he : Allowed E R e)
    (hs : Step attached s e s') : Attributed E R s' where
  peers a c hentry := by
    rcases hs.entry_cases hentry with hold | ⟨clientType, rfl⟩ | rfl
    · exact h.peers a c hold
    · exact he.2 c a rfl
    · exact he.2 c a rfl
  rows _ hrow := attributed_rows h hs hrow
  tasks g := by
    rcases hs.moves g with ⟨hsame, -⟩ | ⟨c, a, -, -, hstart⟩ | ⟨-, hmove⟩
    · exact hsame ▸ h.tasks g
    · rw [hstart]
      exact trivial
    · exact attributed_move h he (h.tasks g) hmove

variable {queue : Queue} {now : ℤ} {evs : List (RelayEvent ι)}

theorem attributed_of_allowed
    (hqueue : ∀ row ∈ queue.rows, E row.recipientAddr row.encryptedPayload)
    (hrun : Run (Step attached) (init queue now) evs s)
    (hall : ∀ e ∈ evs, Allowed E R e) : Attributed E R s := by
  induction hrun with
  | nil => exact ⟨fun _ _ h => (Option.some_ne_none _ h.symm).elim, hqueue, fun _ => trivial⟩
  | snoc _ hs ih =>
    obtain ⟨hall, he⟩ := forall_mem_append.mp hall
    exact attributed_step (ih hall) (he _ mem_cons_self) hs

theorem attributed_run (hrun : Run (Step attached) (init queue now) evs s) :
    Attributed (Entrusted queue evs) (fun c a => (c, a) ∈ registrations evs) s := by
  refine attributed_of_allowed (fun row hrow => .inl ⟨row, hrow, rfl, rfl⟩) hrun fun e he =>
    ⟨fun c fwd heq => .inr ⟨c, fwd, heq ▸ he, rfl, rfl⟩, fun c a heq => ?_⟩
  exact mem_reverse.mpr (mem_filterMap.mpr ⟨e, he, heq⟩)

end

/-- However the goroutines of a relay interleave, a payload that is sent on is written to a
connection that had registered the address it came in for. -/
theorem relay_no_misdelivery {ι : Type*} [DecidableEq ι] {attached : Bool} {queue : Queue} {now : ℤ}
    {before after : List (RelayEvent ι)} {e : RelayEvent ι} {s : Relay ι}
    (hrun : Run (Step attached) (init queue now) (before ++ e :: after) s) {conn : ι}
    {send : RelaySend} (hwritten : e.written? = some (conn, send)) {payload : Payload}
    (hcarried : send.carried? = some payload) :
    ∃ address, (conn, address) ∈ registrations before ∧ Entrusted queue before address payload := by
  obtain ⟨s₁, s₂, hbefore, hs⟩ := hrun.split
  have hattributed := attributed_run hbefore
  cases hs with
  | handler c p _ _ _ ht hstep =>
    have hin := hattributed.of_task ht
    cases hstep with
    | ackPayload =>
      cases hwritten
      cases hin.symm.trans hcarried
    | payload =>
      cases hwritten
      cases hin.2.symm.trans hcarried
      exact ⟨_, hin.1.2, hin.1.1⟩
    | _ => cases hwritten
  | drain d a _ _ _ ht hstep =>
    have hin := hattributed.of_task ht
    cases hstep with
    | payload _ msg =>
      cases hwritten
      cases hin.2.symm.trans hcarried
      exact ⟨a, hin.1.2, hin.1.1 msg mem_cons_self⟩
    | _ => cases hwritten
  | _ => cases hwritten

/-- The message that was queued for the user. -/
theorem relay_no_misdelivery_user :
    ∃ address, (Three.one, address) ∈ registrations deliveredEvents.dropLast ∧
      Entrusted sampleQueue deliveredEvents.dropLast address sampleAckPayload := by
  have hrun : Run (Step true) (init sampleQueue 0) (deliveredEvents.dropLast ++
      .queuedPayload .two .one sampleRow (.deliverQueuedMessages sampleAckPayload (ByteArr.zero 16))
        :: []) deliveredRelay := delivered_run
  exact relay_no_misdelivery hrun rfl rfl

end Zentalk
