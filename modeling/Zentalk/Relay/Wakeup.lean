import Zentalk.Relay.Retention

/-!
# Messages that are left in the queue

A row is covered (`Covers`) while a delivery has it, or is still to read the queue
(`no_stranded_message`).
-/

namespace Zentalk

open Wire Runs ByteArr List Queue Relay

variable {ι : Type*}

/-! ## Conditions -/

/-- A handshake of a user at the address is in progress, or a delivery for it is at its start. -/
def Task.WillRead (address : Address) : Task ι → Prop
  | serving _ (.ackHeader a clientType) => a = address ∧ clientType = clientTypeUser
  | serving _ (.ackPayload a clientType _) => a = address ∧ clientType = clientTypeUser
  | serving _ (.acked a clientType) => a = address ∧ clientType = clientTypeUser
  | draining a .start => a = address
  | _ => False

/-- The address that a handler registers, or forwards a message to. -/
def Handler.address? : Handler ι → Option Address
  | ackHeader address _ => some address
  | ackPayload address _ _ => some address
  | acked address _ => some address
  | checkHop fwd => some fwd.nextHop
  | forward fwd => some fwd.nextHop
  | deliver fwd _ => some fwd.nextHop
  | enqueue fwd _ => some fwd.nextHop
  | sendHeader fwd _ _ _ => some fwd.nextHop
  | sendPayload fwd _ _ _ => some fwd.nextHop
  | _ => none

def Task.DeliversTo (address : Address) : Task ι → Prop
  | serving _ handler => handler.registering? = some address
  | draining a _ => a = address
  | _ => False

def Task.BusyFor (address : Address) : Task ι → Prop
  | serving _ handler => handler.address? = some address
  | draining a _ => a = address
  | _ => False

/-- Every handshake of the address has the client type; `ConnectToRelay` registers relays. -/
def HasType (address : Address) (clientType : UInt8) (_ : List (RelayEvent ι))
    (_ : Relay ι) : RelayEvent ι → Prop
  | .registered _ a ct => a = address → ct = clientType
  | .dialed _ a => a = address → clientType = clientTypeRelay
  | _ => True

/-- The writes and the database operations of the deliveries for the address succeed. -/
def Succeeds (address : Address) (_ : List (RelayEvent ι)) (s : Relay ι) :
    RelayEvent ι → Prop
  | .writeFailed g => ∀ x, s.tasks g ≠ .draining address x
  | .fetched d messages => s.tasks d = .draining address .start →
      s.queue.IsComplete s.now address messages
  | .fetchFailed d => s.tasks d ≠ .draining address .start
  | .deleteFailed d => ∀ x, s.tasks d ≠ .draining address x
  | _ => True

/-- A message for the address is queued only while the address is not among the peers, or a delivery
for it is still to read the queue. -/
def QueuedInTime (address : Address) (_ : List (RelayEvent ι)) (s : Relay ι) :
    RelayEvent ι → Prop
  | .queued _ row => row.recipientAddr = address →
      s.peers address = none ∨ ∃ g, (s.tasks g).WillRead address
  | _ => True

/-! ## Rows that are covered -/

/-- A delivery has the row, or one is still to read the queue. -/
def Relay.Covers (s : Relay ι) (row : QueuedMessage) : Prop :=
  (∃ g, (s.tasks g).WillRead row.recipientAddr) ∨
    ∃ d x, s.tasks d = .draining row.recipientAddr x ∧ row ∈ x.rows

section

variable {address : Address} {evs : List (RelayEvent ι)} {s s' : Relay ι} {e : RelayEvent ι}
  {row : QueuedMessage}

theorem mem_next {conn : ι} {rest : List QueuedMessage} (h : row ∈ rest) :
    ∃ x, Drain.next conn rest = some x ∧ row ∈ x.rows := by
  cases rest with
  | nil => cases h
  | cons msg rest => exact ⟨_, rfl, h⟩

theorem not_willRead_lookup {peerAddr a : Address} {h : Handler ι} (hlookup : h.lookup? = some a) :
    ¬ (Task.serving peerAddr h).WillRead address := by
  cases h with
  | checkHop | forward | deliver => exact id
  | _ => cases hlookup

theorem deliversTo_of_willRead {task : Task ι} (h : task.WillRead address) :
    task.DeliversTo address := by
  cases task with
  | serving p handler =>
    cases handler with
    | ackHeader | ackPayload | acked => exact congrArg some h.1
    | _ => exact h.elim
  | draining a x =>
    cases x with
    | start => exact h
    | _ => exact h.elim
  | _ => exact h.elim

theorem busyFor_of_deliversTo {task : Task ι} (h : task.DeliversTo address) :
    task.BusyFor address := by
  cases task with
  | serving p handler =>
    cases handler with
    | ackHeader | ackPayload | acked => exact h
    | _ => cases h
  | draining => exact h
  | _ => exact h.elim

theorem not_covers_of_finished
    (hfinished : ∀ g, ¬ (s.tasks g).DeliversTo row.recipientAddr) : ¬ s.Covers row := by
  rintro (⟨g, hwill⟩ | ⟨d, x, htask, -⟩)
  · exact hfinished g (deliversTo_of_willRead hwill)
  · refine hfinished d ?_
    rw [htask]
    rfl

variable [DecidableEq ι]

/-- A delivery that is to read the queue does so, or another goroutine is going to instead. -/
theorem willRead_step (hs : Step true s e s') {g : ι} (h : (s.tasks g).WillRead address) :
    (∃ g', (s'.tasks g').WillRead address) ∨
      (s.tasks g = .draining address .start ∧
        ((∃ messages, e = .fetched g messages) ∨ e = .fetchFailed g)) := by
  rcases hs.moves g with ⟨hsame, -⟩ | ⟨c, a, -, habsent, -⟩ | ⟨-, hmove⟩
  · refine .inl ⟨g, ?_⟩
    rw [hsame]
    exact h
  · rw [habsent] at h
    exact h.elim
  · generalize htask : s.tasks g = task at hmove h ⊢
    generalize htask' : s'.tasks g = task' at hmove
    cases hmove with
    | handler p x x' e hstep =>
      refine .inl ⟨g, ?_⟩
      rw [htask']
      cases hstep with
      | ackHeader | ackHeaderFailed | ackPayload | ackPayloadFailed => exact h
      | looked _ _ _ hlookup => exact absurd h (not_willRead_lookup hlookup)
      | _ => exact h.elim
    | drain a x x' e hstep => cases hstep <;> exact h.elim
    | returned p a clientType hnot => exact absurd ⟨rfl, h.2⟩ hnot
    | spawned d p a clientType =>
      obtain ⟨-, p', a', clientType', hacked, hstart⟩ := hs.of_spawned
      cases htask.symm.trans hacked
      refine .inl ⟨d, ?_⟩
      rw [hstart]
      exact h.1
    | fetched a messages =>
      obtain rfl : a = address := h
      exact .inr ⟨rfl, .inl ⟨messages, rfl⟩⟩
    | fetchFailed a =>
      obtain rfl : a = address := h
      exact .inr ⟨rfl, .inr rfl⟩
    | _ => exact h.elim

theorem covers_move (hs : Step true s e s') (hok : Succeeds row.recipientAddr evs s e)
    (hrow : row ∈ s'.queue.rows) (hconn : s'.peers row.recipientAddr ≠ none) {d : ι} {x : Drain ι}
    {x' : Option (Drain ι)} (htask : s.tasks d = .draining row.recipientAddr x)
    (hmem : row ∈ x.rows) (hmove : Drain.Move s d row.recipientAddr x e x') :
    ∃ y, x' = some y ∧ row ∈ y.rows := by
  cases hmove with
  | step _ _ _ hstep =>
    cases hstep with
    | looked messages peer? hpeers =>
      cases peer? with
      | none =>
        have hsame : s'.peers = s.peers := by cases hs <;> rfl
        rw [hsame] at hconn
        exact absurd hpeers hconn
      | some peer => exact mem_next hmem
    | header => exact ⟨_, rfl, hmem⟩
    | payload => exact ⟨_, rfl, hmem⟩
    | headerFailed | payloadFailed | deleteFailed => exact absurd htask (hok _)
  | fetched | fetchFailed => cases hmem
  | deleted conn msg rest =>
    rcases mem_cons.mp hmem with rfl | hrest
    · exact absurd rfl (hs.ne_of_deleted hrow)
    · exact mem_next hrest

end

variable [DecidableEq ι]

/-- While the deliveries succeed and the recipient is connected, an unexpired row that is covered
stays so until it is deleted. -/
theorem covers_step {evs : List (RelayEvent ι)} {s s' : Relay ι} {e : RelayEvent ι}
    {row : QueuedMessage} (hs : Step true s e s') (hok : Succeeds row.recipientAddr evs s e)
    (hclock : ClockForward evs s e) (hbefore : row ∈ s.queue.rows) (hrow : row ∈ s'.queue.rows)
    (hunexpired : s'.now < row.expiresAt) (hconn : s'.peers row.recipientAddr ≠ none)
    (hcovers : s.Covers row) : s'.Covers row := by
  rcases hcovers with ⟨g, hwill⟩ | ⟨d, x, htask, hmem⟩
  · rcases willRead_step hs hwill with hwill' | ⟨htask, ⟨messages, rfl⟩ | rfl⟩
    · exact .inl hwill'
    · -- the delivery reads the row
      have hselected : row ∈ s.queue.selected s.now row.recipientAddr :=
        s.queue.mem_selected.mpr ⟨hbefore, rfl, (now_le hclock hs).trans_lt hunexpired⟩
      have hread : row ∈ messages := hok htask row hselected
      rcases hs.drain_before htask with ⟨-, hne⟩ | ⟨x', hafter, hmove⟩
      · exact absurd rfl hne
      · cases hmove with
        | step _ _ _ hstep => cases hstep
        | fetched =>
          rw [if_neg (ne_nil_of_mem hread)] at hafter
          exact .inr ⟨g, _, hafter, hread⟩
    · exact absurd htask hok
  · rcases hs.drain_before htask with ⟨hsame, -⟩ | ⟨x', hafter, hmove⟩
    · exact .inr ⟨d, x, hsame, hmem⟩
    · obtain ⟨y, rfl, hy⟩ := covers_move hs hok hrow hconn htask hmem hmove
      exact .inr ⟨d, y, hafter, hy⟩

section

variable {address : Address} {evs : List (RelayEvent ι)} {s s' : Relay ι} {e : RelayEvent ι}

theorem willRead_registered {c : ι} (hs : Step true s (.registered c address clientTypeUser) s') :
    (s'.tasks c).WillRead address := by
  obtain ⟨peerAddr, htask⟩ := hs.of_registered
  rw [htask]
  exact ⟨rfl, rfl⟩

theorem connected_step (hs : Step true s e s')
    (htype : HasType address clientTypeUser evs s e) (hconn : s'.peers address ≠ none) :
    s.peers address ≠ none ∨ ∃ g, (s'.tasks g).WillRead address := by
  obtain ⟨peer, hpeer⟩ := Option.ne_none_iff_exists'.mp hconn
  have hentry : s'.entry address = some peer.conn := by
    rw [entry, hpeer]
    rfl
  rcases hs.entry_cases hentry with hold | ⟨ct, rfl⟩ | rfl
  · refine .inl fun hnone => ?_
    rw [entry, hnone] at hold
    cases hold
  · obtain rfl : ct = clientTypeUser := htype rfl
    exact .inr ⟨_, willRead_registered hs⟩
  · cases htype rfl

theorem covers_connected {row : QueuedMessage} (hs : Step true s e s')
    (htype : HasType row.recipientAddr clientTypeUser evs s e)
    (hok : Succeeds row.recipientAddr evs s e) (hclock : ClockForward evs s e)
    (hbefore : row ∈ s.queue.rows) (hrow : row ∈ s'.queue.rows)
    (hunexpired : s'.now < row.expiresAt) (hconn : s'.peers row.recipientAddr ≠ none)
    (hcovers : s.peers row.recipientAddr ≠ none → s.Covers row) : s'.Covers row := by
  rcases connected_step hs htype hconn with hold | hwill
  · exact covers_step hs hok hclock hbefore hrow hunexpired hconn (hcovers hold)
  · exact .inl hwill

/-- Every unexpired row for a connected recipient is covered. -/
def NoneStranded (address : Address) (s : Relay ι) : Prop :=
  ∀ row ∈ s.queue.rows, row.recipientAddr = address → s.now < row.expiresAt →
    s.peers address ≠ none → s.Covers row

theorem noneStranded_step (h : NoneStranded address s)
    (htype : HasType address clientTypeUser evs s e) (hok : Succeeds address evs s e)
    (hclock : ClockForward evs s e) (hintime : QueuedInTime address evs s e)
    (hs : Step true s e s') : NoneStranded address s' := by
  intro row hrow hrecipient hunexpired hconn
  subst hrecipient
  rcases hs.row_after hrow with hbefore | ⟨-, g, rfl⟩
  · refine covers_connected hs htype hok hclock hbefore hrow hunexpired hconn fun hold => ?_
    exact h row hbefore rfl ((now_le hclock hs).trans_lt hunexpired) hold
  · -- a new row is covered by the delivery that is still to read the queue
    rw [hs.of_queued.1] at hconn
    rcases hintime rfl with hnone | ⟨g', hwill⟩
    · exact absurd hnone hconn
    · rcases willRead_step hs hwill with hwill' | ⟨-, ⟨messages, heq⟩ | heq⟩
      · exact .inl hwill'
      · cases heq
      · cases heq

end

/-- If messages for a user are queued only while it is not among the peers or a delivery for it is
still to read the queue, and its deliveries succeed, then once nothing for it is in progress and it
is connected, the queue has no unexpired message for it. -/
theorem no_stranded_message {queue : Queue} {now : ℤ} {evs : List (RelayEvent ι)} {s : Relay ι}
    (hrun : Run (Step true) (init queue now) evs s) {address : Address}
    (htype : Guarded (Step true) (init queue now) (HasType address clientTypeUser) evs)
    (hok : Guarded (Step true) (init queue now) (Succeeds address) evs)
    (hclock : Guarded (Step true) (init queue now) ClockForward evs)
    (hintime : Guarded (Step true) (init queue now) (QueuedInTime address) evs)
    (hconn : s.peers address ≠ none) (hfinished : ∀ g, ¬ (s.tasks g).BusyFor address) :
    ∀ row ∈ s.queue.rows, row.recipientAddr = address → row.expiresAt ≤ s.now := by
  have hnone : NoneStranded address s := by
    refine Run.guarded_invariant (I := fun _ s => NoneStranded address s) ?_ ?_ hrun
      ((htype.and hok).and (hclock.and hintime))
    · intro row _ _ _ hpeers
      exact absurd rfl hpeers
    · rintro evs e s s' h ⟨⟨htype, hok⟩, hclock, hintime⟩ hs
      exact noneStranded_step h htype hok hclock hintime hs
  rintro row hrow rfl
  by_contra hunexpired
  refine not_covers_of_finished (fun g hg => hfinished g (busyFor_of_deliversTo hg)) ?_
  exact hnone row hrow rfl (not_le.mp hunexpired) hconn

/-! ## Samples -/

def missedSampleEvents : List (RelayEvent Three) :=
  [.accepted .one, .accepted .two] ++ missedEvents .one sampleForwarded

def missedRelay : Relay Three :=
  (((init (Queue.empty 10) 0).set .one (.serving (zero 20) .idle)).set .two
    (.serving (zero 20) .idle)).set .one
    (.serving (zero 20) (.enqueue sampleForwarded false))

theorem missedRelay_run :
    Run (Step true) (init (Queue.empty 10) 0) missedSampleEvents missedRelay := by
  have haccepted : Run (Step true) (init (empty 10) 0)
      ([] ++ [.accepted Three.one]) _ := Run.nil.snoc (.accepted _ Three.one rfl)
  exact (haccepted.snoc (.accepted _ Three.two rfl)).append
    (missed_run sampleForwarded rfl (by decide) rfl)

theorem sampleQueue_queueMessage : (Queue.empty 10).queueMessage 0 samplePeer (zero 16)
    sampleAckPayload = .ok sampleQueue := rfl

def reachedEvents : List (RelayEvent Three) :=
  missedSampleEvents ++ [.queued .one sampleRow] ++
    greetEvents .two .three samplePeer sampleAckPayload (zero 16)

def reachedRelay : Relay Three :=
  ({ missedRelay.set .one (.serving (zero 20) .idle) with queue := sampleQueue } :
    Relay Three).greeted .two .three (zero 20) samplePeer

theorem reachedRelay_run :
    Run (Step true) (init (Queue.empty 10) 0) reachedEvents reachedRelay := by
  have hqueued := missedRelay_run.snoc (.queued _ Three.one (zero 20) sampleForwarded false
    (zero 16) sampleRow sampleQueue rfl rfl sampleQueue_queueMessage)
  exact hqueued.append (greeted_run rfl rfl samplePeer sampleAckPayload (zero 16))

/-- The delivery sends the message and deletes it. -/
def servedEvents : List (RelayEvent Three) :=
  reachedEvents ++ [.fetched .three [sampleRow]] ++
    (writeEvents .three samplePeer ⟨.two, clientTypeUser⟩ sampleRow (zero 16) ++
      [.deleted .three sampleRow])

theorem served_run : ∃ s : Relay Three,
    Run (Step true) (init (Queue.empty 10) 0) servedEvents s ∧
    s.peers samplePeer = some ⟨.two, clientTypeUser⟩ ∧ s.now = 0 ∧ s.queue.rows = [] ∧
    ∀ g, ¬ (s.tasks g).BusyFor samplePeer := by
  have hread := reachedRelay_run.snoc
    (.fetched _ Three.three samplePeer [sampleRow] rfl sampleQueue_isResult)
  have hwrites : Run (Step true)
      (reachedRelay.set .three (.draining samplePeer (.fetched [sampleRow])))
      (writeEvents .three samplePeer ⟨.two, clientTypeUser⟩ sampleRow (zero 16)) _ :=
    written_run rfl rfl (zero 16)
  have hrun := (hread.append hwrites).snoc (.deleted _ Three.three samplePeer .two sampleRow [] rfl)
  refine ⟨_, hrun, rfl, rfl, rfl, fun g hbusy => ?_⟩
  cases g with
  | one => cases hbusy
  | two => cases hbusy
  | three => exact hbusy

theorem served_hasType : Guarded (Step true) (init (Queue.empty 10) 0)
    (HasType samplePeer clientTypeUser) ([] ++ servedEvents) :=
  Guarded.nil.append_of_free _ (by
    simp [servedEvents, reachedEvents, missedSampleEvents, missedEvents, greetEvents,
      ackEvents, writeEvents, HasType])

theorem served_clock : Guarded (Step true) (init (Queue.empty 10) 0)
    ClockForward ([] ++ servedEvents) :=
  Guarded.nil.append_of_free _ (by
    simp [servedEvents, reachedEvents, missedSampleEvents, missedEvents, greetEvents,
      ackEvents, writeEvents, ClockForward])

theorem served_succeeds : Guarded (Step true) (init (Queue.empty 10) 0)
    (Succeeds samplePeer) servedEvents := by
  have hreached : Guarded (Step true) (init (empty 10) 0) (Succeeds samplePeer)
      ([] ++ reachedEvents) :=
    Guarded.nil.append_of_free _ (by
      simp [reachedEvents, missedSampleEvents, missedEvents, greetEvents, ackEvents, Succeeds])
  have hcomplete :
      Succeeds samplePeer reachedEvents reachedRelay (.fetched .three [sampleRow]) := by
    intro _ row hrow
    exact (sampleQueue.mem_selected.mp hrow).1
  refine (hreached.snoc_of_run (fun _ _ _ _ h₁ h₂ => h₁.unique h₂) reachedRelay_run
    hcomplete).append_of_free _ ?_
  simp [writeEvents, Succeeds]

/-- A condition on what is queued. -/
theorem served_guarded {G : List (RelayEvent Three) → Relay Three → RelayEvent Three → Prop}
    (hother : ∀ evs s e, (∀ g row, e ≠ .queued g row) → G evs s e)
    (hqueued : G missedSampleEvents missedRelay (.queued .one sampleRow)) :
    Guarded (Step true) (init (Queue.empty 10) 0) G servedEvents := by
  have hfree {evs : List (RelayEvent Three)} (h : ∀ e ∈ evs, ∀ g row, e ≠ .queued g row) :
      ∀ e ∈ evs, ∀ seen s, G seen s e := fun e he seen s => hother seen s e (h e he)
  have hmissed : Guarded (Step true) (init (empty 10) 0) G
      ([] ++ missedSampleEvents) :=
    Guarded.nil.append_of_free _ (hfree (by simp [missedSampleEvents, missedEvents]))
  have hrow := hmissed.snoc_of_run (fun _ _ _ _ h₁ h₂ => h₁.unique h₂) missedRelay_run hqueued
  have hreached := hrow.append_of_free
    (greetEvents .two .three samplePeer sampleAckPayload (zero 16))
    (hfree (by simp [greetEvents, ackEvents]))
  have hread := hreached.append_of_free [.fetched .three [sampleRow]] (hfree (by simp))
  exact hread.append_of_free _ (hfree (by simp [writeEvents]))

theorem no_stranded_message_served : ∃ s : Relay Three,
    Run (Step true) (init (Queue.empty 10) 0) servedEvents s ∧
    .queued .one sampleRow ∈ servedEvents ∧ s.peers samplePeer = some ⟨.two, clientTypeUser⟩ ∧
    ∀ row ∈ s.queue.rows, row.recipientAddr = samplePeer → row.expiresAt ≤ s.now := by
  obtain ⟨s, hrun, hpeer, -, -, hfinished⟩ := served_run
  have hintime : Guarded (Step true) (init (empty 10) 0)
      (QueuedInTime samplePeer) servedEvents := by
    refine served_guarded (fun _ _ e hne => ?_) fun _ => .inl rfl
    cases e with
    | queued g row => exact absurd rfl (hne g row)
    | _ => trivial
  exact ⟨s, hrun, by simp [servedEvents, reachedEvents], hpeer, no_stranded_message hrun
    served_hasType served_succeeds served_clock hintime (by simp [hpeer]) hfinished⟩

/-! ## A user who registers in between -/

/-- The user connects and the delivery reads the empty queue before the message is queued. -/
def strandedEvents : List (RelayEvent Three) :=
  missedSampleEvents ++
    greetEvents .two .three samplePeer sampleAckPayload (zero 16) ++
    [.fetched .three []] ++ [.queued .one sampleRow]

/-- No write failed, the user is connected, nothing is in progress, and the message is in the queue.
-/
theorem stranded_message : ∃ s : Relay Three,
    Run (Step true) (init (Queue.empty 10) 0) strandedEvents s ∧
    (∀ g, .writeFailed g ∉ strandedEvents) ∧ s.peers samplePeer = some ⟨.two, clientTypeUser⟩ ∧
    (∀ g, ¬ (s.tasks g).BusyFor samplePeer) ∧
    sampleRow ∈ s.queue.rows ∧ sampleRow.recipientAddr = samplePeer ∧
    ¬ sampleRow.expiresAt ≤ s.now := by
  have hempty : (empty 10).IsResult 0 samplePeer [] :=
    ⟨[], Perm.refl _, Pairwise.nil, prefix_rfl⟩
  have hgreeted := missedRelay_run.append (greeted_run (c := Three.two) (d := Three.three)
    rfl rfl samplePeer sampleAckPayload (zero 16))
  have hread := hgreeted.snoc (.fetched _ Three.three samplePeer [] rfl hempty)
  have hrun := hread.snoc (.queued _ Three.one (zero 20) sampleForwarded false
    (zero 16) sampleRow sampleQueue rfl rfl sampleQueue_queueMessage)
  refine ⟨_, hrun, ?_, rfl, fun g hbusy => ?_, mem_cons_self, rfl, by decide⟩
  · simp [missedSampleEvents, missedEvents, greetEvents, ackEvents, strandedEvents]
  · cases g with
    | one => cases hbusy
    | two => cases hbusy
    | three => exact hbusy

end Zentalk
