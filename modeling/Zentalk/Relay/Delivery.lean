import Zentalk.Relay.Server

/-!
# Deliveries and the queue

What one step of the relay can do to a delivery and to the rows of the queue: `Step.drain_after`,
`Step.row_after` and `Step.row_before`.
-/

namespace Zentalk

open Wire Runs ByteArr List Relay

variable {ι : Type*} {attached : Bool}

/-! ## Deliveries -/

namespace Drain

/-- The messages that a delivery is not done with. -/
def rows : Drain ι → List QueuedMessage
  | start => []
  | fetched messages => messages
  | header _ msg rest => msg :: rest
  | payload _ msg rest _ => msg :: rest
  | delete _ msg rest => msg :: rest

/-- The messages whose payload a delivery has still to write. -/
def pending : Drain ι → List QueuedMessage
  | delete _ _ rest => rest
  | x => x.rows

/-- The steps of a delivery, with those that read or change the queue. -/
inductive Move (s : Relay ι) (d : ι) (recipientAddr : Address) :
    Drain ι → RelayEvent ι → Option (Drain ι) → Prop
  | step (x : Drain ι) (e : RelayEvent ι) (x' : Option (Drain ι)) :
      Step s.peers d recipientAddr x e x' → Move s d recipientAddr x e x'
  | fetched (messages : List QueuedMessage) : s.queue.IsResult s.now recipientAddr messages →
      Move s d recipientAddr start (.fetched d messages)
        (if messages = [] then none else some (fetched messages))
  | fetchFailed : Move s d recipientAddr start (.fetchFailed d) none
  | deleted (conn : ι) (msg : QueuedMessage) (rest : List QueuedMessage) :
      Move s d recipientAddr (delete conn msg rest) (.deleted d msg) (next conn rest)

end Drain

namespace Relay

variable [DecidableEq ι] {s s' : Relay ι} {e : RelayEvent ι} {d : ι} {recipientAddr : Address}
  {row : QueuedMessage}

theorem Step.drain_before (hs : Step attached s e s') {x : Drain ι}
    (htask : s.tasks d = .draining recipientAddr x) :
    (s'.tasks d = .draining recipientAddr x ∧ e.goroutine? ≠ some d) ∨
      ∃ x', s'.tasks d = .ofDrain recipientAddr x' ∧ Drain.Move s d recipientAddr x e x' := by
  rcases hs.moves d with ⟨hsame, hg⟩ | ⟨c, a, -, habsent, -⟩ | ⟨-, hmove⟩
  · exact .inl ⟨hsame.trans htask, hg⟩
  · cases htask.symm.trans habsent
  · rw [htask] at hmove
    generalize s'.tasks d = task' at hmove ⊢
    cases hmove with
    | drain _ _ x' _ hstep => exact .inr ⟨x', rfl, .step _ _ _ hstep⟩
    | fetched _ messages hresult =>
      refine .inr ⟨_, ?_, .fetched messages hresult⟩
      split <;> rfl
    | fetchFailed => exact .inr ⟨none, rfl, .fetchFailed⟩
    | deleted _ conn msg rest => exact .inr ⟨_, rfl, .deleted conn msg rest⟩

theorem Step.draining_before (hs : Step attached s e s') {x' : Drain ι}
    (htask' : s'.tasks d = .draining recipientAddr x') :
    (∃ x, s.tasks d = .draining recipientAddr x) ∨ (x' = .start ∧ ∃ c, e = .spawned c d) := by
  rcases hs.moves d with ⟨hsame, -⟩ | ⟨c, a, hspawned, -, hstart⟩ | ⟨-, hmove⟩
  · exact .inl ⟨x', hsame.symm.trans htask'⟩
  · cases htask'.symm.trans hstart
    exact .inr ⟨rfl, c, hspawned⟩
  · generalize s.tasks d = task at hmove ⊢
    generalize s'.tasks d = task' at hmove htask'
    cases hmove with
    | drain a x y =>
      cases y with
      | none => cases htask'
      | some y =>
        cases htask'
        exact .inl ⟨x, rfl⟩
    | fetched a messages =>
      split at htask'
      · cases htask'
      · cases htask'
        exact .inl ⟨_, rfl⟩
    | deleted a conn msg rest =>
      cases rest with
      | nil => cases htask'
      | cons =>
        cases htask'
        exact .inl ⟨_, rfl⟩
    | _ => cases htask'

theorem Step.drain_after (hs : Step attached s e s') {x' : Drain ι}
    (htask' : s'.tasks d = .draining recipientAddr x') :
    (s.tasks d = .draining recipientAddr x' ∧ e.goroutine? ≠ some d) ∨
      (x' = .start ∧ ∃ c, e = .spawned c d) ∨
      ∃ x, s.tasks d = .draining recipientAddr x ∧ Drain.Move s d recipientAddr x e (some x') := by
  rcases hs.draining_before htask' with ⟨x, htask⟩ | hspawned
  · rcases hs.drain_before htask with ⟨hsame, hg⟩ | ⟨x'', hafter, hmove⟩
    · cases hsame.symm.trans htask'
      exact .inl ⟨htask, hg⟩
    · cases x'' with
      | none => cases hafter.symm.trans htask'
      | some x'' =>
        cases hafter.symm.trans htask'
        exact .inr (.inr ⟨x, htask, hmove⟩)
  · exact .inr (.inl hspawned)

/-! ## Rows -/

theorem Step.row_after (hs : Step attached s e s') (hrow : row ∈ s'.queue.rows) :
    row ∈ s.queue.rows ∨ (row.id = s.queue.nextID ∧ ∃ g, e = .queued g row) := by
  cases hs with
  | queued c p fwd connected messageID row' queue ht hrow' hqueue =>
    obtain ⟨_, rfl⟩ := Queue.queueMessage_ok hqueue
    rcases mem_append.mp hrow with hold | hnew
    · exact .inl hold
    · obtain rfl := hrow'.trans (mem_singleton.mp hnew).symm
      exact .inr ⟨congrArg QueuedMessage.id hrow', c, rfl⟩
  | deleted d a conn msg rest ht => exact .inl ((s.queue.mem_deleteMessage).mp hrow).1
  | cleaned => exact .inl ((s.queue.mem_cleanup).mp hrow).1
  | removed c p ht =>
    refine .inl ?_
    unfold removePeer at hrow
    split at hrow <;> exact hrow
  | _ => exact .inl hrow

/-- A row stays, or it is deleted by its message ID, or it is expired. -/
theorem Step.row_before (hs : Step attached s e s') (hrow : row ∈ s.queue.rows) :
    row ∈ s'.queue.rows ∨ (∃ d msg, e = .deleted d msg ∧ row.messageID = msg.messageID) ∨
      (e = .cleaned ∧ row.expiresAt ≤ s.now) := by
  cases hs with
  | queued c p fwd connected messageID row' queue ht hrow' hqueue =>
    obtain ⟨_, rfl⟩ := Queue.queueMessage_ok hqueue
    exact .inl (mem_append_left _ hrow)
  | deleted d a conn msg rest ht =>
    by_cases heq : row.messageID = msg.messageID
    · exact .inr (.inl ⟨d, msg, rfl, heq⟩)
    · exact .inl ((s.queue.mem_deleteMessage).mpr ⟨hrow, heq⟩)
  | cleaned =>
    by_cases hexpired : row.expiresAt ≤ s.now
    · exact .inr (.inr ⟨rfl, hexpired⟩)
    · exact .inl ((s.queue.mem_cleanup).mpr ⟨hrow, not_le.mp hexpired⟩)
  | removed c p ht =>
    refine .inl ?_
    unfold removePeer
    split <;> exact hrow
  | _ => exact .inl hrow

theorem Step.nextID_le (hs : Step attached s e s') : s.queue.nextID ≤ s'.queue.nextID := by
  cases hs with
  | queued c p fwd connected messageID row' queue ht hrow' hqueue =>
    obtain ⟨_, rfl⟩ := Queue.queueMessage_ok hqueue
    exact Nat.le_succ _
  | removed c p ht =>
    unfold removePeer
    split <;> exact le_rfl
  | _ => exact le_rfl

theorem Step.ne_of_deleted {msg : QueuedMessage} (hs : Step attached s (.deleted d msg) s')
    (hrow : row ∈ s'.queue.rows) : row.messageID ≠ msg.messageID := by
  rw [hs.of_deleted.2] at hrow
  exact ((s.queue.mem_deleteMessage).mp hrow).2

end Relay

/-! ## The rows that a delivery has -/

section

variable {x : Drain ι} {rest : List QueuedMessage}

theorem rows_next {conn : ι} (h : Drain.next conn rest = some x) :
    x.rows = rest ∧ x.pending = rest := by
  cases rest with
  | nil => cases h
  | cons msg rest =>
    cases h
    exact ⟨rfl, rfl⟩

theorem next_ne_start {conn : ι} (h : Drain.next conn rest = some x) : x ≠ .start := by
  rintro rfl
  cases rest <;> cases h

theorem move_rows {s : Relay ι} {d : ι} {recipientAddr : Address} {x' : Drain ι} {e : RelayEvent ι}
    (hmove : Drain.Move s d recipientAddr x e (some x')) :
    (∃ messages, x = .start ∧ e = .fetched d messages ∧ x' = .fetched messages ∧
      s.queue.IsResult s.now recipientAddr messages) ∨
    (x ≠ .start ∧ x' ≠ .start ∧ x'.rows.Sublist x.rows ∧ x'.pending.Sublist x.pending) := by
  have hrest {conn : ι} (msg : QueuedMessage) {rest : List QueuedMessage}
      (h : Drain.next conn rest = some x') :
      x'.rows.Sublist (msg :: rest) ∧ x'.pending.Sublist rest := by
    rw [(rows_next h).1, (rows_next h).2]
    exact ⟨sublist_cons_self msg rest, Sublist.refl _⟩
  generalize hnext : some x' = y at hmove
  cases hmove with
  | step _ _ _ hstep =>
    refine .inr ?_
    cases hstep with
    | looked messages peer? _ =>
      cases peer? with
      | none => cases hnext
      | some peer =>
        have hrows := rows_next hnext.symm
        refine ⟨nofun, next_ne_start hnext.symm, ?_⟩
        rw [hrows.1, hrows.2]
        exact ⟨Sublist.refl _, Sublist.refl _⟩
    | header conn msg rest messageID =>
      cases hnext
      exact ⟨nofun, nofun, Sublist.refl _, Sublist.refl _⟩
    | payload conn msg rest send =>
      cases hnext
      exact ⟨nofun, nofun, Sublist.refl _, sublist_cons_self msg rest⟩
    | headerFailed conn msg rest =>
      have h := hrest msg hnext.symm
      exact ⟨nofun, next_ne_start hnext.symm, h.1, h.2.trans (sublist_cons_self msg rest)⟩
    | payloadFailed conn msg rest send =>
      have h := hrest msg hnext.symm
      exact ⟨nofun, next_ne_start hnext.symm, h.1, h.2.trans (sublist_cons_self msg rest)⟩
    | deleteFailed conn msg rest => exact ⟨nofun, next_ne_start hnext.symm, hrest msg hnext.symm⟩
  | fetched messages hresult =>
    split at hnext
    · cases hnext
    · cases hnext
      exact .inl ⟨messages, rfl, rfl, rfl, hresult⟩
  | fetchFailed => cases hnext
  | deleted conn msg rest => exact .inr ⟨nofun, next_ne_start hnext.symm, hrest msg hnext.symm⟩

end

/-- A row that was read from the queue for a recipient: the queue gives its ID to no other row. -/
structure Relay.Owns (s : Relay ι) (recipientAddr : Address) (row : QueuedMessage) : Prop where
  recipient : row.recipientAddr = recipientAddr
  id_lt : row.id < s.queue.nextID
  same : ∀ row' ∈ s.queue.rows, row'.id = row.id → row' = row

/-- Every row that a delivery has was read from the queue for its recipient. -/
def Relay.DrainsOwn (s : Relay ι) : Prop :=
  ∀ d recipientAddr x, s.tasks d = .draining recipientAddr x → ∀ row ∈ x.rows,
    s.Owns recipientAddr row

section

variable {s s' : Relay ι} {e : RelayEvent ι} {recipientAddr : Address} {row : QueuedMessage}

theorem owns_of_selected (h : row ∈ s.queue.selected s.now recipientAddr) :
    s.Owns recipientAddr row := by
  obtain ⟨hrow, hrecipient, -⟩ := s.queue.mem_selected.mp h
  exact ⟨hrecipient, s.queue.id_lt row hrow, fun row' hrow' hid =>
    s.queue.eq_of_id_eq hrow' hrow hid⟩

theorem drainsOwn_init (queue : Queue) (now : ℤ) : (init queue now : Relay ι).DrainsOwn := by
  intro d a x htask
  cases htask

variable [DecidableEq ι]

theorem owns_step (h : s.Owns recipientAddr row) (hs : Step attached s e s') :
    s'.Owns recipientAddr row where
  recipient := h.recipient
  id_lt := h.id_lt.trans_le hs.nextID_le
  same := by
    intro row' hrow' hid
    rcases hs.row_after hrow' with hold | ⟨hnew, -⟩
    · exact h.same row' hold hid
    · exact absurd (hid.symm.trans hnew) h.id_lt.ne

theorem drainsOwn_step (h : s.DrainsOwn) (hs : Step attached s e s') : s'.DrainsOwn := by
  intro d a x' htask' row hrow
  refine owns_step ?_ hs
  rcases hs.drain_after htask' with ⟨htask, -⟩ | ⟨rfl, -⟩ | ⟨x, htask, hmove⟩
  · exact h d a x' htask row hrow
  · cases hrow
  · rcases move_rows hmove with ⟨messages, -, -, rfl, hresult⟩ | ⟨-, -, hrows, -⟩
    · exact owns_of_selected (hresult.mem_selected hrow)
    · exact h d a x htask row (hrows.subset hrow)

end

/-! ## A delivery without interference -/

/-- A user connects. -/
def userEvents : List (RelayEvent Three) :=
  [.accepted .one] ++ greetEvents .one .two samplePeer sampleAckPayload (zero 16)

def userGreeted : Relay Three :=
  ((init sampleQueue 0).set .one (.serving (zero 20) .idle)).greeted .one .two
    (zero 20) samplePeer

theorem userGreeted_run : Run (Step true) (init sampleQueue 0) userEvents userGreeted := by
  have haccepted : Run (Step true) (init sampleQueue 0) ([] ++ [.accepted Three.one])
      _ := Run.nil.snoc (.accepted _ Three.one rfl)
  exact haccepted.append (greeted_run rfl rfl samplePeer sampleAckPayload (zero 16))

/-- What a delivery writes to the user. -/
def sampleWriteEvents (d : Three) : List (RelayEvent Three) :=
  writeEvents d samplePeer ⟨.one, clientTypeUser⟩ sampleRow (zero 16)

/-- The delivery reads the queue and writes the message. -/
def deliveredEvents : List (RelayEvent Three) :=
  userEvents ++ [.fetched .two [sampleRow]] ++ sampleWriteEvents .two

def deliveredRelay : Relay Three :=
  (userGreeted.set .two (.draining samplePeer (.fetched [sampleRow]))).set .two
    (.draining samplePeer (.delete .one sampleRow []))

theorem delivered_run : Run (Step true) (init sampleQueue 0) deliveredEvents deliveredRelay := by
  have hread := userGreeted_run.snoc
    (.fetched _ Three.two samplePeer [sampleRow] rfl sampleQueue_isResult)
  exact hread.append (written_run rfl rfl (zero 16))

end Zentalk
