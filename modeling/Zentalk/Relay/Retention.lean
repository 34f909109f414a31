import Zentalk.Lib.Hidden
import Zentalk.Relay.Delivery
import Zentalk.Relay.Peers

/-!
# What leaves the queue

A row leaves when a delivery deletes it, and when a cleanup finds it expired, and in no other way
(`queue_retains`).
-/

namespace Zentalk

open Wire Runs List Relay

variable {ι : Type*} {attached : Bool}

/-! ## The outside -/

def ClockForward (_ : List (RelayEvent ι)) (s : Relay ι) : RelayEvent ι → Prop
  | .ticked now => s.now ≤ now
  | _ => True

/-- The row was in the queue at the start, or was queued in the run. -/
def EverQueued (queue : Queue) (evs : List (RelayEvent ι)) (row : QueuedMessage) : Prop :=
  row ∈ queue.rows ∨ ∃ g, .queued g row ∈ evs

/-- A message is queued with an ID that no message had before. -/
def FreshIDs (queue : Queue) (evs : List (RelayEvent ι)) (_ : Relay ι) :
    RelayEvent ι → Prop
  | .queued _ row => ∀ old, EverQueued queue evs old → old.messageID ≠ row.messageID
  | _ => True

/-! ## Messages that were delivered -/

/-- The connection `conn` was registered with the address, and then the delivery `d` found it. -/
def Found (evs : List (RelayEvent ι)) (d : ι) (address : Address) (conn : ι)
    (after : List (RelayEvent ι)) : Prop :=
  ∃ e clientType, e.registration? = some (conn, address) ∧
    (e :: .looked d address (some ⟨conn, clientType⟩) :: after).Sublist evs

/-- What `deliverQueuedMessages` sends for a row. -/
def QueuedMessage.send (row : QueuedMessage) (messageID : ByteArr 16) : RelaySend :=
  .deliverQueuedMessages row.encryptedPayload messageID

/-- A delivery found a connection registered for the recipient, and wrote the header and then the
payload to it. -/
def Delivered (evs : List (RelayEvent ι)) (row : QueuedMessage) : Prop :=
  ∃ d conn messageID, Found evs d row.recipientAddr conn
    [.queuedHeader d conn row (row.send messageID), .queuedPayload d conn row (row.send messageID)]

/-- What the labels tell about a delivery. -/
def Drain.Traced (evs : List (RelayEvent ι)) (d : ι) (recipientAddr : Address) :
    Drain ι → Prop
  | header conn _ _ => Found evs d recipientAddr conn []
  | payload conn msg _ send => ∃ messageID, send = msg.send messageID ∧
      Found evs d recipientAddr conn [.queuedHeader d conn msg send]
  | delete conn msg _ => Found evs d recipientAddr conn [] ∧ Delivered evs msg
  | _ => True

section

variable {queue : Queue} {evs : List (RelayEvent ι)} {s s' : Relay ι} {e : RelayEvent ι}
  {d conn : ι} {address : Address} {after : List (RelayEvent ι)}

theorem found_mono (h : Found evs d address conn after) (e : RelayEvent ι) :
    Found (evs ++ [e]) d address conn after := by
  obtain ⟨reg, clientType, hreg, hsub⟩ := h
  exact ⟨reg, clientType, hreg, hsub.trans (sublist_append_left evs [e])⟩

theorem found_snoc (h : Found evs d address conn after) (e : RelayEvent ι) :
    Found (evs ++ [e]) d address conn (after ++ [e]) := by
  obtain ⟨reg, clientType, hreg, hsub⟩ := h
  exact ⟨reg, clientType, hreg, hsub.append (List.Sublist.refl [e])⟩

theorem found_nil (h : Found evs d address conn after) : Found evs d address conn [] := by
  obtain ⟨reg, clientType, hreg, hsub⟩ := h
  exact ⟨reg, clientType, hreg, (((nil_sublist after).cons_cons _).cons_cons _).trans hsub⟩

variable {row : QueuedMessage}

theorem delivered_mono (h : Delivered evs row) (e : RelayEvent ι) : Delivered (evs ++ [e]) row := by
  obtain ⟨d, conn, messageID, hfound⟩ := h
  exact ⟨d, conn, messageID, found_mono hfound e⟩

theorem traced_mono {x : Drain ι} (h : x.Traced evs d address) (e : RelayEvent ι) :
    x.Traced (evs ++ [e]) d address := by
  cases x with
  | start | fetched => trivial
  | header => exact found_mono h e
  | payload =>
    obtain ⟨messageID, hsend, hfound⟩ := h
    exact ⟨messageID, hsend, found_mono hfound e⟩
  | delete => exact ⟨found_mono h.1 e, delivered_mono h.2 e⟩

theorem traced_next {rest : List QueuedMessage} {x : Drain ι} (h : Found evs d address conn [])
    (hnext : some x = Drain.next conn rest) : x.Traced evs d address := by
  cases rest with
  | nil => cases hnext
  | cons =>
    cases hnext
    exact h

theorem everQueued_mono (h : EverQueued queue evs row) (e : RelayEvent ι) :
    EverQueued queue (evs ++ [e]) row := by
  rcases h with hold | ⟨g, hg⟩
  · exact .inl hold
  · exact .inr ⟨g, mem_append_left _ hg⟩

theorem everQueued_snoc (h : EverQueued queue (evs ++ [e]) row) :
    EverQueued queue evs row ∨ ∃ g, e = .queued g row := by
  rcases h with hold | ⟨g, hg⟩
  · exact .inl (.inl hold)
  · rcases mem_append.mp hg with hbefore | hlast
    · exact .inl (.inr ⟨g, hbefore⟩)
    · exact .inr ⟨g, (mem_singleton.mp hlast).symm⟩

end

/-- What is known about the rows of the queue and of the deliveries. -/
structure Retained (queue : Queue) (evs : List (RelayEvent ι)) (s : Relay ι) : Prop where
  own : s.DrainsOwn
  registered : ∀ address c, s.entry address = some c →
    ∃ e ∈ evs, e.registration? = some (c, address)
  rows_queued : ∀ row ∈ s.queue.rows, EverQueued queue evs row
  drains_queued : ∀ d recipientAddr x, s.tasks d = .draining recipientAddr x → ∀ row ∈ x.rows,
    EverQueued queue evs row
  eq_of_messageID : ∀ row row', EverQueued queue evs row → EverQueued queue evs row' →
    row.messageID = row'.messageID → row = row'
  traced : ∀ d recipientAddr x, s.tasks d = .draining recipientAddr x →
    x.Traced evs d recipientAddr
  kept : ∀ row, EverQueued queue evs row →
    row ∈ s.queue.rows ∨ Delivered evs row ∨ row.expiresAt ≤ s.now

section

variable {queue : Queue} {evs : List (RelayEvent ι)} {s s' : Relay ι} {e : RelayEvent ι} {d : ι}
  {recipientAddr : Address} {x' : Drain ι} {row : QueuedMessage}

theorem eq_of_messageID_step (h : Retained queue evs s) (hfresh : FreshIDs queue evs s e)
    {row' : QueuedMessage} (hrow : EverQueued queue (evs ++ [e]) row)
    (hrow' : EverQueued queue (evs ++ [e]) row') (hid : row.messageID = row'.messageID) :
    row = row' := by
  rcases everQueued_snoc hrow with hold | ⟨g, rfl⟩
  · rcases everQueued_snoc hrow' with hold' | ⟨g', rfl⟩
    · exact h.eq_of_messageID row row' hold hold' hid
    · exact absurd hid (hfresh row hold)
  · rcases everQueued_snoc hrow' with hold' | ⟨g', heq⟩
    · exact absurd hid.symm (hfresh row' hold')
    · cases heq
      rfl

theorem traced_move (h : Retained queue evs s) {x : Drain ι}
    (htask : s.tasks d = .draining recipientAddr x)
    (hmove : Drain.Move s d recipientAddr x e (some x')) :
    x'.Traced (evs ++ [e]) d recipientAddr := by
  have htraced := h.traced d _ x htask
  generalize hnext : some x' = y at hmove
  cases hmove with
  | step _ _ _ hstep =>
    cases hstep with
    | looked messages peer? hpeers =>
      cases peer? with
      | none => cases hnext
      | some peer =>
        refine traced_next ?_ hnext
        obtain ⟨reg, hmem, hreg⟩ := h.registered recipientAddr peer.conn (by
          rw [entry, hpeers]
          rfl)
        exact ⟨reg, peer.clientType, hreg,
          (singleton_sublist.mpr hmem).append (List.Sublist.refl _)⟩
    | header conn msg rest messageID =>
      cases hnext
      exact ⟨messageID, rfl, found_snoc htraced _⟩
    | headerFailed conn msg rest => exact traced_next (found_mono htraced _) hnext
    | payload conn msg rest send =>
      cases hnext
      obtain ⟨messageID, rfl, hfound⟩ := htraced
      have hrecipient := (h.own d _ _ htask msg mem_cons_self).recipient
      refine ⟨found_nil (found_mono hfound _), d, conn, messageID, ?_⟩
      rw [hrecipient]
      exact found_snoc hfound _
    | payloadFailed conn msg rest send =>
      obtain ⟨messageID, rfl, hfound⟩ := htraced
      exact traced_next (found_nil (found_mono hfound _)) hnext
    | deleteFailed conn msg rest => exact traced_next (found_mono htraced.1 _) hnext
  | fetched messages hresult =>
    split at hnext
    · cases hnext
    · cases hnext
      trivial
  | fetchFailed => cases hnext
  | deleted conn msg rest => exact traced_next (found_mono htraced.1 _) hnext

theorem retained_init (queue : Queue) (now : ℤ) :
    Retained queue [] (init queue now : Relay ι) where
  own := drainsOwn_init queue now
  registered := by
    intro address c hentry
    cases hentry
  rows_queued := fun _ hrow => .inl hrow
  drains_queued := by
    intro d a x hd
    cases hd
  eq_of_messageID := by
    rintro row row' (hrow | ⟨g, hg⟩) (hrow' | ⟨g', hg'⟩) hid
    · exact inj_on_of_nodup_map queue.nodup_messageID hrow hrow' hid
    · cases hg'
    · cases hg
    · cases hg
  traced := by
    intro d a x hd
    cases hd
  kept := by
    rintro row (hrow | ⟨g, hg⟩)
    · exact .inl hrow
    · cases hg

variable [DecidableEq ι]

theorem now_le (hclock : ClockForward evs s e) (hs : Step attached s e s') : s.now ≤ s'.now := by
  cases hs with
  | ticked => exact hclock
  | removed c p ht =>
    unfold removePeer
    split <;> exact le_rfl
  | _ => exact le_rfl

section

variable (h : Retained queue evs s) (hs : Step attached s e s')

include h hs

theorem registered_step {address : Address} {c : ι} (hentry : s'.entry address = some c) :
    ∃ e' ∈ evs ++ [e], e'.registration? = some (c, address) := by
  rcases hs.entry_cases hentry with hold | ⟨clientType, rfl⟩ | rfl
  · obtain ⟨e', hmem, hreg⟩ := h.registered address c hold
    exact ⟨e', mem_append_left _ hmem, hreg⟩
  · exact ⟨_, mem_append_right _ mem_cons_self, rfl⟩
  · exact ⟨_, mem_append_right _ mem_cons_self, rfl⟩

theorem drains_queued_step (hd : s'.tasks d = .draining recipientAddr x') (hrow : row ∈ x'.rows) :
    EverQueued queue (evs ++ [e]) row := by
  refine everQueued_mono ?_ e
  rcases hs.drain_after hd with ⟨htask, -⟩ | ⟨rfl, -⟩ | ⟨x, htask, hmove⟩
  · exact h.drains_queued d _ x' htask row hrow
  · cases hrow
  · rcases move_rows hmove with ⟨messages, -, -, rfl, hresult⟩ | ⟨-, -, hrows, -⟩
    · exact h.rows_queued row (s.queue.mem_selected.mp (hresult.mem_selected hrow)).1
    · exact h.drains_queued d _ x htask row (hrows.subset hrow)

theorem traced_step (hd : s'.tasks d = .draining recipientAddr x') :
    x'.Traced (evs ++ [e]) d recipientAddr := by
  rcases hs.drain_after hd with ⟨htask, -⟩ | ⟨rfl, -⟩ | ⟨x, htask, hmove⟩
  · exact traced_mono (h.traced d _ x' htask) e
  · trivial
  · exact traced_move h htask hmove

end

/-- A row that a step deletes was delivered; the message ID tells which row it is. -/
theorem kept_step (h : Retained queue evs s) (hclock : ClockForward evs s e)
    (hs : Step attached s e s') (hrow : EverQueued queue (evs ++ [e]) row) :
    row ∈ s'.queue.rows ∨ Delivered (evs ++ [e]) row ∨ row.expiresAt ≤ s'.now := by
  have hnow := now_le hclock hs
  rcases everQueued_snoc hrow with hold | ⟨g, rfl⟩
  · rcases h.kept row hold with hin | hdelivered | hexpired
    · rcases hs.row_before hin with hstays | ⟨d, msg, rfl, hid⟩ | ⟨-, hexpired⟩
      · exact .inl hstays
      · obtain ⟨a, conn, rest, htask⟩ := hs.of_deleted.1
        have hmsg := h.drains_queued d a _ htask msg mem_cons_self
        obtain rfl := h.eq_of_messageID row msg hold hmsg hid
        exact .inr (.inl (delivered_mono (h.traced d a _ htask).2 _))
      · exact .inr (.inr (hexpired.trans hnow))
    · exact .inr (.inl (delivered_mono hdelivered e))
    · exact .inr (.inr (hexpired.trans hnow))
  · exact .inl hs.of_queued.2

theorem rows_queued_step (h : ∀ row ∈ s.queue.rows, EverQueued queue evs row)
    (hs : Step attached s e s') (hrow : row ∈ s'.queue.rows) :
    EverQueued queue (evs ++ [e]) row := by
  rcases hs.row_after hrow with hold | ⟨-, g, rfl⟩
  · exact everQueued_mono (h row hold) e
  · exact .inr ⟨g, mem_append_right _ mem_cons_self⟩

theorem retained_step (h : Retained queue evs s) (hclock : ClockForward evs s e)
    (hfresh : FreshIDs queue evs s e) (hs : Step attached s e s') :
    Retained queue (evs ++ [e]) s' where
  own := drainsOwn_step h.own hs
  registered := fun _ _ hentry => registered_step h hs hentry
  rows_queued := fun _ hrow => rows_queued_step h.rows_queued hs hrow
  drains_queued := fun _ _ _ hd _ hrow => drains_queued_step h hs hd hrow
  eq_of_messageID := fun _ _ hrow hrow' hid => eq_of_messageID_step h hfresh hrow hrow' hid
  traced := fun _ _ _ hd => traced_step h hs hd
  kept := fun _ hrow => kept_step h hclock hs hrow

end

/-! ## Queues that differ in expired rows -/

namespace Queue

/-- The two queues have the same rows, apart from expired ones. -/
structure Alike (now : ℤ) (q q' : Queue) : Prop where
  nextID : q.nextID = q'.nextID
  ttl : q.ttl = q'.ttl
  rows : q.rows.filter (fun row => now < row.expiresAt) =
    q'.rows.filter (fun row => now < row.expiresAt)

namespace Alike

variable {now : ℤ} {q q' : Queue}

theorem refl (now : ℤ) (q : Queue) : q.Alike now q := ⟨rfl, rfl, rfl⟩

theorem symm (h : q.Alike now q') : q'.Alike now q := ⟨h.nextID.symm, h.ttl.symm, h.rows.symm⟩

/-- What is expired stays so. -/
theorem mono (h : q.Alike now q') {now' : ℤ} (hle : now ≤ now') : q.Alike now' q' where
  nextID := h.nextID
  ttl := h.ttl
  rows := by
    have hboth (l : List QueuedMessage) : l.filter (fun row => now' < row.expiresAt) =
        (l.filter fun row => now < row.expiresAt).filter fun row => now' < row.expiresAt := by
      rw [filter_filter]
      refine filter_congr fun row _ => ?_
      by_cases hlt : now' < row.expiresAt
      · simp [hlt, hle.trans_lt hlt]
      · simp [hlt]
    rw [hboth, h.rows, ← hboth]

theorem cleanup (h : q.Alike now q') : (q.cleanup now).Alike now q' where
  nextID := h.nextID
  ttl := h.ttl
  rows := by
    rw [← h.rows, Queue.cleanup, keep, filter_filter]
    refine filter_congr fun row _ => ?_
    by_cases hlt : now < row.expiresAt <;> simp [hlt]

theorem deleteMessage (h : q.Alike now q') (messageID : ByteArr 16) :
    (q.deleteMessage messageID).Alike now (q'.deleteMessage messageID) where
  nextID := h.nextID
  ttl := h.ttl
  rows := by
    rw [Queue.deleteMessage, Queue.deleteMessage, keep, keep, filter_comm, h.rows, filter_comm]

theorem newRow (h : q.Alike now q') (recipientAddr : Address) (messageID : ByteArr 16)
    (encryptedPayload : Payload) : q.newRow now recipientAddr messageID encryptedPayload =
      q'.newRow now recipientAddr messageID encryptedPayload := by
  rw [Queue.newRow, Queue.newRow, h.nextID, h.ttl]

variable {recipientAddr : Address}

theorem queueMessage (h : q.Alike now q') {messageID : ByteArr 16} {encryptedPayload : Payload}
    {q₁ : Queue} (hqueue : q.queueMessage now recipientAddr messageID encryptedPayload = .ok q₁)
    (hnew : messageID ∉ q'.rows.map QueuedMessage.messageID) :
    ∃ q₁', q'.queueMessage now recipientAddr messageID encryptedPayload = .ok q₁' ∧
      q₁.Alike now q₁' := by
  obtain ⟨_, rfl⟩ := Queue.queueMessage_ok hqueue
  refine ⟨_, dif_pos hnew, congrArg (· + 1) h.nextID, h.ttl, ?_⟩
  simp only [Queue.insert]
  rw [filter_append, filter_append, h.rows, h.newRow]

theorem selected (h : q.Alike now q') (recipientAddr : Address) :
    q.selected now recipientAddr = q'.selected now recipientAddr := by
  have hboth (l : List QueuedMessage) :
      l.filter (fun row => row.recipientAddr = recipientAddr ∧ row.expiresAt > now) =
        (l.filter fun row => now < row.expiresAt).filter
          fun row => row.recipientAddr = recipientAddr := by
    rw [filter_filter]
    refine filter_congr fun row _ => ?_
    simp
  rw [Queue.selected, Queue.selected, hboth, hboth, h.rows]

theorem isResult_iff (h : q.Alike now q') {messages : List QueuedMessage} :
    q.IsResult now recipientAddr messages ↔ q'.IsResult now recipientAddr messages := by
  rw [IsResult, IsResult, h.selected]

end Alike

end Queue

/-! ## Cleanup makes no difference -/

def RelayEvent.isCleanup : RelayEvent ι → Bool
  | cleaned => true
  | _ => false

/-- The two relays differ only in expired rows of the queue. -/
def AlikeRelays (queue : Queue) (seen : List (RelayEvent ι)) (s t : Relay ι) : Prop :=
  ∃ q, t = { s with queue := q } ∧ s.queue.Alike s.now q ∧
    ∀ row ∈ q.rows, EverQueued queue seen row

theorem of_cleanup {e : RelayEvent ι} (he : e.isCleanup = true) : e = .cleaned := by
  cases e with
  | cleaned => rfl
  | _ => cases he

variable [DecidableEq ι]

section

variable {queue : Queue} {evs : List (RelayEvent ι)} {s s' : Relay ι} {e : RelayEvent ι}

theorem alike_step {q : Queue} (h : s.queue.Alike s.now q) (hclock : ClockForward evs s e)
    (hnew : ∀ g row, e = .queued g row → row.messageID ∉ q.rows.map QueuedMessage.messageID)
    (he : e.isCleanup = false) (hs : Step attached s e s') :
    ∃ q', Step attached { s with queue := q } e { s' with queue := q' } ∧
      s'.queue.Alike s'.now q' := by
  cases hs with
  | accepted c ht => exact ⟨q, .accepted _ c ht, h⟩
  | handler c p x x' e ht hstep => exact ⟨q, .handler _ c p x x' e ht hstep, h⟩
  | registered c p a ct ht => exact ⟨q, .registered _ c p a ct ht, h⟩
  | handshakeFailed c p ht => exact ⟨q, .handshakeFailed _ c p ht, h⟩
  | returned c p a ct ht hnot => exact ⟨q, .returned _ c p a ct ht hnot, h⟩
  | spawned c d p a ct ht hattached hct hd =>
    exact ⟨q, .spawned _ c d p a ct ht hattached hct hd, h⟩
  | queued c p fwd connected messageID row queue ht hrow hqueue =>
    obtain rfl := hrow
    obtain ⟨q', hq', h'⟩ := h.queueMessage hqueue (hnew c _ rfl)
    exact ⟨q', .queued _ c p fwd connected messageID _ q' ht (h.newRow _ _ _) hq', h'⟩
  | removed c p ht =>
    have hremove : ({ s with queue := q } : Relay ι).removePeer p =
        { s.removePeer p with queue := q } := by
      unfold removePeer
      split <;> rfl
    have hstep : Step attached { s with queue := q } (.removed c) _ :=
      .removed { s with queue := q } c p ht
    rw [hremove] at hstep
    refine ⟨q, hstep, ?_⟩
    unfold removePeer
    split <;> exact h
  | closed c p ht => exact ⟨q, .closed _ c p ht, h⟩
  | dialing g a ht hnone => exact ⟨q, .dialing _ g a ht hnone, h⟩
  | dialFailed g a ht => exact ⟨q, .dialFailed _ g a ht, h⟩
  | dialed g a ht => exact ⟨q, .dialed _ g a ht, h⟩
  | started g ht => exact ⟨q, .started _ g ht, h⟩
  | drain d a x x' e ht hstep => exact ⟨q, .drain _ d a x x' e ht hstep, h⟩
  | fetched d a messages ht hresult =>
    exact ⟨q, .fetched _ d a messages ht (h.isResult_iff.mp hresult), h⟩
  | fetchFailed d a ht => exact ⟨q, .fetchFailed _ d a ht, h⟩
  | deleted d a conn msg rest ht =>
    exact ⟨_, .deleted _ d a conn msg rest ht, h.deleteMessage msg.messageID⟩
  | cleaned => cases he
  | ticked now => exact ⟨q, .ticked _ now, h.mono hclock⟩

theorem cleanup_hides (queue : Queue) :
    Hides (Step attached) RelayEvent.isCleanup
      (fun seen s e => ClockForward seen s e ∧ FreshIDs queue seen s e)
      (AlikeRelays (ι := ι) queue) where
  left := by
    rintro seen e s s' t ⟨q, rfl, halike, hqueued⟩ he hs
    obtain rfl := of_cleanup he
    cases hs with
    | handler _ _ _ _ _ _ hstep => cases hstep
    | drain _ _ _ _ _ _ hstep => cases hstep
    | cleaned => exact ⟨q, rfl, halike.cleanup, hqueued⟩
  right := by
    rintro seen e s t ⟨q, rfl, halike, hqueued⟩ he
    obtain rfl := of_cleanup he
    refine ⟨_, .cleaned _, q.cleanup s.now, rfl, halike.symm.cleanup.symm, fun row hrow => ?_⟩
    exact hqueued row ((q.mem_cleanup).mp hrow).1
  both := by
    rintro seen e s s' t ⟨q, rfl, halike, hqueued⟩ he ⟨hclock, hfresh⟩ hs
    have hnew g (row : QueuedMessage) (hrow : e = .queued g row) :
        row.messageID ∉ q.rows.map QueuedMessage.messageID := by
      subst hrow
      intro hmem
      obtain ⟨old, hold, hid⟩ := mem_map.mp hmem
      exact hfresh old (hqueued old hold) hid
    obtain ⟨q', hstep, halike'⟩ := alike_step halike hclock hnew he hs
    exact ⟨_, hstep, q', rfl, halike', fun row hrow => rows_queued_step hqueued hstep hrow⟩

end

section

variable {queue : Queue} {now : ℤ} {evs : List (RelayEvent ι)} {s : Relay ι}
  (hrun : Run (Step attached) (init queue now) evs s)
  (hclock : Guarded (Step attached) (init queue now) ClockForward evs)
  (hfresh : Guarded (Step attached) (init queue now) (FreshIDs queue) evs)

include hrun hclock hfresh

theorem retained_run : Retained queue evs s :=
  Run.guarded_invariant (retained_init queue now)
    (fun _ _ _ _ h hguard hs => retained_step h hguard.1 hguard.2 hs) hrun (hclock.and hfresh)

/-- With other passes of `cleanupExpiredMessages`, or none, there is a run that ends in the same
state apart from expired rows. -/
theorem cleanup_hidden {evs' : List (RelayEvent ι)}
    (heq : visible RelayEvent.isCleanup evs' = visible RelayEvent.isCleanup evs) :
    ∃ q, Run (Step attached) (init queue now) evs' { s with queue := q } ∧
      ∀ recipientAddr messages, q.IsResult s.now recipientAddr messages ↔
        s.queue.IsResult s.now recipientAddr messages := by
  have hinit : AlikeRelays (ι := ι) queue [] (init queue now) (init queue now) :=
    ⟨queue, rfl, .refl now queue, fun _ hrow => .inl hrow⟩
  have hguard : Guarded (Step attached) (init queue now) (fun pre s e =>
      e.isCleanup = false → ClockForward (visible RelayEvent.isCleanup pre) s e ∧
        FreshIDs queue (visible RelayEvent.isCleanup pre) s e) evs := by
    intro pre e post s heq hpre _
    refine ⟨hclock pre e post s heq hpre, ?_⟩
    have hpre := hfresh pre e post s heq hpre
    cases e with
    | queued g row =>
      rintro old (hold | ⟨g', hg'⟩)
      · exact hpre old (.inl hold)
      · exact hpre old (.inr ⟨g', mem_of_mem_filter hg'⟩)
    | _ => trivial
  obtain ⟨t, ht, q, rfl, halike, -⟩ := hrun.rearrange (cleanup_hides queue) hinit hguard heq
  exact ⟨q, ht, fun _ _ => halike.symm.isResult_iff⟩

end

/-- A queued message is still in the queue, or was written to a connection registered for its
recipient, or is expired; with other passes of `cleanupExpiredMessages`, or none, the same run is
possible and `GetQueuedMessages` returns the same. -/
theorem queue_retains {queue : Queue} {now : ℤ} {evs : List (RelayEvent ι)} {s : Relay ι}
    (hrun : Run (Step attached) (init queue now) evs s)
    (hclock : Guarded (Step attached) (init queue now) ClockForward evs)
    (hfresh : Guarded (Step attached) (init queue now) (FreshIDs queue) evs) :
    (∀ row, EverQueued queue evs row →
      row ∈ s.queue.rows ∨ Delivered evs row ∨ row.expiresAt ≤ s.now) ∧
    ∀ evs', visible RelayEvent.isCleanup evs' = visible RelayEvent.isCleanup evs →
      ∃ q, Run (Step attached) (init queue now) evs' { s with queue := q } ∧
        ∀ recipientAddr messages, q.IsResult s.now recipientAddr messages ↔
          s.queue.IsResult s.now recipientAddr messages :=
  ⟨(retained_run hrun hclock hfresh).kept, fun _ heq => cleanup_hidden hrun hclock hfresh heq⟩

def retainedEvents : List (RelayEvent Three) :=
  deliveredEvents ++ [.deleted .two sampleRow, .cleaned]

theorem queue_retains_delivered : ∃ s : Relay Three,
    Run (Step true) (init sampleQueue 0) retainedEvents s ∧
    s.queue.rows = [] ∧ s.now < sampleRow.expiresAt ∧ Delivered retainedEvents sampleRow ∧
    ∃ q, Run (Step true) (init sampleQueue 0)
      (deliveredEvents ++ [.deleted .two sampleRow]) { s with queue := q } := by
  have hrun := (delivered_run.snoc (.deleted _ Three.two samplePeer .one sampleRow [] rfl)).snoc
    (.cleaned _)
  have hclock : Guarded (Step true) (init sampleQueue 0) ClockForward
      ([] ++ retainedEvents) :=
    Guarded.nil.append_of_free _ (by
      simp [retainedEvents, deliveredEvents, userEvents, sampleWriteEvents, greetEvents,
        ackEvents, writeEvents, ClockForward])
  have hfresh : Guarded (Step true) (init sampleQueue 0) (FreshIDs sampleQueue)
      ([] ++ retainedEvents) :=
    Guarded.nil.append_of_free _ (by
      simp [retainedEvents, deliveredEvents, userEvents, sampleWriteEvents, greetEvents,
        ackEvents, writeEvents, FreshIDs])
  obtain ⟨hkept, hhidden⟩ := queue_retains hrun hclock hfresh
  obtain ⟨q, hq, -⟩ := hhidden (deliveredEvents ++ [.deleted .two sampleRow]) rfl
  refine ⟨_, hrun, rfl, by decide, ?_, q, hq⟩
  rcases hkept sampleRow (.inl mem_cons_self) with hin | hdelivered | hexpired
  · cases hin
  · exact hdelivered
  · exact absurd hexpired (by decide)

end Zentalk
