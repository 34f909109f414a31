import Mathlib.Data.List.Sort
import Zentalk.Relay.Retention

/-!
# The order of queued messages

The rows are ordered by a timestamp that is rounded to the hour (`queue_order_iff`).
-/

namespace Zentalk

open Wire Runs List Option Relay

variable {ι : Type*} [DecidableEq ι] {attached : Bool}

/-- The messages were queued at times that did not go back, up to `now`. -/
structure Queue.InOrder (q : Queue) (now : ℤ) : Prop where
  rows : ∀ row ∈ q.rows, ∀ row' ∈ q.rows, row.id < row'.id → row.timestamp ≤ row'.timestamp
  past : ∀ row ∈ q.rows, row.timestamp ≤ bucketTimestamp now

/-- The messages come in the order in which they were queued. -/
def Fifo (messages : List QueuedMessage) : Prop :=
  messages.Pairwise fun row row' => row.id < row'.id

/-- The message whose payload the delivery `d` writes in a step. -/
def RelayEvent.sent? (d : ι) : RelayEvent ι → Option QueuedMessage
  | queuedPayload d' _ msg _ => if d' = d then some msg else none
  | _ => none

/-- The messages whose payloads the delivery `d` has written. -/
def sentBy (d : ι) (evs : List (RelayEvent ι)) : List QueuedMessage :=
  evs.filterMap (RelayEvent.sent? d)

/-! ## The rows of the queue -/

section Rows

variable {q : Queue} {now : ℤ} {recipientAddr : Address} {s s' : Relay ι} {e : RelayEvent ι}
  {evs : List (RelayEvent ι)}

theorem bucketTimestamp_mono {now now' : ℤ} (h : now ≤ now') :
    bucketTimestamp now ≤ bucketTimestamp now' :=
  Int.mul_le_mul_of_nonneg_right (Int.tdiv_le_tdiv (by decide) h) (by decide)

theorem timestamp_of_queued {g : ι} {row : QueuedMessage}
    (hs : Step attached s (.queued g row) s') : row.timestamp = bucketTimestamp s.now := by
  cases hs with
  | handler _ _ _ _ _ _ hstep => cases hstep
  | drain _ _ _ _ _ _ hstep => cases hstep
  | queued _ p fwd connected messageID _ queue ht hrow hqueue => rw [hrow, Queue.newRow]

theorem inOrder_step (h : s.queue.InOrder s.now) (hclock : ClockForward evs s e)
    (hs : Step attached s e s') : s'.queue.InOrder s'.now := by
  have hnow := bucketTimestamp_mono (now_le hclock hs)
  refine ⟨fun row hrow row' hrow' hlt => ?_, fun row hrow => ?_⟩
  · rcases hs.row_after hrow' with hold' | ⟨-, g, rfl⟩
    · rcases hs.row_after hrow with hold | ⟨hid, -⟩
      · exact h.rows row hold row' hold' hlt
      · have hid' := s.queue.id_lt row' hold'
        omega
    · rw [timestamp_of_queued hs]
      rcases hs.row_after hrow with hold | ⟨-, g', heq⟩
      · exact h.past row hold
      · cases heq
        exact absurd hlt (lt_irrefl _)
  · rcases hs.row_after hrow with hold | ⟨-, g, rfl⟩
    · exact (h.past row hold).trans hnow
    · rw [timestamp_of_queued hs]
      exact hnow

theorem inOrder_run {queue : Queue} (hqueue : queue.InOrder now)
    (hrun : Run (Step attached) (init queue now) evs s)
    (hclock : Guarded (Step attached) (init queue now) ClockForward evs) :
    s.queue.InOrder s.now := by
  refine Run.guarded_invariant (I := fun _ s => s.queue.InOrder s.now) hqueue ?_ hrun hclock
  intro evs e s s' h hclock hs
  exact inOrder_step h hclock hs

def LaterFirst (row row' : QueuedMessage) : Prop :=
  row.timestamp < row'.timestamp ∨ row.timestamp = row'.timestamp ∧ row'.id ≤ row.id

instance : DecidableRel LaterFirst := fun _ _ => inferInstanceAs (Decidable (_ ∨ _))

instance : Std.Total LaterFirst where
  total row row' := by
    unfold LaterFirst
    omega

instance : IsTrans QueuedMessage LaterFirst where
  trans row row' row'' h h' := by
    unfold LaterFirst at *
    omega

/-- Every order that the database may return is that of queueing exactly if no timestamp is
repeated. -/
theorem fifo_iff (h : q.InOrder now) {later : ℤ} :
    (∀ messages, q.IsResult later recipientAddr messages → Fifo messages) ↔
      (q.selected later recipientAddr).Pairwise fun row row' => row.timestamp ≠ row'.timestamp := by
  constructor
  · intro hfifo
    -- The database may return the messages of one hour in the reverse order.
    have hperm := (q.selected later recipientAddr).perm_insertionSort LaterFirst
    have hsorted := pairwise_insertionSort LaterFirst (q.selected later recipientAddr)
    have hresult := hfifo _ ⟨_, hperm, hsorted.imp fun hle => ?_, prefix_rfl⟩
    · refine (hperm.pairwise_iff fun hne => hne.symm).mp ((hsorted.and hresult).imp ?_)
      rintro row row' ⟨hle, hlt⟩ heq
      rcases hle with hts | ⟨-, hid⟩
      · exact hts.ne heq
      · exact absurd hlt (not_lt.mpr hid)
    · exact hle.elim le_of_lt fun heq => heq.1.le
  · rintro hne messages ⟨all, hperm, hsorted, hpart⟩
    have hne' := (hperm.pairwise_iff fun hne => hne.symm).mpr hne
    have hfifo : Fifo all := by
      refine (hsorted.and hne').imp_of_mem fun {row row'} hrow hrow' hts => ?_
      have hold := (q.mem_selected.mp (hperm.mem_iff.mp hrow)).1
      have hold' := (q.mem_selected.mp (hperm.mem_iff.mp hrow')).1
      by_contra hid
      rcases (not_lt.mp hid).lt_or_eq with hlt | heq
      · exact hts.2 (le_antisymm hts.1 (h.rows row' hold' row hold hlt))
      · exact hts.2 (congrArg QueuedMessage.timestamp (q.eq_of_id_eq hold hold' heq.symm))
    exact hfifo.sublist hpart.sublist

end Rows

/-! ## A delivery -/

section Delivery

variable {s s' : Relay ι} {e : RelayEvent ι} {evs : List (RelayEvent ι)} {d : ι}
  {recipientAddr : Address} {messages : List QueuedMessage}

theorem sentBy_snoc : sentBy d (evs ++ [e]) = sentBy d evs ++ (e.sent? d).toList := by
  rw [sentBy, filterMap_append, sentBy]
  cases h : e.sent? d with
  | none => rw [filterMap_cons_none h, filterMap_nil, toList_none]
  | some msg => rw [filterMap_cons_some h, filterMap_nil, toList_some]

omit [DecidableEq ι] in
theorem pending_next (conn : ι) (rest : List QueuedMessage) :
    Drain.next conn rest ≠ some .start ∧
      ((Drain.next conn rest).map Drain.pending).getD [] = rest := by
  refine ⟨fun h => next_ne_start h rfl, ?_⟩
  cases rest with
  | nil => rfl
  | cons msg rest => rfl

theorem move_sent {x : Drain ι} {x' : Option (Drain ι)} (hne : x ≠ .start)
    (hmove : Drain.Move s d recipientAddr x e x') :
    x' ≠ some .start ∧
      ((e.sent? d).toList ++ (x'.map Drain.pending).getD []).Sublist x.pending := by
  have hnext (conn : ι) rest before (h : rest.Sublist before) :
      Drain.next conn rest ≠ some .start ∧
        ([] ++ ((Drain.next conn rest).map Drain.pending).getD []).Sublist before := by
    refine ⟨(pending_next conn rest).1, ?_⟩
    rw [(pending_next conn rest).2, nil_append]
    exact h
  cases hmove with
  | fetched messages _ => exact absurd rfl hne
  | fetchFailed => exact absurd rfl hne
  | deleted conn msg rest => exact hnext conn rest rest (.refl rest)
  | step _ _ _ hstep =>
    cases hstep with
    | looked messages peer? _ =>
      cases peer? with
      | none => exact ⟨(some_ne_none _).symm, nil_sublist _⟩
      | some peer => exact hnext peer.conn messages messages (.refl messages)
    | header conn msg rest messageID =>
      exact ⟨fun h => absurd h (by simp), .refl _⟩
    | headerFailed conn msg rest => exact hnext conn rest _ (sublist_cons_self msg rest)
    | payload conn msg rest send =>
      refine ⟨fun h => absurd h (by simp), ?_⟩
      rw [RelayEvent.sent?, if_pos rfl]
      exact .refl _
    | payloadFailed conn msg rest send =>
      exact hnext conn rest _ (sublist_cons_self msg rest)
    | deleteFailed conn msg rest => exact hnext conn rest rest (.refl rest)

theorem done_step (hdone : s.tasks d = .done) (hs : Step attached s e s') :
    s'.tasks d = .done ∧ e.goroutine? ≠ some d := by
  rcases hs.moves d with ⟨hsame, hg⟩ | ⟨c, a, -, habsent, -⟩ | ⟨-, hmove⟩
  · exact ⟨hsame.trans hdone, hg⟩
  · cases hdone.symm.trans habsent
  · rw [hdone] at hmove
    generalize s'.tasks d = task' at hmove
    cases hmove

theorem sent_goroutine (h : e.goroutine? ≠ some d) : e.sent? d = none := by
  cases e with
  | queuedPayload d' conn msg send =>
    rw [RelayEvent.sent?, if_neg]
    rintro rfl
    exact h rfl
  | _ => rfl

def Remains (d : ι) (messages : List QueuedMessage) (evs : List (RelayEvent ι)) (s : Relay ι) :
    Prop :=
  s.tasks d = .done ∧ (sentBy d evs).Sublist messages ∨
    ∃ recipientAddr x, s.tasks d = .draining recipientAddr x ∧ x ≠ .start ∧
      (sentBy d evs ++ x.pending).Sublist messages

theorem remains_step (h : Remains d messages evs s) (hs : Step attached s e s') :
    Remains d messages (evs ++ [e]) s' := by
  rcases h with ⟨hdone, hsent⟩ | ⟨a, x, htask, hne, hsent⟩
  · obtain ⟨hdone', hg⟩ := done_step hdone hs
    refine .inl ⟨hdone', ?_⟩
    rw [sentBy_snoc, sent_goroutine hg, toList_none, append_nil]
    exact hsent
  · rcases hs.drain_before htask with ⟨hsame, hg⟩ | ⟨x', hafter, hmove⟩
    · refine .inr ⟨a, x, hsame, hne, ?_⟩
      rw [sentBy_snoc, sent_goroutine hg, toList_none, append_nil]
      exact hsent
    · obtain ⟨hne', hmoved⟩ := move_sent hne hmove
      have hall := (hmoved.append_left (sentBy d evs)).trans hsent
      rw [← append_assoc, ← sentBy_snoc] at hall
      cases x' with
      | none => exact .inl ⟨hafter, (sublist_append_left _ _).trans hall⟩
      | some x' => exact .inr ⟨a, x', hafter, fun heq => hne' (congrArg some heq), hall⟩

theorem sent_in_order {s₁ : Relay ι} (htask : s.tasks d = .draining recipientAddr .start)
    (hs : Step attached s (.fetched d messages) s₁) (hrun : Run (Step attached) s₁ evs s') :
    s.queue.IsResult s.now recipientAddr messages ∧ (sentBy d evs).Sublist messages := by
  cases hs with
  | handler _ _ _ _ _ _ hstep => cases hstep
  | drain _ _ _ _ _ _ hstep => cases hstep
  | fetched _ a _ ht hresult =>
    cases htask.symm.trans ht
    refine ⟨hresult, ?_⟩
    have hinit : Remains d messages [] (s.set d (if messages = [] then .done else
        .draining recipientAddr (.fetched messages))) := by
      rw [Remains, tasks_set_self]
      split
      · exact .inl ⟨rfl, nil_sublist _⟩
      · exact .inr ⟨recipientAddr, _, rfl, by simp, .refl messages⟩
    have hremains := Run.trace_invariant hinit
      (fun _ _ _ _ h hs => remains_step h hs) hrun
    rcases hremains with ⟨-, hsent⟩ | ⟨-, x, -, -, hsent⟩
    · exact hsent
    · exact (sublist_append_left _ _).trans hsent

end Delivery

/-- `GetQueuedMessages` returns the messages in the order of queueing, and `deliverQueuedMessages`
writes them in this order, exactly if no two that it selects have the same timestamp. -/
theorem queue_order_iff {queue : Queue} {now : ℤ} {evs : List (RelayEvent ι)} {s : Relay ι}
    (hqueue : queue.InOrder now) (hrun : Run (Step attached) (init queue now) evs s)
    (hclock : Guarded (Step attached) (init queue now) ClockForward evs) (recipientAddr : Address) :
    ((∀ messages, s.queue.IsResult s.now recipientAddr messages → Fifo messages) ∧
      ∀ d messages s₁ evs' s', s.tasks d = .draining recipientAddr .start →
        Step attached s (.fetched d messages) s₁ → Run (Step attached) s₁ evs' s' →
        Fifo (sentBy d evs')) ↔
      (s.queue.selected s.now recipientAddr).Pairwise
        fun row row' => row.timestamp ≠ row'.timestamp := by
  have horder := inOrder_run hqueue hrun hclock
  refine ⟨fun h => (fifo_iff horder).mp h.1, fun h => ?_⟩
  have hfifo := (fifo_iff horder).mpr h
  refine ⟨hfifo, fun d messages s₁ evs' s' htask hs hrun' => ?_⟩
  obtain ⟨hresult, hsent⟩ := sent_in_order htask hs hrun'
  exact (hfifo messages hresult).sublist hsent

/-! ## Two messages -/

/-- Two messages are queued, at time 0 and at `now`. -/
def twoQueued (now : ℤ) : Except String Queue :=
  ((Queue.empty 86400).queueMessage 0 samplePeer (ByteArr.zero 16) sampleAckPayload).bind fun q =>
    q.queueMessage now samplePeer ⟨List.replicate 16 1, rfl⟩ sampleAckPayload

/-- An hour apart. -/
theorem queue_order_hours :
    ∃ q, twoQueued 3600 = .ok q ∧
      ∀ messages, q.IsResult 3600 samplePeer messages → Fifo messages := by
  obtain ⟨q, hq, horder, hhours⟩ : ∃ q, twoQueued 3600 = .ok q ∧ q.InOrder 3600 ∧
      (q.selected 3600 samplePeer).Pairwise fun row row' => row.timestamp ≠ row'.timestamp :=
    ⟨_, rfl, ⟨by decide, by decide⟩, by decide⟩
  have hrun : Run (Step true) (init q 3600 : Relay Three) [] _ := .nil
  exact ⟨q, hq, ((queue_order_iff horder hrun Guarded.nil samplePeer).mpr hhours).1⟩

/-- A second apart, and the database may return the second message first. -/
theorem queue_order_lost :
    ∃ q, twoQueued 1 = .ok q ∧ ∃ messages, q.IsResult 1 samplePeer messages ∧
      q.IsComplete 1 samplePeer messages ∧ ¬ Fifo messages := by
  refine ⟨_, rfl, _, ⟨_, List.Perm.swap _ _ _, by decide, prefix_rfl⟩, fun row hrow => ?_, ?_⟩
  · exact (List.Perm.swap _ _ _).mem_iff.mpr hrow
  · rw [Fifo]
    decide

end Zentalk
