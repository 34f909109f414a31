import Zentalk.Relay.Delivery

/-!
# Queued messages that are written twice

A second handshake starts a second delivery of the same rows. One after the other they write each
row once (`queued_written_once`).
-/

namespace Zentalk

open Wire Runs List Option ByteArr Relay

variable {ι : Type*} [DecidableEq ι] {attached : Bool}

/-! ## What is written, and the condition -/

/-- The ID of the row whose payload a step writes, if it is one for `recipientAddr`. -/
def RelayEvent.writtenID? {ι : Type*} (recipientAddr : Address) : RelayEvent ι → Option ℕ
  | queuedPayload _ _ msg _ => if msg.recipientAddr = recipientAddr then some msg.id else none
  | _ => none

def writtenIDs {ι : Type*} (recipientAddr : Address) (evs : List (RelayEvent ι)) : List ℕ :=
  evs.filterMap (RelayEvent.writtenID? recipientAddr)

/-- A delivery reads the queue only while no other one is at work on it, and its deletions succeed.
-/
def DeliversAlone (recipientAddr : Address) (_ : List (RelayEvent ι)) (s : Relay ι) :
    RelayEvent ι → Prop
  | .fetched d _ => s.tasks d = .draining recipientAddr .start →
      ∀ d' x, s.tasks d' = .draining recipientAddr x → x = .start
  | .deleteFailed d => ∀ x, s.tasks d ≠ .draining recipientAddr x
  | _ => True

/-! ## The invariant -/

/-- No message was written twice, and none can be: what a delivery is going to write was not written
yet, and what was written is gone from the queue or about to be deleted. -/
structure WrittenOnce (recipientAddr : Address) (evs : List (RelayEvent ι)) (s : Relay ι) :
    Prop where
  own : s.DrainsOwn
  nodup : (writtenIDs recipientAddr evs).Nodup
  id_lt : ∀ id ∈ writtenIDs recipientAddr evs, id < s.queue.nextID
  alone : ∀ d d' x x', s.tasks d = .draining recipientAddr x →
    s.tasks d' = .draining recipientAddr x' → x ≠ .start → x' ≠ .start → d = d'
  nodup_pending : ∀ d x, s.tasks d = .draining recipientAddr x →
    (x.pending.map QueuedMessage.id).Nodup
  unwritten : ∀ d x, s.tasks d = .draining recipientAddr x → ∀ row ∈ x.pending,
    row.id ∉ writtenIDs recipientAddr evs
  deleting : ∀ row ∈ s.queue.rows, row.id ∈ writtenIDs recipientAddr evs →
    ∃ d conn rest, s.tasks d = .draining recipientAddr (.delete conn row rest)

section

variable {recipientAddr : Address} {evs : List (RelayEvent ι)} {s s' : Relay ι} {e : RelayEvent ι}

omit [DecidableEq ι] in
theorem writtenIDs_snoc (recipientAddr : Address) (evs : List (RelayEvent ι)) (e : RelayEvent ι) :
    writtenIDs recipientAddr (evs ++ [e]) =
      writtenIDs recipientAddr evs ++ (e.writtenID? recipientAddr).toList := by
  cases h : e.writtenID? recipientAddr <;> simp [writtenIDs, h]

theorem of_writtenID {id : ℕ} (hown : s.DrainsOwn) (hs : Step attached s e s')
    (hid : e.writtenID? recipientAddr = some id) : ∃ d conn msg rest send,
      e = .queuedPayload d conn msg send ∧ msg.id = id ∧
      s.tasks d = .draining recipientAddr (.payload conn msg rest send) ∧
      s'.tasks d = .draining recipientAddr (.delete conn msg rest) := by
  cases hs with
  | handler _ _ _ _ _ _ hstep => cases hstep <;> cases hid
  | drain d a x x' _ ht hstep =>
    cases hstep with
    | payload conn msg rest send =>
      have hrecipient := (hown d a _ ht msg mem_cons_self).recipient
      simp only [RelayEvent.writtenID?] at hid
      split at hid
      · next heq =>
        obtain rfl := heq.symm.trans hrecipient
        exact ⟨d, conn, msg, rest, send, rfl, some.inj hid, ht, s.tasks_set_self _ _⟩
      · cases hid
    | _ => cases hid
  | _ => cases hid

variable {d : ι} {x' : Drain ι} {row : QueuedMessage}

theorem started_before (hs : Step attached s e s')
    (htask' : s'.tasks d = .draining recipientAddr x') (hstarted' : x' ≠ .start) :
    (∃ x, s.tasks d = .draining recipientAddr x ∧ x ≠ .start) ∨
      (s.tasks d = .draining recipientAddr .start ∧ ∃ messages, e = .fetched d messages) := by
  rcases hs.drain_after htask' with ⟨htask, -⟩ | ⟨rfl, -⟩ | ⟨x, htask, hmove⟩
  · exact .inl ⟨x', htask, hstarted'⟩
  · exact absurd rfl hstarted'
  · rcases move_rows hmove with ⟨messages, rfl, he, -, -⟩ | ⟨hstarted, -, -, -⟩
    · exact .inr ⟨htask, messages, he⟩
    · exact .inl ⟨x, htask, hstarted⟩

theorem alone_step (h : WrittenOnce recipientAddr evs s)
    (hguard : DeliversAlone recipientAddr evs s e) (hs : Step attached s e s') {d' : ι}
    {x : Drain ι} (hd : s'.tasks d = .draining recipientAddr x)
    (hd' : s'.tasks d' = .draining recipientAddr x') (hx : x ≠ .start) (hx' : x' ≠ .start) :
    d = d' := by
  rcases started_before hs hd hx with ⟨y, hy, hstarted⟩ | ⟨hy, messages, rfl⟩
  · rcases started_before hs hd' hx' with ⟨y', hy', hstarted'⟩ | ⟨hy', messages, rfl⟩
    · exact h.alone d d' y y' hy hy' hstarted hstarted'
    · exact absurd (hguard hy' d y hy) hstarted
  · rcases started_before hs hd' hx' with ⟨y', hy', hstarted'⟩ | ⟨-, messages', heq⟩
    · exact absurd (hguard hy d' y' hy') hstarted'
    · cases heq
      rfl

theorem nodup_pending_step (h : WrittenOnce recipientAddr evs s) (hs : Step attached s e s')
    (hd : s'.tasks d = .draining recipientAddr x') : (x'.pending.map QueuedMessage.id).Nodup := by
  rcases hs.drain_after hd with ⟨htask, -⟩ | ⟨rfl, -⟩ | ⟨x, htask, hmove⟩
  · exact h.nodup_pending d x' htask
  · exact nodup_nil
  · rcases move_rows hmove with ⟨messages, -, -, rfl, hresult⟩ | ⟨-, -, -, hpending⟩
    · exact hresult.nodup_id
    · exact (h.nodup_pending d x htask).sublist (hpending.map _)

section

variable (h : WrittenOnce recipientAddr evs s) (hguard : DeliversAlone recipientAddr evs s e)
  (hs : Step attached s e s')

include h hguard hs

/-- A row that is read was not written before: another delivery would be about to delete it. -/
theorem unwritten_before (hd : s'.tasks d = .draining recipientAddr x') (hrow : row ∈ x'.pending) :
    row.id ∉ writtenIDs recipientAddr evs := by
  rcases hs.drain_after hd with ⟨htask, -⟩ | ⟨rfl, -⟩ | ⟨x, htask, hmove⟩
  · exact h.unwritten d x' htask row hrow
  · cases hrow
  · rcases move_rows hmove with ⟨messages, rfl, rfl, rfl, hresult⟩ | ⟨-, -, -, hpending⟩
    · intro hwritten
      have hqueue := (s.queue.mem_selected.mp (hresult.mem_selected hrow)).1
      obtain ⟨d', conn, rest, hd'⟩ := h.deleting row hqueue hwritten
      cases hguard htask d' _ hd'
    · exact h.unwritten d x htask row (hpending.subset hrow)

theorem unwritten_step (hd : s'.tasks d = .draining recipientAddr x') (hrow : row ∈ x'.pending) :
    row.id ∉ writtenIDs recipientAddr (evs ++ [e]) := by
  rw [writtenIDs_snoc, mem_append, not_or]
  refine ⟨unwritten_before h hguard hs hd hrow, ?_⟩
  intro hnow
  obtain ⟨d₀, conn, msg, rest, send, -, hid, hbefore, hafter⟩ :=
    of_writtenID h.own hs (mem_toList.mp hnow)
  have hstarted : x' ≠ .start := by
    rintro rfl
    cases hrow
  obtain rfl := alone_step h hguard hs hd hafter hstarted nofun
  cases hd.symm.trans hafter
  have hnodup := h.nodup_pending d _ hbefore
  exact (nodup_cons.mp hnodup).1 (hid ▸ mem_map_of_mem hrow)

theorem deleting_step (hrow : row ∈ s'.queue.rows)
    (hwritten : row.id ∈ writtenIDs recipientAddr (evs ++ [e])) :
    ∃ d conn rest, s'.tasks d = .draining recipientAddr (.delete conn row rest) := by
  rw [writtenIDs_snoc, mem_append] at hwritten
  rcases hs.row_after hrow with hold | ⟨hnew, g, rfl⟩
  · rcases hwritten with hbefore | hnow
    · obtain ⟨d, conn, rest, hd⟩ := h.deleting row hold hbefore
      rcases hs.drain_before hd with ⟨hsame, -⟩ | ⟨x', -, hmove⟩
      · exact ⟨d, conn, rest, hsame⟩
      · cases hmove with
        | step _ _ _ hstep =>
          cases hstep with
          | deleteFailed => exact absurd hd (hguard _)
        | deleted => exact absurd rfl (hs.ne_of_deleted hrow)
    · obtain ⟨d, conn, msg, rest, send, -, hid, hbefore, hafter⟩ :=
        of_writtenID h.own hs (mem_toList.mp hnow)
      have hown := h.own d _ _ hbefore msg mem_cons_self
      obtain rfl := hown.same row hold hid.symm
      exact ⟨d, conn, rest, hafter⟩
  · rcases hwritten with hbefore | hnow
    · exact absurd hnew (h.id_lt _ hbefore).ne
    · cases hnow

end

omit [DecidableEq ι] in
theorem writtenOnce_init (recipientAddr : Address) (queue : Queue) (now : ℤ) :
    WrittenOnce recipientAddr ([] : List (RelayEvent ι)) (init queue now) where
  own := drainsOwn_init queue now
  nodup := nodup_nil
  id_lt := by
    intro id hid
    cases hid
  alone := by
    intro d d' x x' hd
    cases hd
  nodup_pending := by
    intro d x hd
    cases hd
  unwritten := by
    intro d x hd
    cases hd
  deleting := by
    intro row _ hid
    cases hid

theorem writtenOnce_step (h : WrittenOnce recipientAddr evs s)
    (hguard : DeliversAlone recipientAddr evs s e) (hs : Step attached s e s') :
    WrittenOnce recipientAddr (evs ++ [e]) s' where
  own := drainsOwn_step h.own hs
  nodup := by
    rw [writtenIDs_snoc]
    cases hid : e.writtenID? recipientAddr with
    | none => simpa using h.nodup
    | some id =>
      obtain ⟨d, conn, msg, rest, send, -, rfl, hbefore, -⟩ := of_writtenID h.own hs hid
      rw [toList_some, nodup_append_comm, singleton_append, nodup_cons]
      exact ⟨h.unwritten d _ hbefore msg mem_cons_self, h.nodup⟩
  id_lt := by
    intro id hid
    rw [writtenIDs_snoc, mem_append] at hid
    refine lt_of_lt_of_le ?_ hs.nextID_le
    rcases hid with hbefore | hnow
    · exact h.id_lt id hbefore
    · obtain ⟨d, conn, msg, rest, send, -, rfl, hbefore, -⟩ :=
        of_writtenID h.own hs (mem_toList.mp hnow)
      exact (h.own d _ _ hbefore msg mem_cons_self).id_lt
  alone := fun _ _ _ _ hd hd' hx hx' => alone_step h hguard hs hd hd' hx hx'
  nodup_pending := fun _ _ hd => nodup_pending_step h hs hd
  unwritten := fun _ _ hd _ hrow => unwritten_step h hguard hs hd hrow
  deleting := fun _ hrow hwritten => deleting_step h hguard hs hrow hwritten

end

/-- If the deliveries for a recipient read the queue one after the other and their deletions
succeed, each message queued for it is written at most once, whichever writes fail. -/
theorem queued_written_once {queue : Queue} {now : ℤ} {evs : List (RelayEvent ι)} {s : Relay ι}
    (hrun : Run (Step attached) (init queue now) evs s) {recipientAddr : Address}
    (halone : Guarded (Step attached) (init queue now) (DeliversAlone recipientAddr) evs) :
    (writtenIDs recipientAddr evs).Nodup := by
  have hinv : WrittenOnce recipientAddr evs s :=
    Run.guarded_invariant (writtenOnce_init recipientAddr queue now)
      (fun _ _ _ _ h hguard hs => writtenOnce_step h hguard hs) hrun halone
  exact hinv.nodup

/-! ## Two handshakes in a row -/

/-- The user makes another handshake after the first delivery. -/
def laterEvents : List (RelayEvent Three) :=
  deliveredEvents ++ [.deleted .two sampleRow] ++
    greetEvents .one .three samplePeer sampleAckPayload (zero 16) ++ [.fetched .three []]

theorem queued_written_once_later : ∃ s : Relay Three,
    Run (Step true) (init sampleQueue 0) laterEvents s ∧
    writtenIDs samplePeer laterEvents = [sampleRow.id] ∧
    (writtenIDs samplePeer laterEvents).Nodup := by
  have hgreeted := (delivered_run.snoc
    (.deleted _ Three.two samplePeer .one sampleRow [] rfl)).append
      (greeted_run (c := Three.one) (d := Three.three) rfl rfl samplePeer sampleAckPayload
        (zero 16))
  have hrun : Run (Step true) (init sampleQueue 0) laterEvents _ :=
    hgreeted.snoc (.fetched _ Three.three samplePeer [] rfl ⟨[], .refl _, .nil, nil_prefix⟩)
  refine ⟨_, hrun, rfl, queued_written_once hrun ?_⟩
  have halone : DeliversAlone samplePeer userEvents userGreeted (.fetched .two [sampleRow]) := by
    intro _ d x hd
    cases d with
    | one => cases hd
    | two => cases hd; rfl
    | three => cases hd
  have hfirst : Guarded (Step true) (init sampleQueue 0) (DeliversAlone samplePeer)
      ([] ++ userEvents) :=
    Guarded.nil.append_of_free _
      (by simp [userEvents, greetEvents, ackEvents, DeliversAlone])
  have hfetched := hfirst.snoc_of_run (fun _ _ _ _ h₁ h₂ => h₁.unique h₂) userGreeted_run halone
  have hsecond := ((hfetched.append_of_free (sampleWriteEvents .two)
    (by simp [sampleWriteEvents, writeEvents, DeliversAlone])).append_of_free
      [.deleted .two sampleRow] (by simp [DeliversAlone])).append_of_free
        (greetEvents .one .three samplePeer sampleAckPayload (zero 16))
          (by simp [greetEvents, ackEvents, DeliversAlone])
  refine hsecond.snoc_of_run (fun _ _ _ _ h₁ h₂ => h₁.unique h₂) hgreeted ?_
  intro _ d x hd
  cases d with
  | one => cases hd
  | two => cases hd
  | three => cases hd; rfl

/-- The user makes another handshake before the first delivery has written anything. -/
def twiceEvents : List (RelayEvent Three) :=
  userEvents ++ [.fetched .two [sampleRow]] ++
    greetEvents .one .three samplePeer sampleAckPayload (zero 16) ++
    [.fetched .three [sampleRow]] ++ sampleWriteEvents .two ++ sampleWriteEvents .three

/-- Both deliveries write the message to the user. -/
theorem queued_written_twice : ∃ s : Relay Three,
    Run (Step true) (init sampleQueue 0) twiceEvents s ∧
    writtenIDs samplePeer twiceEvents = [sampleRow.id, sampleRow.id] ∧
    ¬ (writtenIDs samplePeer twiceEvents).Nodup := by
  have hread := userGreeted_run.snoc
    (.fetched _ Three.two samplePeer [sampleRow] rfl sampleQueue_isResult)
  have hgreeted := hread.append (greeted_run (c := Three.one) (d := Three.three) rfl rfl
    samplePeer sampleAckPayload (zero 16))
  have hread' := hgreeted.snoc
    (.fetched _ Three.three samplePeer [sampleRow] rfl sampleQueue_isResult)
  have hrun : Run (Step true) (init sampleQueue 0) twiceEvents _ :=
    (hread'.append (written_run (d := Three.two) rfl rfl (zero 16))).append
      (written_run (d := Three.three) rfl rfl (zero 16))
  exact ⟨_, hrun, rfl, by decide⟩

end Zentalk
