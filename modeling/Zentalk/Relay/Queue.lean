import Zentalk.Network.RelayWrites

/-!
# The relay's queue for offline recipients

Every row has a new ID (`AUTOINCREMENT`) and its own message ID (`UNIQUE`). Not
all of its times are rounded (`storedRow_eq_iff`).
-/

namespace Zentalk

open Wire List ByteArr

structure QueuedMessage where
  id : ℕ
  recipientAddr : Address
  messageID : ByteArr 16
  encryptedPayload : Payload
  timestamp : ℤ
  expiresAt : ℤ

/-- `bucketTimestamp`. Go's division rounds towards zero. -/
def bucketTimestamp (timestamp : ℤ) : ℤ := timestamp.tdiv 3600 * 3600

/-- `RelayMessageQueue`: the table, the ID that the next row gets, and the time-to-live in
seconds. -/
structure Queue where
  rows : List QueuedMessage
  nextID : ℕ
  ttl : ℤ
  id_lt : ∀ row ∈ rows, row.id < nextID
  nodup_id : (rows.map QueuedMessage.id).Nodup
  nodup_messageID : (rows.map QueuedMessage.messageID).Nodup

namespace Queue

def empty (ttl : ℤ) : Queue := ⟨[], 1, ttl, by simp, by simp, by simp⟩

variable (q : Queue)

variable {row : QueuedMessage} {recipientAddr : Address} {now : ℤ}

theorem eq_of_id_eq {row' : QueuedMessage} (h : row ∈ q.rows) (h' : row' ∈ q.rows)
    (heq : row.id = row'.id) : row = row' :=
  inj_on_of_nodup_map q.nodup_id h h' heq

/-! ## QueueMessage -/

def newRow (now : ℤ) (recipientAddr : Address) (messageID : ByteArr 16)
    (encryptedPayload : Payload) : QueuedMessage :=
  { id := q.nextID
    recipientAddr := recipientAddr
    messageID := messageID
    encryptedPayload := encryptedPayload
    timestamp := bucketTimestamp now
    expiresAt := now + q.ttl }

/-- Insert a row with the next ID and a new message ID. -/
def insert (row : QueuedMessage) (hid : row.id = q.nextID)
    (hnew : row.messageID ∉ q.rows.map QueuedMessage.messageID) : Queue where
  rows := q.rows ++ [row]
  nextID := q.nextID + 1
  ttl := q.ttl
  id_lt := by
    intro row' hmem
    rcases mem_append.mp hmem with hold | hlast
    · exact (q.id_lt row' hold).trans (Nat.lt_succ_self _)
    · rw [mem_singleton.mp hlast, hid]
      exact Nat.lt_succ_self _
  nodup_id := by
    rw [map_append, map_singleton, nodup_append_comm]
    refine nodup_cons.mpr ⟨?_, q.nodup_id⟩
    intro hmem
    obtain ⟨row', hrow', heq⟩ := mem_map.mp hmem
    exact (q.id_lt row' hrow').ne (heq.trans hid)
  nodup_messageID := by
    rw [map_append, map_singleton, nodup_append_comm]
    exact nodup_cons.mpr ⟨hnew, q.nodup_messageID⟩

/-- `QueueMessage`, when the database does not fail otherwise. -/
def queueMessage (now : ℤ) (recipientAddr : Address) (messageID : ByteArr 16)
    (encryptedPayload : Payload) : Except String Queue :=
  if hnew : messageID ∉ q.rows.map QueuedMessage.messageID then
    .ok (q.insert (q.newRow now recipientAddr messageID encryptedPayload) rfl hnew)
  else .error ("failed to queue message: " ++
    "UNIQUE constraint failed: queued_messages.message_id")

variable {q} in
theorem queueMessage_ok {messageID : ByteArr 16} {encryptedPayload : Payload} {q' : Queue}
    (h : q.queueMessage now recipientAddr messageID encryptedPayload = .ok q') :
    ∃ hnew, q' = q.insert (q.newRow now recipientAddr messageID encryptedPayload) rfl hnew := by
  unfold queueMessage at h
  split at h
  · next hnew =>
    cases h
    exact ⟨hnew, rfl⟩
  · cases h

/-! ## The stored row -/

/-- The Unix time of an instant in nanoseconds, `time.Now().Unix()` or `strftime('%s', 'now')`. -/
def unix (instant : ℤ) : ℤ := instant / 1000000000

def clockHour (instant : ℤ) : ℤ := unix instant / 3600

/-- The two instants at which the clock is read for a row: by `QueueMessage`, and by the database
for the default of `created_at`. -/
structure QueueClock where
  now : ℤ
  inserted : ℤ

/-- A row with all columns of `queued_messages`. -/
structure StoredRow extends QueuedMessage where
  attempts : ℤ
  createdAt : ℤ

/-- The row that `QueueMessage` leaves in the table; `none` when the database rejects it. -/
def storedRow (clock : QueueClock) (recipientAddr : Address) (messageID : ByteArr 16)
    (encryptedPayload : Payload) : Option StoredRow :=
  if messageID ∉ q.rows.map QueuedMessage.messageID then
    some
      { q.newRow (unix clock.now) recipientAddr messageID encryptedPayload with
        attempts := 0
        createdAt := unix clock.inserted }
  else none

variable {q} in
/-- The row is the one that `QueueMessage` inserts. -/
theorem rows_queueMessage {clock : QueueClock} {messageID : ByteArr 16} {encryptedPayload : Payload}
    {q' : Queue}
    (h : q.queueMessage (unix clock.now) recipientAddr messageID encryptedPayload = .ok q') :
    ∃ row, q.storedRow clock recipientAddr messageID encryptedPayload = some row ∧
      q'.rows = q.rows ++ [row.toQueuedMessage] := by
  obtain ⟨hnew, rfl⟩ := queueMessage_ok h
  exact ⟨_, if_pos hnew, rfl⟩

/-- Two calls of `QueueMessage` that differ in the time only leave the same row exactly if the table
has the message ID already, or the readings of the clock fall into the same seconds: `expires_at`
and `created_at` are not rounded. -/
theorem storedRow_eq_iff (clock clock' : QueueClock) (recipientAddr : Address)
    (messageID : ByteArr 16) (encryptedPayload : Payload) :
    q.storedRow clock recipientAddr messageID encryptedPayload =
        q.storedRow clock' recipientAddr messageID encryptedPayload ↔
      messageID ∈ q.rows.map QueuedMessage.messageID ∨
        unix clock.now = unix clock'.now ∧ unix clock.inserted = unix clock'.inserted := by
  unfold storedRow
  by_cases hnew : messageID ∉ q.rows.map QueuedMessage.messageID
  · rw [if_pos hnew, if_pos hnew, or_iff_right hnew]
    constructor
    · intro heq
      have hrow := Option.some.inj heq
      have hexpires : unix clock.now + q.ttl = unix clock'.now + q.ttl :=
        congrArg (fun row : StoredRow => row.expiresAt) hrow
      have hcreated : unix clock.inserted = unix clock'.inserted :=
        congrArg StoredRow.createdAt hrow
      exact ⟨by omega, hcreated⟩
    · rintro ⟨hnow, hinserted⟩
      rw [hnow, hinserted]
  · rw [if_neg hnew, if_neg hnew]
    exact iff_of_true rfl (.inl (Classical.not_not.mp hnew))

/-- A message that is queued at the start of an hour, and one second later. -/
theorem queue_time_leaks :
    clockHour 0 = clockHour 1000000000 ∧
    (empty (30 * 24 * 3600)).storedRow ⟨0, 0⟩ (zero 20) (zero 16)
        ⟨[7], by decide⟩ ≠
      (empty (30 * 24 * 3600)).storedRow ⟨1000000000, 1000000000⟩ (zero 20)
        (zero 16) ⟨[7], by decide⟩ := by
  refine ⟨by decide, fun heq => ?_⟩
  have hexpires := congrArg (Option.map fun row : StoredRow => row.expiresAt) heq
  exact absurd hexpires (by decide)

/-! ## GetQueuedMessages -/

/-- The rows that `GetQueuedMessages` selects. -/
def selected (now : ℤ) (recipientAddr : Address) : List QueuedMessage :=
  q.rows.filter fun row => row.recipientAddr = recipientAddr ∧ row.expiresAt > now

theorem mem_selected :
    row ∈ q.selected now recipientAddr ↔
      row ∈ q.rows ∧ row.recipientAddr = recipientAddr ∧ row.expiresAt > now := by
  simp [selected]

/-- The selected rows in an order of the timestamps, or the beginning of such a list when reading
the rows fails in between, since `rows.Err()` is not looked at. -/
def IsResult (now : ℤ) (recipientAddr : Address) (messages : List QueuedMessage) : Prop :=
  ∃ all : List QueuedMessage, all.Perm (q.selected now recipientAddr) ∧
    all.Pairwise (fun row row' => row.timestamp ≤ row'.timestamp) ∧ messages <+: all

def IsComplete (now : ℤ) (recipientAddr : Address) (messages : List QueuedMessage) : Prop :=
  ∀ row ∈ q.selected now recipientAddr, row ∈ messages

variable {messages : List QueuedMessage}

variable {q} in
theorem IsResult.mem_selected (h : q.IsResult now recipientAddr messages) (hrow : row ∈ messages) :
    row ∈ q.selected now recipientAddr := by
  obtain ⟨all, hperm, -, hpart⟩ := h
  exact hperm.mem_iff.mp (hpart.subset hrow)

variable {q} in
theorem IsResult.nodup_id (h : q.IsResult now recipientAddr messages) :
    (messages.map QueuedMessage.id).Nodup := by
  obtain ⟨all, hperm, -, hpart⟩ := h
  have hselected : ((q.selected now recipientAddr).map QueuedMessage.id).Nodup :=
    q.nodup_id.sublist (filter_sublist.map _)
  exact ((hperm.map _).nodup_iff.mpr hselected).sublist (hpart.sublist.map _)

/-! ## Deletions -/

/-- Delete the rows that `p` does not hold of. -/
def keep (p : QueuedMessage → Bool) : Queue where
  rows := q.rows.filter p
  nextID := q.nextID
  ttl := q.ttl
  id_lt := fun row hmem => q.id_lt row (mem_of_mem_filter hmem)
  nodup_id := q.nodup_id.sublist (filter_sublist.map _)
  nodup_messageID := q.nodup_messageID.sublist (filter_sublist.map _)

def deleteMessage (messageID : ByteArr 16) : Queue := q.keep fun row => row.messageID ≠ messageID

/-- One pass of `cleanupExpiredMessages`. -/
def cleanup (now : ℤ) : Queue := q.keep fun row => ¬ row.expiresAt ≤ now

theorem mem_deleteMessage {messageID : ByteArr 16} :
    row ∈ (q.deleteMessage messageID).rows ↔ row ∈ q.rows ∧ row.messageID ≠ messageID := by
  simp [deleteMessage, keep]

theorem mem_cleanup : row ∈ (q.cleanup now).rows ↔ row ∈ q.rows ∧ now < row.expiresAt := by
  simp [cleanup, keep]

end Queue

end Zentalk
