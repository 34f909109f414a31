import Zentalk.Network.Dispatch
import Zentalk.Storage.MessageDb

/-!
# Read receipts

The last receipt decides, so the status may go back (`receipts_last`).
-/

namespace Zentalk

open Wire Decimal List ByteArr MessageRow MessageDB

/-! ## The status of a message -/

/-- What the statement of `UpdateMessageStatus` does to a row. -/
def MessageRow.setStatus (messageID : Bytes) (status : MessageStatus) (row : MessageRow) :
    MessageRow :=
  if row.messageID = messageID then { row with status := status } else row

@[simp] theorem MessageRow.setStatus_id (messageID : Bytes) (status : MessageStatus)
    (row : MessageRow) : (row.setStatus messageID status).id = row.id := by
  rw [setStatus]
  split
  · rfl
  · rfl

@[simp] theorem MessageRow.setStatus_messageID (messageID : Bytes) (status : MessageStatus)
    (row : MessageRow) : (row.setStatus messageID status).messageID = row.messageID := by
  rw [setStatus]
  split
  · rfl
  · rfl

namespace MessageDB

/-- `UpdateMessageStatus`; the database may fail. -/
def updateMessageStatus (db : MessageDB) (messageID : Bytes) (status : MessageStatus)
    (execErr : Option String) : MessageDB × Option String :=
  match execErr with
  | some e => (db, some e)
  | none =>
    ({ db with
        messages := db.messages.map (MessageRow.setStatus messageID status)
        id_lt := by
          intro row hrow
          obtain ⟨old, hold, rfl⟩ := mem_map.mp hrow
          rw [MessageRow.setStatus_id]
          exact db.id_lt old hold
        nodup_messageID := by
          have hsame : MessageRow.messageID ∘ MessageRow.setStatus messageID status =
              MessageRow.messageID := funext fun row => row.setStatus_messageID messageID status
          rw [map_map, hsame]
          exact db.nodup_messageID }, none)

/-- The status of a message. -/
def statusOf (db : MessageDB) (messageID : ByteArr 16) : Option MessageStatus :=
  (db.messages.find? fun row => row.messageID = hexText messageID.bytes).map MessageRow.status

end MessageDB

/-- The `status` of a receipt; a receipt of another kind leaves the zero value. -/
def receiptStatus (readStatus : UInt8) : MessageStatus :=
  if readStatus = 0 then .delivered
  else if readStatus = 1 then .read
  else if readStatus = 2 then .read
  else .unset

/-- What `handleDirectMessage` does to the database for a plaintext that is not a message. -/
def MessageDB.takePlaintext (self : Address) (db : MessageDB)
    (taken : Bytes × Option String) : MessageDB :=
  match dispatch self taken.1 with
  | some (.receipt receipt) =>
    -- an error is logged
    (db.updateMessageStatus (hexText receipt.messageID.bytes) (receiptStatus receipt.readStatus)
      taken.2).1
  | _ => db

def receiptFor (self : Address) (messageID : ByteArr 16) (taken : Bytes × Option String) :
    Option UInt8 :=
  match dispatch self taken.1, taken.2 with
  | some (.receipt receipt), none =>
    if receipt.messageID = messageID then some receipt.readStatus else none
  | _, _ => none

/-- The receipts for the message, in the order in which they are processed. -/
def receiptsFor (self : Address) (messageID : ByteArr 16) (taken : List (Bytes × Option String)) :
    List UInt8 :=
  taken.filterMap (receiptFor self messageID)

/-- How far a message has come. -/
def MessageStatus.rank : MessageStatus → ℕ
  | sent => 1
  | delivered => 2
  | read => 3
  | _ => 0

/-- The most advanced status among `sent` and those of the receipts. -/
def MostAdvanced (status : MessageStatus) (received : List UInt8) : Prop :=
  status ∈ .sent :: received.map receiptStatus ∧
    ∀ other ∈ .sent :: received.map receiptStatus, other.rank ≤ status.rank

def UpToDate (self : Address) (db : MessageDB) (messageID : ByteArr 16)
    (taken : List (Bytes × Option String)) : Prop :=
  ∃ status, (taken.foldl (MessageDB.takePlaintext self) db).statusOf messageID = some status ∧
    MostAdvanced status (receiptsFor self messageID taken)

/-! ## Receipts in some order -/

section

variable {self : Address} {db : MessageDB} {messageID : ByteArr 16}
  {plaintext : Bytes × Option String} {taken : List (Bytes × Option String)}
  {status : MessageStatus} {received : List UInt8} {readStatus : UInt8}

theorem statusOf_updateMessageStatus (id : ByteArr 16) :
    (db.updateMessageStatus (hexText id.bytes) status none).1.statusOf messageID =
      if id = messageID then (db.statusOf messageID).map fun _ => status
      else db.statusOf messageID := by
  have hsame : (fun row : MessageRow => decide (row.messageID = hexText messageID.bytes)) ∘
      setStatus (hexText id.bytes) status =
      fun row => decide (row.messageID = hexText messageID.bytes) := by
    funext row
    rw [Function.comp_apply, setStatus_messageID]
  rw [statusOf, statusOf, updateMessageStatus]
  rw [find?_map, hsame]
  cases hfind : db.messages.find? fun row => decide (row.messageID = hexText messageID.bytes) with
  | none => simp
  | some row =>
    have hid : row.messageID = hexText messageID.bytes := by
      simpa using find?_some hfind
    have hiff : row.messageID = hexText id.bytes ↔ id = messageID := by
      rw [hid]
      exact ⟨fun h => (ByteArr.ext (hexText_inj h)).symm, fun h => by rw [h]⟩
    rw [Option.map_some, Option.map_some, Option.map_some, Option.map_some, setStatus]
    simp only [hiff]
    split
    · rfl
    · rfl

theorem statusOf_takePlaintext (h : db.statusOf messageID = some status) :
    (db.takePlaintext self plaintext).statusOf messageID =
      some (((receiptFor self messageID plaintext).map receiptStatus).getD status) := by
  obtain ⟨bytes, execErr⟩ := plaintext
  rw [takePlaintext, receiptFor]
  dsimp only
  match dispatch self bytes, execErr with
  | some (.receipt receipt), none =>
    dsimp only
    rw [statusOf_updateMessageStatus, h]
    split
    · rfl
    · rfl
  | some (.receipt _), some _ => exact h
  | some (.direct _), _ => exact h
  | some (.group _), _ => exact h
  | some (.profile _), _ => exact h
  | some (.typing _), _ => exact h
  | none, _ => exact h

theorem receiptsFor_concat_none (h : receiptFor self messageID plaintext = none) :
    receiptsFor self messageID (taken ++ [plaintext]) = receiptsFor self messageID taken := by
  simp [receiptsFor, h]

theorem receiptsFor_concat_some (h : receiptFor self messageID plaintext = some readStatus) :
    receiptsFor self messageID (taken ++ [plaintext]) =
      receiptsFor self messageID taken ++ [readStatus] := by
  simp [receiptsFor, h]

/-- The last receipt decides. -/
theorem statusOf_foldl (h : db.statusOf messageID = some status) :
    (taken.foldl (MessageDB.takePlaintext self) db).statusOf messageID =
      some (((receiptsFor self messageID taken).getLast?.map receiptStatus).getD status) := by
  induction taken using reverseRecOn with
  | nil => exact h
  | append_singleton rest plaintext ih =>
    rw [foldl_append, foldl_cons, foldl_nil, statusOf_takePlaintext ih]
    cases hreceipt : receiptFor self messageID plaintext with
    | none =>
      rw [receiptsFor_concat_none hreceipt]
      rfl
    | some readStatus =>
      rw [receiptsFor_concat_some hreceipt, getLast?_concat]
      rfl

theorem rank_receiptStatus (h : readStatus ≤ 2) :
    (receiptStatus readStatus).rank = if readStatus = 0 then 2 else 3 := by
  have hle := UInt8.le_iff_toNat_le.mp h
  obtain rfl | rfl | rfl : readStatus = 0 ∨ readStatus = 1 ∨ readStatus = 2 := by
    simp only [← UInt8.toNat_inj] at hle ⊢
    simp at hle ⊢
    omega
  · rfl
  · rfl
  · rfl

theorem mostAdvanced_concat_iff (h : ∀ s ∈ received ++ [readStatus], s ≤ 2) :
    MostAdvanced (receiptStatus readStatus) (received ++ [readStatus]) ↔
      ∀ s ∈ received, s ≠ 0 → readStatus ≠ 0 := by
  have hlast := rank_receiptStatus (h readStatus (by simp))
  constructor
  · rintro ⟨-, hmax⟩ s hs hne hzero
    have hmem : s ∈ received ++ [readStatus] := mem_append_left _ hs
    have hle := hmax (receiptStatus s) (mem_cons_of_mem _ (mem_map_of_mem hmem))
    rw [rank_receiptStatus (h s hmem), if_neg hne, hlast, if_pos hzero] at hle
    omega
  · intro hafter
    refine ⟨by simp, fun other hother => ?_⟩
    rw [hlast]
    rcases mem_cons.mp hother with rfl | hother
    · rw [MessageStatus.rank]
      split <;> omega
    · obtain ⟨s, hs, rfl⟩ := mem_map.mp hother
      rw [rank_receiptStatus (h s hs)]
      rcases mem_append.mp hs with hold | hnew
      · have := hafter s hold
        grind
      · rw [mem_singleton.mp hnew]

theorem upToDate_iff (hsent : db.statusOf messageID = some .sent) :
    UpToDate self db messageID taken ↔
      MostAdvanced (((receiptsFor self messageID taken).getLast?.map receiptStatus).getD .sent)
        (receiptsFor self messageID taken) := by
  rw [UpToDate, statusOf_foldl hsent]
  constructor
  · rintro ⟨status, hstatus, hmost⟩
    rw [Option.some.inj hstatus]
    exact hmost
  · intro hmost
    exact ⟨_, rfl, hmost⟩

theorem always_upToDate_iff (hsent : db.statusOf messageID = some .sent)
    (h : ∀ s ∈ receiptsFor self messageID taken, s ≤ 2) :
    (∀ processed, processed <+: taken → UpToDate self db messageID processed) ↔
      (receiptsFor self messageID taken).Pairwise fun s s' => s ≠ 0 → s' ≠ 0 := by
  induction taken using reverseRecOn with
  | nil =>
    refine iff_of_true (fun processed hprocessed => ?_) Pairwise.nil
    rw [prefix_nil.mp hprocessed]
    exact ⟨.sent, hsent, by simp [MostAdvanced, receiptsFor]⟩
  | append_singleton rest plaintext ih =>
    have hsplit : (∀ processed, processed <+: rest ++ [plaintext] →
        UpToDate self db messageID processed) ↔
        UpToDate self db messageID (rest ++ [plaintext]) ∧
          ∀ processed, processed <+: rest → UpToDate self db messageID processed := by
      simp [prefix_concat_iff, or_imp, forall_and]
    rw [hsplit, upToDate_iff hsent]
    cases hreceipt : receiptFor self messageID plaintext with
    | none =>
      rw [receiptsFor_concat_none hreceipt] at h ⊢
      rw [← upToDate_iff hsent, ← ih h]
      exact and_iff_right_of_imp fun hall => hall rest prefix_rfl
    | some readStatus =>
      rw [receiptsFor_concat_some hreceipt] at h ⊢
      rw [getLast?_concat, Option.map_some, Option.getD_some, mostAdvanced_concat_iff h,
        ih fun s hs => h s (mem_append_left _ hs), pairwise_append, and_comm]
      simp

end

/-- The status of an outgoing message is that of the last receipt for it. It is the most advanced
one at all times exactly if no receipt for the delivery comes after one for the reading. -/
theorem receipts_last (self : Address) (db : MessageDB) (messageID : ByteArr 16)
    (taken : List (Bytes × Option String)) (hsent : db.statusOf messageID = some .sent)
    (hknown : ∀ s ∈ receiptsFor self messageID taken, s ≤ 2) :
    (taken.foldl (MessageDB.takePlaintext self) db).statusOf messageID =
        some (((receiptsFor self messageID taken).getLast?.map receiptStatus).getD .sent) ∧
      ((∀ processed, processed <+: taken → UpToDate self db messageID processed) ↔
        (receiptsFor self messageID taken).Pairwise fun s s' => s ≠ 0 → s' ≠ 0) :=
  ⟨statusOf_foldl hsent, always_upToDate_iff hsent hknown⟩

/-- An outgoing message with the ID 0. -/
def oneSent : MessageDB :=
  (MessageDB.empty (zero 32)).insert
    { id := 1, conversationID := [], messageID := hexText (zero 16).bytes
      fromAddress := [], toAddress := [], content := [], contentType := 0, timestamp := 0
      status := .sent, isOutgoing := 1, meshChunkID := 0, encryptionKey := none, replyToID := []
      createdAt := 0 } rfl (by simp [MessageDB.empty])

theorem oneSent_statusOf : oneSent.statusOf (zero 16) = some .sent := by
  simp [oneSent, MessageDB.insert, MessageDB.empty, MessageDB.statusOf]

/-- A receipt for it. -/
def receiptOf (readStatus : UInt8) : ReadReceipt where
  fromAddr := zero 20
  toAddr := zero 20
  messageID := zero 16
  timestamp := 0
  readStatus := readStatus

/-- Receipts for it that the database takes. -/
def receiptsOf (statuses : List UInt8) : List (Bytes × Option String) :=
  statuses.map fun s => ((receiptOf s).encode, none)

theorem receiptsFor_receiptsOf (statuses : List UInt8) :
    receiptsFor (zero 20) (zero 16) (receiptsOf statuses) = statuses := by
  have hone : (receiptFor (zero 20) (zero 16) ∘ fun s => ((receiptOf s).encode, none)) = some := by
    funext s
    have hown : dispatch (zero 20) (receiptOf s).encode = some (.receipt (receiptOf s)) :=
      receipt_unmistaken rfl
    rw [Function.comp_apply, receiptFor, hown]
    exact if_pos rfl
  rw [receiptsFor, receiptsOf, filterMap_map, hone, filterMap_some]

/-- A delivery, then a reading. -/
theorem receipts_last_in_order :
    ((receiptsOf [0, 1]).foldl (MessageDB.takePlaintext (zero 20)) oneSent).statusOf
        (zero 16) = some .read ∧
      ∀ processed, processed <+: receiptsOf [0, 1] →
        UpToDate (zero 20) oneSent (zero 16) processed := by
  have hreceived := receiptsFor_receiptsOf [0, 1]
  obtain ⟨hlast, hall⟩ := receipts_last (zero 20) oneSent (zero 16)
    (receiptsOf [0, 1]) oneSent_statusOf (by simp [hreceived])
  exact ⟨hlast, hall.mpr (by decide)⟩

/-- A reading, then a delivery: the status goes back to `delivered`. -/
theorem receipts_back :
    ((receiptsOf [1]).foldl (MessageDB.takePlaintext (zero 20)) oneSent).statusOf
        (zero 16) = some .read ∧
      ((receiptsOf [1, 0]).foldl (MessageDB.takePlaintext (zero 20)) oneSent).statusOf
        (zero 16) = some .delivered ∧
      ¬ UpToDate (zero 20) oneSent (zero 16) (receiptsOf [1, 0]) := by
  refine ⟨?_, ?_, ?_⟩
  · rfl
  · rfl
  · rw [upToDate_iff oneSent_statusOf, receiptsFor_receiptsOf]
    rintro ⟨-, hmax⟩
    exact absurd (hmax .read (by decide)) (by decide)

end Zentalk
