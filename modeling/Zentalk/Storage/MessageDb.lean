import Mathlib.Data.Finmap
import Zentalk.Lib.Decimal
import Zentalk.Relay.Onion

/-!
# The local message database

A `MessageDB` carries what `AUTOINCREMENT` and `UNIQUE` guarantee (`saveMessage_inserted`). Foreign
keys are off.
-/

namespace Zentalk

open Wire List

/-- `MessageStatus`; `unset` is the empty string. -/
inductive MessageStatus where
  | sending
  | sent
  | delivered
  | read
  | failed
  | unset
deriving DecidableEq

/-- `StoredMessage`, without the ID that the database gives it. -/
structure StoredMessage where
  conversationID : Bytes
  messageID : Bytes
  fromAddress : Bytes
  toAddress : Bytes
  content : Bytes
  contentType : UInt8
  timestamp : Int64
  status : MessageStatus
  isOutgoing : Bool
  meshChunkID : UInt64
  encryptionKey : Bytes
  replyToID : Bytes

/-- A row of `messages`. -/
structure MessageRow where
  id : ℕ
  conversationID : Bytes
  messageID : Bytes
  fromAddress : Bytes
  toAddress : Bytes
  content : Bytes
  contentType : UInt8
  timestamp : Int64
  status : MessageStatus
  isOutgoing : ℤ
  meshChunkID : UInt64
  /-- `none` is `NULL`. -/
  encryptionKey : Option Bytes
  replyToID : Bytes
  createdAt : ℤ
deriving DecidableEq

/-- A row of `conversations`, without the ID that it is found under. -/
structure Conversation where
  contactAddress : Bytes
  lastMessageID : Option Bytes
  lastMessage : Option Bytes
  lastTimestamp : Option Int64
  unreadCount : ℤ
  isMuted : ℤ
  isPinned : ℤ
deriving DecidableEq

/-- `MessageDB`: the key that encrypts, and the tables. -/
structure MessageDB where
  encryptionKey : ByteArr 32
  messages : List MessageRow
  nextID : ℕ
  conversations : Finmap fun _ : Bytes => Conversation
  id_lt : ∀ row ∈ messages, row.id < nextID
  nodup_messageID : (messages.map MessageRow.messageID).Nodup

/-- What the source of randomness and the database answer during one `SaveMessage`. -/
structure SaveEnv where
  contentNonce : Except String (ByteArr 12)
  keyNonce : Except String (ByteArr 12)
  /-- A failure of the insertion other than those the model decides. -/
  insertErr : Option String
  /-- A failure of the update of the conversation. -/
  updateErr : Option String
  /-- `strftime('%s', 'now')`. -/
  now : ℤ

/-! ## The model -/

def boolToInt (b : Bool) : ℤ := if b then 1 else 0

def getOtherParty (msg : StoredMessage) : Bytes :=
  if msg.isOutgoing then msg.toAddress else msg.fromAddress

/-- The text of a message that its conversation shows. -/
def preview (content : Bytes) : Bytes :=
  if content.length > 100 then content.take 100 ++ asciiBytes "..." else content

/-- The row that `updateConversation` leaves for the conversation of a message. -/
def conversationRow (old : Option Conversation) (msg : StoredMessage) (lastMessage : Bytes) :
    Conversation :=
  match old with
  | none =>
    { contactAddress := getOtherParty msg
      lastMessageID := some msg.messageID
      lastMessage := some lastMessage
      lastTimestamp := some msg.timestamp
      unreadCount := 0
      isMuted := 0
      isPinned := 0 }
  | some row =>
    { row with
      lastMessageID := some msg.messageID
      lastMessage := some lastMessage
      lastTimestamp := some msg.timestamp
      -- a comparison with `NULL` is not true
      unreadCount :=
        if row.lastMessageID.any (fun id => msg.messageID ≠ id) ∧ boolToInt msg.isOutgoing = 0
        then row.unreadCount + 1 else row.unreadCount }

/-- `updateConversation`, when the database does not fail. -/
def MessageDB.updateConversation (db : MessageDB) (msg : StoredMessage) : MessageDB :=
  { db with
    conversations := db.conversations.insert msg.conversationID
      (conversationRow (db.conversations.lookup msg.conversationID) msg (preview msg.content)) }

def messageRow (id : ℕ) (msg : StoredMessage) (now : ℤ) (encryptedContent : Bytes)
    (encryptedMeshKey : Option Bytes) : MessageRow where
  id := id
  conversationID := msg.conversationID
  messageID := msg.messageID
  fromAddress := msg.fromAddress
  toAddress := msg.toAddress
  content := encryptedContent
  contentType := msg.contentType
  timestamp := msg.timestamp
  status := msg.status
  isOutgoing := boolToInt msg.isOutgoing
  meshChunkID := msg.meshChunkID
  encryptionKey := encryptedMeshKey
  replyToID := msg.replyToID
  createdAt := now

/-- An environment in which nothing fails. -/
def quietEnv : SaveEnv := ⟨.ok (ByteArr.zero 12), .ok (ByteArr.zero 12), none, none, 0⟩

namespace MessageDB

variable (S : OnionSuite) (db : MessageDB) (msg : StoredMessage) (env : SaveEnv)

def empty (encryptionKey : ByteArr 32) : MessageDB :=
  ⟨encryptionKey, [], 1, ∅, by simp, by simp⟩

/-- Insert a row with the next ID and a new message ID. -/
def insert (row : MessageRow) (hid : row.id = db.nextID)
    (hnew : row.messageID ∉ db.messages.map MessageRow.messageID) : MessageDB :=
  { db with
    messages := db.messages ++ [row]
    nextID := db.nextID + 1
    id_lt := by
      intro row' hmem
      rcases mem_append.mp hmem with hold | hlast
      · exact (db.id_lt row' hold).trans (Nat.lt_succ_self _)
      · rw [mem_singleton.mp hlast, hid]
        exact Nat.lt_succ_self _
    nodup_messageID := by
      rw [map_append, map_singleton, nodup_append_comm]
      exact nodup_cons.mpr ⟨hnew, db.nodup_messageID⟩ }

/-- The statement that inserts a message. `database/sql` takes no number from 2^63 on. -/
def execInsert (encryptedContent : Bytes) (encryptedMeshKey : Option Bytes) :
    Except String MessageDB :=
  if 2 ^ 63 ≤ msg.meshChunkID.toNat then
    .error ("sql: converting argument $10 type: " ++
      "uint64 values with high bit set are not supported")
  else
    match env.insertErr with
    | some e => .error e
    | none =>
      if hnew : msg.messageID ∉ db.messages.map MessageRow.messageID then
        .ok (db.insert (messageRow db.nextID msg env.now encryptedContent encryptedMeshKey) rfl
          hnew)
      else .error "UNIQUE constraint failed: messages.message_id"

def encryptMeshKey : Except String (Option Bytes) :=
  if msg.encryptionKey.length > 0 then
    (aesEncrypt S env.keyNonce msg.encryptionKey db.encryptionKey.bytes).map some
  else .ok none

/-- `SaveMessage`: the database after it, and the ID of the message or the error. -/
def saveMessage : MessageDB × Except String ℕ :=
  match aesEncrypt S env.contentNonce msg.content db.encryptionKey.bytes with
  | .error e => (db, .error ("failed to encrypt content: " ++ e))
  | .ok encryptedContent =>
    match db.encryptMeshKey S msg env with
    | .error e => (db, .error ("failed to encrypt mesh key: " ++ e))
    | .ok encryptedMeshKey =>
      match db.execInsert msg env encryptedContent encryptedMeshKey with
      | .error e => (db, .error ("failed to save message: " ++ e))
      | .ok db' =>
        match env.updateErr with
        | some e => (db', .error ("failed to update conversation: " ++ e))
        | none => (db'.updateConversation msg, .ok db.nextID)

end MessageDB

/-! ## What is written -/

/-- The message can be encrypted, its numbers fit, the database does not fail and the message ID is
new. -/
def Inserts (messages : List MessageRow) (msg : StoredMessage) (env : SaveEnv) : Prop :=
  env.contentNonce.isOk ∧ (0 < msg.encryptionKey.length → env.keyNonce.isOk) ∧
    msg.meshChunkID.toNat < 2 ^ 63 ∧ env.insertErr = none ∧
    msg.messageID ∉ messages.map MessageRow.messageID

instance (messages : List MessageRow) (msg : StoredMessage) (env : SaveEnv) :
    Decidable (Inserts messages msg env) :=
  inferInstanceAs (Decidable (_ ∧ _))

section

variable {S : OnionSuite} {db : MessageDB} {msg : StoredMessage} {env : SaveEnv}

/-- With a key of 32 bytes only the source of randomness fails. -/
theorem aesEncrypt_key32 (rand : Except String (ByteArr 12)) (plaintext : Bytes)
    (key : ByteArr 32) :
    aesEncrypt S rand plaintext key.bytes =
      rand.map fun nonce => nonce.bytes ++ S.gcmSeal nonce plaintext key.bytes := by
  rw [aesEncrypt, newCipher_ok]
  cases rand <;> rfl

variable (S db) in
theorem encryptMeshKey_ok (h : 0 < msg.encryptionKey.length → env.keyNonce.isOk) :
    ∃ key, db.encryptMeshKey S msg env = .ok key ∧ (key = none ↔ msg.encryptionKey = []) := by
  unfold MessageDB.encryptMeshKey
  split
  · next hpos =>
    have hok := h hpos
    rw [aesEncrypt_key32]
    cases hnonce : env.keyNonce with
    | error e => rw [hnonce] at hok; cases hok
    | ok nonce => exact ⟨_, rfl, by simpa using ne_nil_of_length_pos hpos⟩
  · next hnil => exact ⟨none, rfl, by simpa using hnil⟩

theorem keyNonce_isOk {key : Option Bytes} (h : db.encryptMeshKey S msg env = .ok key)
    (hpos : 0 < msg.encryptionKey.length) : env.keyNonce.isOk := by
  rw [MessageDB.encryptMeshKey, if_pos hpos, aesEncrypt_key32] at h
  cases hnonce : env.keyNonce with
  | error e => rw [hnonce] at h; cases h
  | ok nonce => rfl

theorem execInsert_ok (content : Bytes) (key : Option Bytes)
    (hchunk : msg.meshChunkID.toNat < 2 ^ 63) (hinsert : env.insertErr = none)
    (hnew : msg.messageID ∉ db.messages.map MessageRow.messageID) :
    db.execInsert msg env content key =
      .ok (db.insert (messageRow db.nextID msg env.now content key) rfl hnew) := by
  rw [MessageDB.execInsert, if_neg (not_le.mpr hchunk), hinsert]
  exact dif_pos hnew

theorem new_of_execInsert {content : Bytes} {key : Option Bytes} {db' : MessageDB}
    (h : db.execInsert msg env content key = .ok db') :
    msg.meshChunkID.toNat < 2 ^ 63 ∧ env.insertErr = none ∧
      msg.messageID ∉ db.messages.map MessageRow.messageID := by
  unfold MessageDB.execInsert at h
  split at h
  · cases h
  · next hchunk =>
    split at h
    · cases h
    · next hinsert =>
      split at h
      · next hnew => exact ⟨not_le.mp hchunk, hinsert, hnew⟩
      · cases h

theorem saveMessage_rejected (h : ¬ Inserts db.messages msg env) :
    (db.saveMessage S msg env).1 = db := by
  unfold MessageDB.saveMessage
  rw [aesEncrypt_key32]
  cases hcontent : env.contentNonce with
  | error e => rfl
  | ok nonce =>
    cases hkey : db.encryptMeshKey S msg env with
    | error e => rfl
    | ok key =>
      dsimp only [Except.map]
      cases hexec : db.execInsert msg env
          (nonce.bytes ++ S.gcmSeal nonce msg.content db.encryptionKey.bytes) key with
      | error e => rfl
      | ok db' =>
        exact absurd ⟨by rw [hcontent]; rfl, keyNonce_isOk hkey, new_of_execInsert hexec⟩ h

theorem saveMessage_inserted (h : Inserts db.messages msg env) :
    ∃ nonce key, env.contentNonce = .ok nonce ∧ (key = none ↔ msg.encryptionKey = []) ∧
      (db.saveMessage S msg env).1.messages = db.messages ++ [messageRow db.nextID msg env.now
        (nonce.bytes ++ S.gcmSeal nonce msg.content db.encryptionKey.bytes) key] ∧
      (db.saveMessage S msg env).1.nextID = db.nextID + 1 ∧
      (db.saveMessage S msg env).1.encryptionKey = db.encryptionKey ∧
      (db.saveMessage S msg env).1.conversations =
        if env.updateErr = none then db.conversations.insert msg.conversationID
          (conversationRow (db.conversations.lookup msg.conversationID) msg (preview msg.content))
        else db.conversations := by
  obtain ⟨hcontent, hmesh, hchunk, hinsert, hnew⟩ := h
  obtain ⟨key, hkey, hnull⟩ := encryptMeshKey_ok S db hmesh
  cases hnonce : env.contentNonce with
  | error e => rw [hnonce] at hcontent; cases hcontent
  | ok nonce =>
    refine ⟨nonce, key, rfl, hnull, ?_⟩
    unfold MessageDB.saveMessage
    rw [aesEncrypt_key32, hnonce, hkey]
    dsimp only [Except.map]
    rw [execInsert_ok _ _ hchunk hinsert hnew]
    cases env.updateErr with
    | some e => exact ⟨rfl, rfl, rfl, rfl⟩
    | none => exact ⟨rfl, rfl, rfl, rfl⟩

end

end Zentalk
