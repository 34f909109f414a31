import Zentalk.Relay.Routing
import Zentalk.Storage.MessageDb

/-!
# What the database shows without its key

`Outside` is what the database holds outside the encrypted blobs (`outside_eq_iff`).
-/

namespace Zentalk

open Wire List MessageRow

variable {S : OnionSuite}

/-! ## The outside -/

/-- A row without its blobs. It still tells whether there is a mesh key. -/
def MessageRow.outside (row : MessageRow) : MessageRow :=
  { row with content := [], encryptionKey := row.encryptionKey.map fun _ => [] }

/-- What a database holds outside the encrypted blobs. -/
structure Outside where
  messages : List MessageRow
  nextID : ℕ
  conversations : Finmap fun _ : Bytes => Conversation
deriving DecidableEq

def MessageDB.outside (db : MessageDB) : Outside :=
  ⟨db.messages.map MessageRow.outside, db.nextID, db.conversations⟩

/-- A message without its content and the bytes of its mesh key. -/
def StoredMessage.header (msg : StoredMessage) : StoredMessage :=
  { msg with content := [], encryptionKey := List.replicate msg.encryptionKey.length 0 }

/-- A save of a message whose conversation comes to show a text. -/
def Outside.save (o : Outside) (msg : StoredMessage) (lastMessage : Bytes) (env : SaveEnv) :
    Outside :=
  if Inserts o.messages msg env then
    { messages := o.messages ++
        [messageRow o.nextID msg env.now [] (if msg.encryptionKey = [] then none else some [])]
      nextID := o.nextID + 1
      conversations :=
        if env.updateErr = none then o.conversations.insert msg.conversationID
          (conversationRow (o.conversations.lookup msg.conversationID) msg lastMessage)
        else o.conversations }
  else o

variable {msg : StoredMessage} {messages : List MessageRow}

@[simp] theorem inserts_header {env : SaveEnv} :
    Inserts messages msg.header env ↔ Inserts messages msg env := by
  simp [Inserts, StoredMessage.header]

@[simp] theorem inserts_outside {env : SaveEnv} :
    Inserts (messages.map MessageRow.outside) msg env ↔ Inserts messages msg env := by
  have hids : (messages.map outside).map messageID =
      messages.map messageID := by
    rw [map_map]
    rfl
  rw [Inserts, hids, Inserts]

theorem outside_messageRow {id : ℕ} {now : ℤ} {content : Bytes} {key : Option Bytes}
    (hnull : key = none ↔ msg.encryptionKey = []) :
    (messageRow id msg now content key).outside =
      messageRow id msg.header now []
        (if msg.header.encryptionKey = [] then none else some []) := by
  have hheader : msg.header.encryptionKey = [] ↔ key = none := by
    rw [hnull]
    simp [StoredMessage.header]
  cases key with
  | none => rw [if_pos (hheader.mpr rfl)]; rfl
  | some k => rw [if_neg (by simp [hheader])]; rfl

theorem outside_saveMessage (db : MessageDB) (msg : StoredMessage) (env : SaveEnv) :
    (db.saveMessage S msg env).1.outside =
      db.outside.save msg.header (preview msg.content) env := by
  by_cases h : Inserts db.messages msg env
  · have h' : Inserts db.outside.messages msg.header env :=
      inserts_header.mpr (inserts_outside.mpr h)
    obtain ⟨nonce, key, -, hnull, hmessages, hnext, -, hconv⟩ := saveMessage_inserted h
    rw [Outside.save, if_pos h', MessageDB.outside, hmessages, hnext, hconv, map_append,
      map_singleton, outside_messageRow hnull]
    rfl
  · have h' : ¬ Inserts db.outside.messages msg.header env :=
      fun h' => h (inserts_outside.mp (inserts_header.mp h'))
    rw [saveMessage_rejected h, Outside.save, if_neg h']

/-! ## Two runs -/

/-- A call of `SaveMessage` in two runs: the second has another content and another mesh key, of
the same lengths. -/
structure SavePair where
  msg : StoredMessage
  content : Bytes
  encryptionKey : Bytes
  env : SaveEnv
  content_length : content.length = msg.content.length
  encryptionKey_length : encryptionKey.length = msg.encryptionKey.length

namespace SavePair

def left (p : SavePair) : StoredMessage × SaveEnv := (p.msg, p.env)

def right (p : SavePair) : StoredMessage × SaveEnv :=
  ({ p.msg with content := p.content, encryptionKey := p.encryptionKey }, p.env)

theorem header_right (p : SavePair) : p.right.1.header = p.msg.header := by
  simp [right, StoredMessage.header, p.encryptionKey_length]

end SavePair

variable (S) in
def MessageDB.saveAll (db : MessageDB) (calls : List (StoredMessage × SaveEnv)) : MessageDB :=
  calls.foldl (fun db call => (db.saveMessage S call.1 call.2).1) db

/-- The conversation of a message comes to show it. -/
def MessageDB.Shows (db : MessageDB) (msg : StoredMessage) (env : SaveEnv) : Prop :=
  Inserts db.messages msg env ∧ env.updateErr = none

theorem preview_eq_iff {content content' : Bytes} (h : content.length = content'.length) :
    preview content = preview content' ↔ content.take 100 = content'.take 100 := by
  unfold preview
  rw [h]
  split
  · exact append_left_inj _
  · next hle =>
    rw [take_of_length_le (by omega), take_of_length_le (by omega)]

theorem lastMessage_conversationRow (old : Option Conversation) (msg : StoredMessage)
    (lastMessage : Bytes) :
    (conversationRow old msg lastMessage).lastMessage = some lastMessage := by
  cases old <;> rfl

/-- The shown text is all that a save tells of the content. -/
theorem save_eq_iff (o : Outside) (msg : StoredMessage) (env : SaveEnv) (shown shown' : Bytes) :
    o.save msg shown env = o.save msg shown' env ↔
      (Inserts o.messages msg env ∧ env.updateErr = none → shown = shown') := by
  constructor
  · rintro heq ⟨hins, hupdate⟩
    have hconv := congrArg (fun o => (o.conversations.lookup msg.conversationID).bind
      Conversation.lastMessage) heq
    simpa [Outside.save, hins, hupdate, lastMessage_conversationRow] using hconv
  · intro h
    unfold Outside.save
    split
    · next hins =>
      by_cases hupdate : env.updateErr = none
      · rw [h ⟨hins, hupdate⟩]
      · rw [if_neg hupdate, if_neg hupdate]
    · rfl

/-- One call in two runs that look the same before it. -/
theorem outside_step_iff {db db' : MessageDB} (h : db.outside = db'.outside) (p : SavePair) :
    (db.saveMessage S p.left.1 p.left.2).1.outside =
        (db'.saveMessage S p.right.1 p.right.2).1.outside ↔
      (db.Shows p.msg p.env → p.msg.content.take 100 = p.content.take 100) := by
  rw [outside_saveMessage, outside_saveMessage, p.header_right, ← h]
  refine (save_eq_iff _ _ _ _ _).trans (imp_congr (and_congr_left' ?_) ?_)
  · exact inserts_header.trans inserts_outside
  · exact preview_eq_iff p.content_length.symm

/-- The two runs look the same after every call exactly if the messages shown agree in their first
100 bytes. -/
theorem outside_eq_iff (db : MessageDB) (pairs : List SavePair) :
    (∀ pre post, pairs = pre ++ post →
      (db.saveAll S (pre.map SavePair.left)).outside =
        (db.saveAll S (pre.map SavePair.right)).outside) ↔
    ∀ pre p post, pairs = pre ++ p :: post →
      (db.saveAll S (pre.map SavePair.left)).Shows p.msg p.env →
        p.msg.content.take 100 = p.content.take 100 := by
  have hsnoc pre (p : SavePair) (side : SavePair → StoredMessage × SaveEnv) :
      db.saveAll S ((pre ++ [p]).map side) =
        ((db.saveAll S (pre.map side)).saveMessage S (side p).1 (side p).2).1 := by
    rw [MessageDB.saveAll, map_append, foldl_append]
    rfl
  constructor
  · intro hsame pre p post heq
    have hbefore := hsame pre (p :: post) heq
    have hafter := hsame (pre ++ [p]) post (by simp [heq])
    rw [hsnoc, hsnoc] at hafter
    exact (outside_step_iff hbefore p).mp hafter
  · intro hshown pre
    induction pre using List.reverseRecOn with
    | nil => intro _ _; rfl
    | append_singleton pre p ih =>
      intro post heq
      rw [append_assoc, singleton_append] at heq
      rw [hsnoc, hsnoc]
      exact (outside_step_iff (ih _ heq) p).mpr (hshown pre p post heq)

def samplePair : SavePair where
  msg :=
    { conversationID := asciiBytes "a-b"
      messageID := asciiBytes "b-1"
      fromAddress := asciiBytes "b"
      toAddress := asciiBytes "a"
      content := asciiBytes "yes"
      contentType := 0
      timestamp := 1
      status := .delivered
      isOutgoing := false
      meshChunkID := 0
      encryptionKey := []
      replyToID := [] }
  content := asciiBytes "no!"
  encryptionKey := []
  env := quietEnv
  content_length := by decide
  encryptionKey_length := rfl

theorem preview_leaks :
    ((MessageDB.empty (ByteArr.zero 32)).saveAll tagSuite [samplePair.left]).outside ≠
      ((MessageDB.empty (ByteArr.zero 32)).saveAll tagSuite [samplePair.right]).outside := by
  intro heq
  have hshown : (MessageDB.empty (ByteArr.zero 32)).Shows samplePair.msg samplePair.env :=
    ⟨by decide, rfl⟩
  exact absurd ((outside_step_iff rfl samplePair).mp heq hshown) (by decide)

end Zentalk
