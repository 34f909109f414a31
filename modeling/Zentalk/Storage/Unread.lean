import Zentalk.Lib.Run
import Zentalk.Relay.Routing
import Zentalk.Storage.MessageDb

/-!
# The number of unread messages

A message that opens a conversation is not counted (`unreadCount_iff`).
-/

namespace Zentalk

open Wire Runs List Finmap MessageDB

/-- `MarkConversationRead`; the database may fail. -/
def MessageDB.markConversationRead (db : MessageDB) (conversationID : Bytes)
    (execErr : Option String) : MessageDB × Option String :=
  match execErr, db.conversations.lookup conversationID with
  | some e, _ => (db, some e)
  | none, none => (db, none)
  | none, some row =>
    ({ db with
        conversations := db.conversations.insert conversationID { row with unreadCount := 0 } },
      none)

/-- What a call did. -/
inductive DbEvent
  | saved (msg : StoredMessage)
  | marked (conversationID : Bytes)
  | failed

inductive DbStep (S : OnionSuite) (db : MessageDB) : DbEvent → MessageDB → Prop
  | save {msg env id} (h : (db.saveMessage S msg env).2 = .ok id) :
      DbStep S db (.saved msg) (db.saveMessage S msg env).1
  | saveFailed {msg env e} (h : (db.saveMessage S msg env).2 = .error e) :
      DbStep S db .failed (db.saveMessage S msg env).1
  | mark (conversationID) :
      DbStep S db (.marked conversationID) (db.markConversationRead conversationID none).1
  | markFailed (conversationID e) :
      DbStep S db .failed (db.markConversationRead conversationID (some e)).1

namespace DbEvent

/-- The event is a message of the conversation. -/
def Of (id : Bytes) : DbEvent → Prop
  | saved msg => msg.conversationID = id
  | _ => False

/-- The event is an incoming message of the conversation. -/
def isIncoming (id : Bytes) : DbEvent → Bool
  | saved msg => decide (msg.conversationID = id) && !msg.isOutgoing
  | _ => false

def isMark (id : Bytes) : DbEvent → Bool
  | marked conversationID => decide (conversationID = id)
  | _ => false

end DbEvent

/-- The number of incoming messages since the conversation was marked as read. -/
def unread (id : Bytes) (evs : List DbEvent) : ℕ :=
  (evs.reverse.takeWhile fun ev => !ev.isMark id).countP (DbEvent.isIncoming id)

/-- The first message of the conversation is incoming and still unread. -/
def OpensUnread (id : Bytes) (evs : List DbEvent) : Prop :=
  ∃ pre ev post, evs = pre ++ ev :: post ∧ ev.isIncoming id ∧ (∀ ev ∈ pre, ¬ ev.Of id) ∧
    ∀ ev ∈ post, ¬ ev.isMark id

section

variable {S : OnionSuite} {id : Bytes} {evs : List DbEvent} {ev : DbEvent} {db db' : MessageDB}
  {msg : StoredMessage} {env : SaveEnv}

theorem unread_concat (id : Bytes) (evs : List DbEvent) (ev : DbEvent) :
    unread id (evs ++ [ev]) =
      if ev.isMark id then 0 else unread id evs + if ev.isIncoming id then 1 else 0 := by
  rw [unread, reverse_append, reverse_singleton, singleton_append, takeWhile_cons]
  cases ev.isMark id with
  | true => rfl
  | false => exact countP_cons

theorem opensUnread_concat :
    OpensUnread id (evs ++ [ev]) ↔
      OpensUnread id evs ∧ ¬ ev.isMark id ∨ ev.isIncoming id ∧ ∀ ev ∈ evs, ¬ ev.Of id := by
  constructor
  · rintro ⟨pre, first, post, heq, hin, hpre, hpost⟩
    rcases eq_nil_or_concat post with rfl | ⟨post, last, rfl⟩
    · obtain ⟨rfl, hlast⟩ := append_inj' heq rfl
      cases hlast
      exact .inr ⟨hin, hpre⟩
    · rw [concat_eq_append, ← cons_append, ← append_assoc] at heq
      obtain ⟨rfl, hlast⟩ := append_inj' heq rfl
      cases hlast
      simp only [concat_eq_append, forall_mem_append, forall_mem_singleton] at hpost
      exact .inl ⟨⟨pre, first, post, rfl, hin, hpre, hpost.1⟩, hpost.2⟩
  · rintro (⟨⟨pre, first, post, rfl, hin, hpre, hpost⟩, hmark⟩ | ⟨hin, hpre⟩)
    · refine ⟨pre, first, post ++ [ev], by simp, hin, hpre, ?_⟩
      simpa [or_imp, forall_and, hmark] using hpost
    · exact ⟨evs, ev, [], rfl, hin, hpre, by simp⟩

/-- A call of `SaveMessage` that fails leaves the conversations; one that succeeds inserted the
message and updated its conversation. -/
theorem saveMessage_cases (S : OnionSuite) (db : MessageDB) (msg : StoredMessage) (env : SaveEnv) :
    (∃ e, (db.saveMessage S msg env).2 = .error e ∧
      (db.saveMessage S msg env).1.conversations = db.conversations) ∨
    ∃ n, (db.saveMessage S msg env).2 = .ok n ∧ Inserts db.messages msg env ∧
      env.updateErr = none := by
  unfold saveMessage
  rw [aesEncrypt_key32]
  cases hcontent : env.contentNonce with
  | error e => exact .inl ⟨_, rfl, rfl⟩
  | ok nonce =>
    cases hkey : db.encryptMeshKey S msg env with
    | error e => exact .inl ⟨_, rfl, rfl⟩
    | ok key =>
      dsimp only [Except.map]
      cases hexec : db.execInsert msg env
          (nonce.bytes ++ S.gcmSeal nonce msg.content db.encryptionKey.bytes) key with
      | error e => exact .inl ⟨_, rfl, rfl⟩
      | ok db' =>
        obtain ⟨hchunk, hinsert, hnew⟩ := new_of_execInsert hexec
        cases hupdate : env.updateErr with
        | some e =>
          rw [execInsert_ok _ _ hchunk hinsert hnew] at hexec
          cases hexec
          exact .inl ⟨_, rfl, rfl⟩
        | none =>
          have hnonce : env.contentNonce.isOk := by rw [hcontent]; rfl
          exact .inr ⟨_, rfl, ⟨hnonce, keyNonce_isOk hkey, hchunk, hinsert, hnew⟩, rfl⟩

theorem messages_saveMessage (S : OnionSuite) (db : MessageDB) (msg : StoredMessage)
    (env : SaveEnv) : db.messages ⊆ (db.saveMessage S msg env).1.messages := by
  by_cases h : Inserts db.messages msg env
  · obtain ⟨nonce, key, -, -, hmessages, -⟩ := saveMessage_inserted h
    rw [hmessages]
    exact subset_append_left _ _
  · rw [saveMessage_rejected h]
    exact List.Subset.refl _

/-- The row of a conversation after the events, `none` if there is none. -/
def Shows (id : Bytes) (evs : List DbEvent) (messages : List MessageRow) :
    Option Conversation → Prop
  | none => ∀ ev ∈ evs, ¬ ev.Of id
  | some row =>
    (∃ ev ∈ evs, ev.Of id) ∧
    (∃ m ∈ messages.map MessageRow.messageID, row.lastMessageID = some m) ∧
    (OpensUnread id evs → row.unreadCount + 1 = unread id evs) ∧
    (¬ OpensUnread id evs → row.unreadCount = unread id evs)

theorem not_isIncoming (h : ¬ ev.Of id) : ev.isIncoming id = false := by
  cases ev with
  | saved msg =>
    have hne : msg.conversationID ≠ id := h
    simp [DbEvent.isIncoming, hne]
  | marked => rfl
  | failed => rfl

variable {messages messages' : List MessageRow}

/-- Events of other conversations do not matter. -/
theorem Shows.frame {row : Option Conversation} (h : Shows id evs messages row)
    (hmessages : messages ⊆ messages') (hof : ¬ ev.Of id) (hmark : ev.isMark id = false) :
    Shows id (evs ++ [ev]) messages' row := by
  have hopens : OpensUnread id (evs ++ [ev]) ↔ OpensUnread id evs := by
    simp [opensUnread_concat, hmark, not_isIncoming hof]
  have hunread : unread id (evs ++ [ev]) = unread id evs := by
    simp [unread_concat, hmark, not_isIncoming hof]
  cases row with
  | none =>
    intro ev' hev
    rcases mem_append.mp hev with hold | hnew
    · exact h ev' hold
    · rwa [mem_singleton.mp hnew]
  | some row =>
    obtain ⟨⟨first, hfirst, hfirstOf⟩, ⟨m, hm, hlast⟩, hmissed, hexact⟩ := h
    refine ⟨⟨first, mem_append_left _ hfirst, hfirstOf⟩,
      ⟨m, map_subset _ hmessages hm, hlast⟩, ?_, ?_⟩
    · rwa [hopens, hunread]
    · rwa [hopens, hunread]

/-- The message that opens a conversation is not counted; the others are. -/
theorem Shows.save {old : Option Conversation} (h : Shows msg.conversationID evs messages old)
    (hnew : msg.messageID ∉ messages.map MessageRow.messageID)
    (hmem : msg.messageID ∈ messages'.map MessageRow.messageID) (text : Bytes) :
    Shows msg.conversationID (evs ++ [.saved msg]) messages' (conversationRow old msg text) := by
  have hin : (DbEvent.saved msg).isIncoming msg.conversationID = !msg.isOutgoing := by
    simp [DbEvent.isIncoming]
  have hunread : unread msg.conversationID (evs ++ [.saved msg]) =
      unread msg.conversationID evs + if msg.isOutgoing then 0 else 1 := by
    rw [unread_concat, hin]
    cases msg.isOutgoing <;> rfl
  refine ⟨⟨.saved msg, by simp, rfl⟩, ⟨msg.messageID, hmem, by cases old <;> rfl⟩, ?_⟩
  cases old with
  | none =>
    have hnone : unread msg.conversationID evs = 0 := by
      refine countP_eq_zero.mpr fun ev hev => ?_
      rw [not_isIncoming (h ev (mem_reverse.mp (takeWhile_subset _ hev)))]
      exact Bool.false_ne_true
    have hopens : OpensUnread msg.conversationID (evs ++ [.saved msg]) ↔
        msg.isOutgoing = false := by
      rw [opensUnread_concat, hin]
      constructor
      · rintro (⟨⟨pre, first, post, rfl, hfirst, -⟩, -⟩ | ⟨hin, -⟩)
        · rw [not_isIncoming (h first (by simp))] at hfirst
          cases hfirst
        · simpa using hin
      · intro hout
        exact .inr ⟨by simp [hout], h⟩
    rw [hopens, hunread, hnone]
    cases msg.isOutgoing <;> simp [conversationRow]
  | some row =>
    obtain ⟨⟨first, hfirst, hfirstOf⟩, ⟨m, hm, hlast⟩, hmissed, hexact⟩ := h
    have hopens : OpensUnread msg.conversationID (evs ++ [.saved msg]) ↔
        OpensUnread msg.conversationID evs := by
      have hsome : ¬ ∀ ev ∈ evs, ¬ ev.Of msg.conversationID := fun hall =>
        hall first hfirst hfirstOf
      simp [opensUnread_concat, hsome, DbEvent.isMark]
    have hcount : (conversationRow (some row) msg text).unreadCount =
        row.unreadCount + if msg.isOutgoing then 0 else 1 := by
      have hne : msg.messageID ≠ m := fun heq => hnew (heq ▸ hm)
      cases hout : msg.isOutgoing <;> simp [conversationRow, hlast, hne, hout, boolToInt]
    rw [hopens, hunread, hcount]
    push_cast
    exact ⟨fun hopens => by have := hmissed hopens; split <;> omega,
      fun hopens => by have := hexact hopens; split <;> omega⟩

/-- After a mark, nothing is unread. -/
theorem Shows.mark {messages : List MessageRow} {row : Conversation}
    (h : Shows id evs messages (some row)) :
    Shows id (evs ++ [.marked id]) messages (some { row with unreadCount := 0 }) := by
  obtain ⟨⟨first, hfirst, hfirstOf⟩, hlast, -, -⟩ := h
  have hopens : ¬ OpensUnread id (evs ++ [.marked id]) := by
    simp [opensUnread_concat, DbEvent.isMark, DbEvent.isIncoming]
  refine ⟨⟨first, mem_append_left _ hfirst, hfirstOf⟩, hlast, fun h => absurd h hopens, ?_⟩
  simp [unread_concat, DbEvent.isMark]

theorem shows_step (h : ∀ id, Shows id evs db.messages (db.conversations.lookup id))
    (hstep : DbStep S db ev db') (id : Bytes) :
    Shows id (evs ++ [ev]) db'.messages (db'.conversations.lookup id) := by
  cases hstep with
  | @save msg env n hok =>
    obtain ⟨e, herr, -⟩ | ⟨-, -, hins, hupdate⟩ := saveMessage_cases S db msg env
    · rw [hok] at herr
      cases herr
    obtain ⟨nonce, key, -, -, hmessages, -, -, hconversations⟩ := saveMessage_inserted hins
    rw [if_pos hupdate] at hconversations
    rw [hconversations]
    by_cases heq : id = msg.conversationID
    · subst heq
      rw [lookup_insert]
      refine (h msg.conversationID).save hins.2.2.2.2 ?_ _
      simp [hmessages, messageRow]
    · rw [lookup_insert_of_ne _ heq]
      exact (h id).frame (messages_saveMessage S db msg env) (Ne.symm heq) rfl
  | @saveFailed msg env e herr =>
    obtain ⟨-, -, hconversations⟩ | ⟨n, hok, -⟩ := saveMessage_cases S db msg env
    · rw [hconversations]
      exact (h id).frame (messages_saveMessage S db msg env) not_false rfl
    · rw [hok] at herr
      cases herr
  | mark conversationID =>
    unfold markConversationRead
    by_cases heq : id = conversationID
    · subst heq
      have hid := h id
      cases hrow : db.conversations.lookup id with
      | none =>
        rw [hrow] at hid
        dsimp only
        rw [hrow]
        intro ev hev
        rcases mem_append.mp hev with hold | hnew
        · exact hid ev hold
        · rw [mem_singleton.mp hnew]
          exact not_false
      | some row =>
        rw [hrow] at hid
        dsimp only
        rw [lookup_insert]
        exact hid.mark
    · have hmark : (DbEvent.marked conversationID).isMark id = false := by
        simp [DbEvent.isMark, Ne.symm heq]
      have hof : ¬ (DbEvent.marked conversationID).Of id := not_false
      have hframe := (h id).frame (List.Subset.refl _) hof hmark
      cases hrow : db.conversations.lookup conversationID with
      | none => exact hframe
      | some row =>
        dsimp only
        rwa [lookup_insert_of_ne _ heq]
  | markFailed conversationID e => exact (h id).frame (List.Subset.refl _) not_false rfl

end

/-- A conversation has a row once a message of it was saved. The number of unread messages in the
row is right, unless the message that opened the conversation is itself unread. -/
theorem unreadCount_iff {S : OnionSuite} {key : ByteArr 32} {evs : List DbEvent} {db : MessageDB}
    (hrun : Run (DbStep S) (MessageDB.empty key) evs db) (id : Bytes) :
    (db.conversations.lookup id = none ↔ ∀ ev ∈ evs, ¬ ev.Of id) ∧
      ∀ row, db.conversations.lookup id = some row →
        (row.unreadCount = unread id evs ↔ ¬ OpensUnread id evs) := by
  have hshows := hrun.trace_invariant
    (I := fun evs db => ∀ id, Shows id evs db.messages (db.conversations.lookup id))
    (by simp [empty, Shows]) (fun _ _ _ _ h hstep => shows_step h hstep) id
  cases hrow : db.conversations.lookup id with
  | none =>
    rw [hrow] at hshows
    exact ⟨iff_of_true rfl hshows, fun row h => by cases h⟩
  | some row =>
    rw [hrow] at hshows
    obtain ⟨⟨first, hfirst, hfirstOf⟩, -, hmissed, hexact⟩ := hshows
    refine ⟨iff_of_false (by simp) fun hnone => hnone first hfirst hfirstOf, fun row' h => ?_⟩
    cases h
    refine ⟨fun heq hopens => ?_, hexact⟩
    have := hmissed hopens
    omega

/-- An incoming message. -/
def openingMessage : StoredMessage where
  conversationID := []
  messageID := [1]
  fromAddress := []
  toAddress := []
  content := []
  contentType := 1
  timestamp := 0
  status := .delivered
  isOutgoing := false
  meshChunkID := 0
  encryptionKey := []
  replyToID := []

/-- The message is the first of its conversation. -/
def openedDb : MessageDB :=
  ((MessageDB.empty (ByteArr.zero 32)).saveMessage tagSuite openingMessage quietEnv).1

theorem openedDb_run :
    Run (DbStep tagSuite) (MessageDB.empty (ByteArr.zero 32)) [.saved openingMessage] openedDb :=
  Run.nil.snoc (.save rfl)

/-- The conversation is marked as read, and another message comes in. -/
theorem unreadCount_marked : ∃ evs db row,
    Run (DbStep tagSuite) (MessageDB.empty (ByteArr.zero 32)) evs db ∧
      db.conversations.lookup [] = some row ∧ unread [] evs = 1 ∧ row.unreadCount = 1 := by
  let db := (openedDb.markConversationRead [] none).1
  have hsave : DbStep tagSuite db (.saved { openingMessage with messageID := [2] })
      (db.saveMessage tagSuite _ quietEnv).1 := .save rfl
  have hrun := (openedDb_run.snoc (.mark [])).snoc hsave
  refine ⟨_, _, _, hrun, rfl, rfl, ((unreadCount_iff hrun []).2 _ rfl).mpr ?_⟩
  rintro ⟨_ | ⟨e, pre⟩, ev, post, heq, -, hpre, hpost⟩
  · cases heq
    exact hpost (.marked []) mem_cons_self rfl
  · refine hpre e mem_cons_self ?_
    rw [← (cons.inj heq).1]
    rfl

/-- One incoming message was saved and nothing was marked as read, but the conversation shows no
unread message. -/
theorem unreadCount_missed :
    Run (DbStep tagSuite) (MessageDB.empty (ByteArr.zero 32)) [.saved openingMessage] openedDb ∧
      (openedDb.conversations.lookup []).map Conversation.unreadCount = some 0 ∧
      unread [] [.saved openingMessage] = 1 :=
  ⟨openedDb_run, rfl, rfl⟩

end Zentalk
