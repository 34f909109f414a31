import Zentalk.Relay.Routing
import Zentalk.Storage.MessageDb

/-!
# Recording of delivered messages

An error of the database is only logged (`recorded_iff`).
-/

namespace Zentalk

open Wire Decimal List ByteArr MessageRow

/-! ## The model -/

def getConversationID (addr1 addr2 : Bytes) : Bytes :=
  if addr1 < addr2 then addr1 ++ asciiBytes "-" ++ addr2 else addr2 ++ asciiBytes "-" ++ addr1

/-- The ID of an incoming message, `"%x-%d"` of its sender and timestamp. -/
def incomingID (msg : DirectMessage) : Bytes :=
  hexText msg.fromAddr.bytes ++ asciiBytes "-" ++ decimal msg.timestamp.toNat

def incomingMessage (address : Address) (msg : DirectMessage) : StoredMessage where
  conversationID :=
    getConversationID (hexText address.bytes) (hexText msg.fromAddr.bytes)
  messageID := incomingID msg
  fromAddress := hexText msg.fromAddr.bytes
  toAddress := hexText msg.toAddr.bytes
  content := msg.content
  contentType := msg.contentType
  timestamp := msg.timestamp.toInt64
  status := .delivered
  isOutgoing := false
  meshChunkID := 0
  encryptionKey := []
  replyToID := []

/-- What `deliverMessage` does: to the database, what it passes to `sendAck`, and what it passes to
`OnMessageReceived`. -/
structure DeliverResult where
  messageDB : Option MessageDB
  acked : Address × ByteArr 16 × UInt64
  received : Option DirectMessage

variable (S : OnionSuite)

/-- `deliverMessage` of the client at `address`. -/
def deliverMessage (address : Address) (onMessageReceived : Bool) (messageDB : Option MessageDB)
    (msg : DirectMessage) (env : SaveEnv) : DeliverResult where
  -- an error of `SaveMessage` is logged
  messageDB := messageDB.map fun db => (db.saveMessage S (incomingMessage address msg) env).1
  acked := (msg.fromAddr, msg.replyTo, msg.sequenceNumber)
  received := if onMessageReceived then some msg else none

def deliverAll (address : Address) (onMessageReceived : Bool) (messageDB : Option MessageDB)
    (deliveries : List (DirectMessage × SaveEnv)) : Option MessageDB :=
  deliveries.foldl
    (fun messageDB d => (deliverMessage S address onMessageReceived messageDB d.1 d.2).messageDB)
    messageDB

/-- The database fails at most for its `UNIQUE` constraint. -/
structure SaveEnv.Sound (env : SaveEnv) : Prop where
  contentNonce : env.contentNonce.isOk
  insertErr : env.insertErr = none

/-- A row records a message: its sender, its content and its timestamp. -/
structure Records (key : ByteArr 32) (msg : DirectMessage) (row : MessageRow) : Prop where
  sender : row.fromAddress = hexText msg.fromAddr.bytes
  content : aesDecrypt S row.content key.bytes = .ok msg.content
  timestamp : row.timestamp.toInt = msg.timestamp.toNat

/-! ## IDs and timestamps -/

theorem incomingID_inj {msg msg' : DirectMessage} :
    incomingID msg = incomingID msg' ↔
      msg.fromAddr = msg'.fromAddr ∧ msg.timestamp = msg'.timestamp := by
  constructor
  · intro h
    have hlen (b : ByteArr 20) : (hexText b.bytes).length = 40 := by
      rw [length_hexText, b.size_eq]
    rw [incomingID, incomingID, append_assoc, append_assoc] at h
    obtain ⟨hfrom, hrest⟩ := append_inj h ((hlen _).trans (hlen _).symm)
    refine ⟨ByteArr.ext (hexText_inj hfrom), ?_⟩
    have htime := decimal_inj (append_cancel_left hrest)
    exact UInt64.toNat_inj.mp (Int.ofNat_inj.mp htime)
  · rintro ⟨hfrom, htime⟩
    rw [incomingID, incomingID, hfrom, htime]

theorem toInt_toInt64 {t : UInt64} : t.toInt64.toInt = t.toNat ↔ t.toNat < 2 ^ 63 := by
  have hlt := t.toNat_lt
  change t.toBitVec.toInt = t.toBitVec.toNat ↔ t.toBitVec.toNat < 2 ^ 63
  rw [BitVec.toInt_eq_toNat_cond]
  split
  · omega
  · omega

/-! ## One delivery -/

variable {S} {address : Address} {db : MessageDB} {msg : DirectMessage} {env : SaveEnv}

/-- The part of `deliverMessage` that is about the database. -/
def MessageDB.record (S : OnionSuite) (address : Address) (db : MessageDB)
    (d : DirectMessage × SaveEnv) : MessageDB :=
  (db.saveMessage S (incomingMessage address d.1) d.2).1

variable (address) in
theorem inserts_incoming (henv : env.Sound) :
    Inserts db.messages (incomingMessage address msg) env ↔
      incomingID msg ∉ db.messages.map MessageRow.messageID := by
  constructor
  · exact fun h => h.2.2.2.2
  · intro hnew
    have hchunk : (0 : UInt64).toNat < 2 ^ 63 := by decide
    exact ⟨henv.contentNonce, fun h => absurd h (Nat.lt_irrefl 0), hchunk, henv.insertErr, hnew⟩

theorem record_known (henv : env.Sound)
    (h : incomingID msg ∈ db.messages.map MessageRow.messageID) :
    db.record S address (msg, env) = db :=
  saveMessage_rejected fun hins => (inserts_incoming address henv).mp hins h

variable (address) in
theorem record_new (hgcm : S.GcmOpens) (henv : env.Sound)
    (h : incomingID msg ∉ db.messages.map MessageRow.messageID) :
    ∃ row, (db.record S address (msg, env)).messages = db.messages ++ [row] ∧
      (db.record S address (msg, env)).encryptionKey = db.encryptionKey ∧
      row.messageID = incomingID msg ∧
      (Records S db.encryptionKey msg row ↔ msg.timestamp.toNat < 2 ^ 63) := by
  obtain ⟨nonce, key, -, -, hmessages, -, hkey, -⟩ :=
    saveMessage_inserted ((inserts_incoming address henv).mpr h)
  refine ⟨_, hmessages, hkey, rfl, ?_⟩
  constructor
  · exact fun hrec => toInt_toInt64.mp hrec.timestamp
  · exact fun hlt => ⟨rfl, aesDecrypt_seal hgcm nonce _ _, toInt_toInt64.mpr hlt⟩

/-! ## A sequence of deliveries -/

theorem deliverAll_some (onMessageReceived : Bool) (db : MessageDB)
    (deliveries : List (DirectMessage × SaveEnv)) :
    deliverAll S address onMessageReceived (some db) deliveries =
      some (deliveries.foldl (MessageDB.record S address) db) := by
  induction deliveries generalizing db with
  | nil => rfl
  | cons d deliveries ih => exact ih (db.record S address d)

variable (address) in
theorem messages_foldl_record (hgcm : S.GcmOpens) {deliveries : List (DirectMessage × SaveEnv)}
    (henv : ∀ d ∈ deliveries, d.2.Sound) (db : MessageDB) :
    ∃ rows, (deliveries.foldl (MessageDB.record S address) db).messages = db.messages ++ rows ∧
      rows.length ≤ deliveries.length := by
  induction deliveries generalizing db with
  | nil => exact ⟨[], (append_nil _).symm, le_rfl⟩
  | cons d deliveries ih =>
    obtain ⟨hd, hrest⟩ := forall_mem_cons.mp henv
    obtain ⟨rows, hrows, hlen⟩ := ih hrest (db.record S address d)
    by_cases hknown : incomingID d.1 ∈ db.messages.map messageID
    · rw [record_known hd hknown] at hrows
      refine ⟨rows, ?_, hlen.trans (Nat.le_succ _)⟩
      rw [foldl_cons, record_known hd hknown, hrows]
    · obtain ⟨row, hrow, -⟩ := record_new address hgcm hd hknown
      refine ⟨row :: rows, ?_, Nat.succ_le_succ hlen⟩
      rw [foldl_cons, hrows, hrow, append_assoc, singleton_append]

theorem forall₂_added_cons {α β : Type} {R : α → β → Prop} {x : α} {xs : List α} {y : β}
    {all old rest : List β} (hall : all = old ++ [y] ++ rest) :
    (∃ ys, all = old ++ ys ∧ Forall₂ R (x :: xs) ys) ↔
      R x y ∧ ∃ ys, all = old ++ [y] ++ ys ∧ Forall₂ R xs ys := by
  simp [hall]

variable (address) in
/-- Every message has its row exactly if all IDs are new, each at its turn, and the timestamps fit.
-/
theorem recorded_foldl_iff (hgcm : S.GcmOpens) {deliveries : List (DirectMessage × SaveEnv)}
    (henv : ∀ d ∈ deliveries, d.2.Sound) (db : MessageDB) :
    (∃ rows, (deliveries.foldl (MessageDB.record S address) db).messages = db.messages ++ rows ∧
      Forall₂ (Records S db.encryptionKey) (deliveries.map Prod.fst) rows) ↔
    (deliveries.map fun d => incomingID d.1).Nodup ∧
      ∀ d ∈ deliveries, incomingID d.1 ∉ db.messages.map MessageRow.messageID ∧
        d.1.timestamp.toNat < 2 ^ 63 := by
  induction deliveries generalizing db with
  | nil => simp
  | cons d deliveries ih =>
    obtain ⟨hd, hrest⟩ := forall_mem_cons.mp henv
    rw [foldl_cons, map_cons, map_cons, nodup_cons, forall_mem_cons]
    by_cases hknown : incomingID d.1 ∈ db.messages.map messageID
    · -- the message is lost, and the others do not add enough rows
      rw [record_known hd hknown]
      constructor
      · rintro ⟨rows, hrows, hrec⟩
        obtain ⟨rows', hrows', hlen⟩ := messages_foldl_record address hgcm hrest db
        obtain rfl := append_cancel_left (hrows.symm.trans hrows')
        have hcount := hrec.length_eq
        rw [length_cons, length_map] at hcount
        omega
      · exact fun h => absurd hknown h.2.1.1
    · obtain ⟨row, hrow, hkey, hid, hfits⟩ := record_new address hgcm hd hknown
      have hih := ih hrest (db.record S address d)
      rw [hkey, hrow] at hih
      obtain ⟨rest, hall, -⟩ := messages_foldl_record address hgcm hrest (db.record S address d)
      rw [hrow] at hall
      have hnew (d' : DirectMessage × SaveEnv) :
          incomingID d'.1 ∉ (db.messages ++ [row]).map messageID ↔
            incomingID d'.1 ∉ db.messages.map messageID ∧
              incomingID d'.1 ≠ incomingID d.1 := by
        rw [map_append, mem_append, not_or, map_singleton, mem_singleton, hid]
      rw [forall₂_added_cons hall, hfits, hih]
      constructor
      · rintro ⟨hfit, hnodup, hothers⟩
        refine ⟨⟨?_, hnodup⟩, ⟨hknown, hfit⟩, ?_⟩
        · intro hmem
          obtain ⟨d', hd', heq⟩ := mem_map.mp hmem
          exact ((hnew d').mp (hothers d' hd').1).2 heq
        · exact fun d' hd' => ⟨((hnew d').mp (hothers d' hd').1).1, (hothers d' hd').2⟩
      · rintro ⟨⟨hfresh, hnodup⟩, ⟨-, hfit⟩, hothers⟩
        refine ⟨hfit, hnodup, fun d' hd' => ⟨(hnew d').mpr ⟨(hothers d' hd').1, ?_⟩, ?_⟩⟩
        · exact fun heq => hfresh (mem_map.mpr ⟨d', hd', heq⟩)
        · exact (hothers d' hd').2

/-- Whether every delivered message has a row of its own. -/
theorem recorded_iff (hgcm : S.GcmOpens) (address : Address) (onMessageReceived : Bool)
    (db : MessageDB) {deliveries : List (DirectMessage × SaveEnv)}
    (henv : ∀ d ∈ deliveries, d.2.Sound) :
    (∃ db' rows, deliverAll S address onMessageReceived (some db) deliveries = some db' ∧
      db'.messages = db.messages ++ rows ∧
      Forall₂ (Records S db.encryptionKey) (deliveries.map Prod.fst) rows) ↔
    (deliveries.map fun d => (d.1.fromAddr, d.1.timestamp)).Nodup ∧
      ∀ d ∈ deliveries, incomingID d.1 ∉ db.messages.map MessageRow.messageID ∧
        d.1.timestamp.toNat < 2 ^ 63 := by
  have hnodup : (deliveries.map fun d => incomingID d.1).Nodup ↔
      (deliveries.map fun d => (d.1.fromAddr, d.1.timestamp)).Nodup := by
    simp only [Nodup, pairwise_map, ne_eq, incomingID_inj, Prod.mk.injEq]
  rw [← hnodup, ← recorded_foldl_iff address hgcm henv db, deliverAll_some]
  constructor
  · rintro ⟨db', rows, heq, hrows⟩
    obtain rfl := Option.some.inj heq
    exact ⟨rows, hrows⟩
  · rintro ⟨rows, hrows⟩
    exact ⟨_, rows, rfl, hrows⟩

def quietDelivery (sequenceNumber timestamp : UInt64) (content : Bytes) : DirectMessage × SaveEnv :=
  ({ fromAddr := sampleAddress 2
     toAddr := sampleAddress 1
     timestamp := timestamp
     sequenceNumber := sequenceNumber
     contentType := 0
     replyTo := zero 16
     content := content
     signature := [] }, quietEnv)

theorem quietEnv_sound : quietEnv.Sound := ⟨rfl, rfl⟩

theorem recorded_two :
    ∃ db' rows, deliverAll tagSuite (sampleAddress 1) true (some (.empty (zero 32)))
        [quietDelivery 0 1 [7], quietDelivery 1 2 [8]] = some db' ∧ db'.messages = [] ++ rows ∧
      Forall₂ (Records tagSuite (zero 32))
        ([quietDelivery 0 1 [7], quietDelivery 1 2 [8]].map Prod.fst) rows := by
  have henv : ∀ d ∈ [quietDelivery 0 1 [7], quietDelivery 1 2 [8]], d.2.Sound := by
    simp [quietDelivery, quietEnv_sound]
  have hfits : ∀ d ∈ [quietDelivery 0 1 [7], quietDelivery 1 2 [8]],
      incomingID d.1 ∉ [] ∧ d.1.timestamp.toNat < 2 ^ 63 := by
    simp [quietDelivery]
  exact (recorded_iff tagSuite_roundTrips.gcm (sampleAddress 1) true
    (.empty (zero 32)) henv).mpr ⟨by decide, hfits⟩

/-- Two messages with one timestamp: the database has a row for the first only. -/
theorem delivery_lost :
    ([quietDelivery 0 1 [7], quietDelivery 1 1 [8]].map
      fun d => (d.1.fromAddr, d.1.sequenceNumber)).Nodup ∧
    ∃ db', deliverAll tagSuite (sampleAddress 1) true (some (.empty (zero 32)))
        [quietDelivery 0 1 [7], quietDelivery 1 1 [8]] = some db' ∧
      db'.messages.map (fun row => aesDecrypt tagSuite row.content (zero 32).bytes) =
        [.ok [7]] := by
  refine ⟨by decide, _, rfl, ?_⟩
  decide +kernel

end Zentalk
