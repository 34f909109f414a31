import Zentalk.Relay.Routing
import Zentalk.Storage.MessageDb

/-!
# Search

`SearchMessages` decrypts the newest `10 * limit` text messages only (`searchMessages_iff`).
-/

namespace Zentalk

open Wire List MessageDB

def containsHelper (s substr : Bytes) : Bool :=
  (range (s.length + 1 - substr.length)).any fun i => (s.drop i).take substr.length = substr

def contains (s substr : Bytes) : Bool :=
  s.length ≥ substr.length && (s = substr || s.length > substr.length &&
    (s.take substr.length = substr || s.drop (s.length - substr.length) = substr ||
      containsHelper s substr))

/-- `StoredMessage` as `SearchMessages` fills it from a row, without the ID. It leaves the mesh key.
-/
def storedMessage (row : MessageRow) (content : Bytes) : StoredMessage where
  conversationID := row.conversationID
  messageID := row.messageID
  fromAddress := row.fromAddress
  toAddress := row.toAddress
  content := content
  contentType := row.contentType
  timestamp := row.timestamp
  status := row.status
  isOutgoing := row.isOutgoing ≠ 0
  meshChunkID := row.meshChunkID
  encryptionKey := []
  replyToID := row.replyToID

def contentTypeText : UInt8 := 0

namespace MessageDB

variable (S : OnionSuite) (db : MessageDB) (searchText : Bytes) (limit : Int64)

/-- The loop over the rows, with the messages found so far. -/
def searchRows : List MessageRow → List (ℕ × StoredMessage) → List (ℕ × StoredMessage)
  | [], messages => messages
  | row :: rest, messages =>
    match aesDecrypt S row.content db.encryptionKey.bytes with
    | .error _ => searchRows rest messages
    | .ok content =>
      if contains content searchText then
        let messages := messages ++ [(row.id, storedMessage row content)]
        if messages.length ≥ limit.toInt then messages else searchRows rest messages
      else searchRows rest messages

/-- `LIMIT limit*10`; a negative number is no limit. -/
def queried (rows : List MessageRow) : List MessageRow :=
  if limit * 10 < 0 then rows else rows.take (limit * 10).toInt.toNat

/-- `SearchMessages`, with the text messages in the order in which the database has them. -/
def searchMessages (ordered : List MessageRow) (queryErr : Option String) :
    Except String (List (ℕ × StoredMessage)) :=
  match queryErr with
  | some e => .error e
  | none => .ok (db.searchRows S searchText limit (queried limit ordered) [])

end MessageDB

/-- `ORDER BY timestamp DESC` of the text messages, with ties in any order. -/
structure Ordered (db : MessageDB) (ordered : List MessageRow) : Prop where
  perm : ordered.Perm (db.messages.filter fun row => row.contentType = contentTypeText)
  sorted : ordered.Pairwise fun row row' => row'.timestamp ≤ row.timestamp

/-- The message of a row that can be decrypted and contains the text. -/
def matching (S : OnionSuite) (db : MessageDB) (searchText : Bytes) (row : MessageRow) :
    Option (ℕ × StoredMessage) :=
  match aesDecrypt S row.content db.encryptionKey.bytes with
  | .error _ => none
  | .ok content =>
    if searchText <:+: content then some (row.id, storedMessage row content) else none

/-- All text messages with the text. -/
def allMatches (S : OnionSuite) (db : MessageDB) (searchText : Bytes) : List (ℕ × StoredMessage) :=
  (db.messages.filter fun row => row.contentType = contentTypeText).filterMap
    (matching S db searchText)

/-- The `limit` newest of the messages, newest first. -/
def MostRecent (limit : ℕ) (messages results : List (ℕ × StoredMessage)) : Prop :=
  ∃ sorted : List (ℕ × StoredMessage), sorted.Perm messages ∧
    sorted.Pairwise (fun m m' => m'.2.timestamp ≤ m.2.timestamp) ∧ results = sorted.take limit

section

variable {S : OnionSuite} {db : MessageDB} {searchText : Bytes} {limit : Int64}

theorem containsHelper_iff (s substr : Bytes) : containsHelper s substr = true ↔ substr <:+: s := by
  simp only [containsHelper, any_eq_true, mem_range, decide_eq_true_eq]
  constructor
  · rintro ⟨i, -, htake⟩
    rw [← htake]
    exact ( take_prefix _ _).isInfix.trans (drop_suffix _ _).isInfix
  · rintro ⟨pre, post, rfl⟩
    refine ⟨pre.length, ?_, ?_⟩
    · simp only [length_append]
      omega
    · rw [append_assoc, drop_left, take_left]

theorem contains_iff (s substr : Bytes) : contains s substr = true ↔ substr <:+: s := by
  constructor
  · intro h
    simp only [contains, Bool.and_eq_true, Bool.or_eq_true, decide_eq_true_eq] at h
    obtain ⟨-, rfl | ⟨-, (htake | hdrop) | hhelper⟩⟩ := h
    · exact infix_rfl
    · exact htake ▸ ( take_prefix _ _).isInfix
    · exact hdrop ▸ (drop_suffix _ _).isInfix
    · exact (containsHelper_iff s substr).mp hhelper
  · intro h
    have hle := h.length_le
    rcases hle.lt_or_eq with hlt | heq
    · simp [contains, hle, hlt, (containsHelper_iff s substr).mpr h]
    · simp [contains, h.eq_of_length heq]

/-- The loop finds the matching messages of its rows up to the limit. -/
theorem searchRows_eq (S : OnionSuite) (db : MessageDB) (searchText : Bytes)
    (rows : List MessageRow) (messages : List (ℕ × StoredMessage))
    (h : messages.length < limit.toInt) :
    db.searchRows S searchText limit rows messages =
      (messages ++ rows.filterMap (matching S db searchText)).take limit.toInt.toNat := by
  induction rows generalizing messages with
  | nil =>
    rw [filterMap_nil, append_nil, take_of_length_le (by omega)]
    rfl
  | cons row rest ih =>
    rw [searchRows, filterMap_cons, matching]
    cases aesDecrypt S row.content db.encryptionKey.bytes with
    | error e => exact ih messages h
    | ok content =>
      dsimp only
      by_cases hmatch : searchText <:+: content
      · rw [if_pos ((contains_iff content searchText).mpr hmatch), if_pos hmatch]
        split
        · next hfull =>
          have hlen : limit.toInt.toNat =
              (messages ++ [(row.id, storedMessage row content)]).length := by
            rw [length_append, length_singleton] at hfull ⊢
            omega
          rw [hlen, append_cons messages _ (rest.filterMap (matching S db searchText)), take_left]
        · next hroom => rw [ih _ (not_le.mp hroom), ← append_cons]
      · rw [if_neg (by rw [contains_iff]; exact hmatch), if_neg hmatch]
        exact ih messages h

theorem queried_first (limit : Int64) (rows : List MessageRow) :
    MessageDB.queried limit rows <+: rows := by
  unfold queried
  split
  · exact prefix_rfl
  · exact take_prefix _ _

theorem timestamp_matching {row : MessageRow} {m : ℕ × StoredMessage}
    (h : matching S db searchText row = some m) : m.2.timestamp = row.timestamp := by
  unfold matching at h
  split at h
  · cases h
  · split at h
    · cases h
      rfl
    · cases h

/-- The matching messages in the order of the database are those of the query, newest first. -/
theorem matches_ordered (S : OnionSuite) (searchText : Bytes) {ordered : List MessageRow}
    (h : Ordered db ordered) :
    (ordered.filterMap (matching S db searchText)).Perm (allMatches S db searchText) ∧
      (ordered.filterMap (matching S db searchText)).Pairwise
        fun m m' => m'.2.timestamp ≤ m.2.timestamp := by
  refine ⟨h.perm.filterMap _, h.sorted.filterMap _ fun row row' hle m hm m' hm' => ?_⟩
  rwa [timestamp_matching hm, timestamp_matching hm']

end

/-- A search returns the newest messages with the text if, and only if, enough of them are among the
newest `10 * limit` text messages. -/
theorem searchMessages_iff (S : OnionSuite) (db : MessageDB) (searchText : Bytes) {limit : Int64}
    (hlimit : 1 ≤ limit.toInt) {ordered : List MessageRow} (hordered : Ordered db ordered) :
    ∃ results, db.searchMessages S searchText limit ordered none = .ok results ∧
      (MostRecent limit.toInt.toNat (allMatches S db searchText) results ↔
        min limit.toInt.toNat (allMatches S db searchText).length ≤
          ((MessageDB.queried limit ordered).filterMap (matching S db searchText)).length) := by
  obtain ⟨hperm, hsorted⟩ := matches_ordered S searchText hordered
  have hrows := searchRows_eq S db searchText (queried limit ordered) []
    (Int.lt_of_lt_of_le Int.one_pos hlimit)
  refine ⟨_, congrArg Except.ok hrows, ?_⟩
  rw [nil_append]
  constructor
  · rintro ⟨sorted, hperm', -, heq⟩
    have hlen := congrArg length heq
    rw [length_take, length_take, hperm'.length_eq] at hlen
    omega
  · intro hle
    refine ⟨_, hperm, hsorted, ?_⟩
    obtain ⟨rest, hrest⟩ := (queried_first limit ordered).filterMap (matching S db searchText)
    have hlen := hperm.length_eq
    rw [← hrest] at hlen ⊢
    rw [length_append] at hlen
    by_cases hall : rest = []
    · rw [hall, append_nil]
    · have hpos := length_pos_of_ne_nil hall
      rw [take_append_of_le_length (by omega)]

/-- The row `i` of eleven messages, of which the oldest has the letter `a` and the others have `b`.
-/
def letterRow (i : ℕ) : MessageRow where
  id := i
  conversationID := []
  messageID := [UInt8.ofNat i]
  fromAddress := []
  toAddress := []
  content := replicate 44 0 ++ [if i = 0 then 97 else 98]
  contentType := 0
  timestamp := Int64.ofNat i
  status := .sent
  isOutgoing := 0
  meshChunkID := 0
  encryptionKey := none
  replyToID := []
  createdAt := 0

def letterDb : MessageDB where
  encryptionKey := ByteArr.zero 32
  messages := (range 11).map letterRow
  nextID := 11
  conversations := ∅
  id_lt := by decide
  nodup_messageID := by decide

def newestLetters : List MessageRow := (range 11).reverse.map letterRow

theorem newestLetters_ordered : Ordered letterDb newestLetters where
  perm := by
    have hall : (letterDb.messages.filter fun row => row.contentType = contentTypeText) =
        (range 11).map letterRow := by decide
    exact (reverse_perm _).map _
  sorted := by decide

theorem searchMessages_letter :
    ∃ results, letterDb.searchMessages tagSuite [98] 1 newestLetters none = .ok results ∧
      MostRecent 1 (allMatches tagSuite letterDb [98]) results := by
  have hlimit : 1 ≤ (1 : Int64).toInt := by decide
  obtain ⟨results, hok, hiff⟩ :=
    searchMessages_iff tagSuite letterDb [98] hlimit newestLetters_ordered
  exact ⟨results, hok, hiff.mpr (by decide)⟩

/-- The message with the letter `a` is not found: ten messages are newer. -/
theorem searchMessages_incomplete :
    Ordered letterDb newestLetters ∧
      allMatches tagSuite letterDb [97] = [(0, storedMessage (letterRow 0) [97])] ∧
      letterDb.searchMessages tagSuite [97] 1 newestLetters none = .ok [] ∧
      ¬ MostRecent 1 (allMatches tagSuite letterDb [97]) [] := by
  refine ⟨newestLetters_ordered, rfl, rfl, ?_⟩
  rintro ⟨sorted, hperm, -, heq⟩
  have hlen := congrArg length heq
  rw [length_take, hperm.length_eq] at hlen
  exact absurd hlen (by decide)

end Zentalk
