import Zentalk.Mesh.Placement

/-!
# Shards on the nodes of the mesh

A request may fail before it is handled, and its answer may be lost (`Delivery`).
-/

namespace Zentalk.Mesh

open Wire Decimal Function

/-! ## Local storage -/

/-- `LocalStorage`: the table of chunks, none of which is empty. -/
structure LocalStorage where
  chunks : Bytes × ℤ → Option Bytes
  ne_nil : ∀ key, chunks key ≠ some []

namespace LocalStorage

def empty : LocalStorage := ⟨fun _ => none, fun _ h => nomatch h⟩

def notFound (userAddr : Bytes) (chunkID : ℤ) : Bytes :=
  asciiBytes "chunk not found: user=" ++ userAddr ++ asciiBytes " chunk=" ++ decimal chunkID

/-- `LocalStorage.StoreChunk`: an `INSERT OR REPLACE`. -/
def storeChunk (s : LocalStorage) (userAddr : Bytes) (chunkID : ℤ) (data : Bytes) :
    Except Bytes LocalStorage :=
  if h : data = [] then .error (asciiBytes "cannot store empty chunk")
  else .ok
    { chunks := update s.chunks (userAddr, chunkID) (some data)
      ne_nil := by
        intro key
        by_cases hkey : key = (userAddr, chunkID)
        · rw [hkey, update_self]
          simpa using h
        · rw [update_of_ne hkey]
          exact s.ne_nil key }

def getChunk (s : LocalStorage) (userAddr : Bytes) (chunkID : ℤ) : Except Bytes Bytes :=
  match s.chunks (userAddr, chunkID) with
  | none => .error (notFound userAddr chunkID)
  | some data => .ok data

def drop (s : LocalStorage) (key : Bytes × ℤ) : LocalStorage where
  chunks := update s.chunks key none
  ne_nil key' := by
    by_cases hkey : key' = key
    · rw [hkey, update_self]
      intro h
      cases h
    · rw [update_of_ne hkey]
      exact s.ne_nil key'

/-- `LocalStorage.DeleteChunk`: it is an error when no row is affected. -/
def deleteChunk (s : LocalStorage) (userAddr : Bytes) (chunkID : ℤ) : Except Bytes LocalStorage :=
  match s.chunks (userAddr, chunkID) with
  | none => .error (notFound userAddr chunkID)
  | some _ => .ok (s.drop (userAddr, chunkID))

end LocalStorage

/-! ## Requests -/

/-- What becomes of a string that is sent as JSON: bytes that are not valid UTF-8 are replaced, one
by one, and ASCII text after them stays. -/
structure JsonText where
  coerce : Bytes → Bytes
  coerce_ascii : ∀ b a : Bytes, (∀ x ∈ a, x.toNat < 128) → coerce (b ++ a) = coerce b ++ a

/-- The string is valid UTF-8: it is sent as it is. -/
def JsonText.Valid (J : JsonText) (b : Bytes) : Prop := J.coerce b = b

/-- `RPCResponse`, without the fields for the status of shards. -/
structure RPCResponse where
  success : Bool
  data : Bytes
  error : Bytes

/-- `handleStoreChunk` of a request that was parsed. -/
def handleStoreChunk (s : LocalStorage) (userAddr : Bytes) (chunkID : ℤ) (data : Bytes) :
    LocalStorage × RPCResponse :=
  match s.storeChunk userAddr chunkID data with
  | .error err => (s, ⟨false, [], asciiBytes "failed to store chunk: " ++ err⟩)
  | .ok s' => (s', ⟨true, [], []⟩)

/-- `handleGetChunk` of a request that was parsed. -/
def handleGetChunk (s : LocalStorage) (userAddr : Bytes) (chunkID : ℤ) : RPCResponse :=
  match s.getChunk userAddr chunkID with
  | .error err => ⟨false, [], asciiBytes "failed to get chunk: " ++ err⟩
  | .ok data => ⟨true, data, []⟩

/-- `handleDeleteShard` of a request that was parsed; `signed` is what `verifyDeleteShardSignature`
returns if there is a signature. -/
def handleDeleteShard (s : LocalStorage) (userAddr : Bytes) (chunkID : ℤ) (shardIndex : Slot)
    (signed : Option (Except Bytes Unit)) : LocalStorage × RPCResponse :=
  match signed with
  | some (.error err) => (s, ⟨false, [], asciiBytes "unauthorized: " ++ err⟩)
  | _ =>
    match s.deleteChunk (shardKey userAddr chunkID shardIndex) shardIndex with
    | .error err => (s, ⟨false, [], asciiBytes "failed to delete shard: " ++ err⟩)
    | .ok s' => (s', ⟨true, [], []⟩)

structure MeshState where
  node : PeerID → LocalStorage

/-- One node has another storage. -/
def MeshState.set (mesh : MeshState) (peer : PeerID) (s : LocalStorage) : MeshState :=
  ⟨update mesh.node peer s⟩

/-- What becomes of a request. -/
inductive Delivery
  /-- It is not handled, and the sender gets an error. -/
  | failed (err : Bytes)
  /-- It is handled, but the answer does not arrive. -/
  | lost (err : Bytes)
  /-- It is handled and answered. -/
  | answered

def Delivery.handled : Delivery → Bool
  | .failed _ => false
  | _ => true

def Delivery.acked : Delivery → Bool
  | .answered => true
  | _ => false

/-- A request of the node `self` gets through to `peer`. -/
def reaches (self : PeerID) (online : PeerID → Bool) (peer : PeerID) : Bool :=
  peer = self || (peer ≠ [] && online peer)

/-- What becomes of a request when it has to get through. -/
def route (self : PeerID) (online : PeerID → Bool) (peer : PeerID) (d : Delivery) : Delivery :=
  if reaches self online peer then d else .failed (asciiBytes "failed to open stream")

section Client

variable (J : JsonText) (self : PeerID) (online : PeerID → Bool) (peer : PeerID) (d : Delivery)
  (mesh : MeshState)

def sendRequest (handle : LocalStorage → LocalStorage × RPCResponse) :
    MeshState × Except Bytes RPCResponse :=
  let out := handle (mesh.node peer)
  match route self online peer d with
  | .failed err => (mesh, .error err)
  | .lost err => (mesh.set peer out.1, .error err)
  | .answered => (mesh.set peer out.1, .ok { out.2 with error := J.coerce out.2.error })

/-- The client's `if !response.Success`. -/
def checkSuccess (response : RPCResponse) : Except Bytes Unit :=
  if response.success then .ok () else .error (asciiBytes "remote node error: " ++ response.error)

/-- `RPCClient.StoreChunk`. -/
def clientStoreChunk (userAddr : Bytes) (chunkID : ℤ) (data : Bytes) :
    MeshState × Except Bytes Unit :=
  let out := sendRequest J self online peer d mesh fun s =>
    handleStoreChunk s (J.coerce userAddr) chunkID data
  (out.1, out.2.bind checkSuccess)

/-- `RPCClient.DeleteShard`, which sends no signature. -/
def clientDeleteShard (userAddr : Bytes) (chunkID : ℤ) (shardIndex : Slot) :
    MeshState × Except Bytes Unit :=
  let out := sendRequest J self online peer d mesh fun s =>
    handleDeleteShard s (J.coerce userAddr) chunkID shardIndex none
  (out.1, out.2.bind checkSuccess)

/-- A change of the node's own storage. -/
def localChange (change : LocalStorage → Except Bytes LocalStorage) :
    MeshState × Except Bytes Unit :=
  match d with
  | .failed err => (mesh, .error err)
  | .lost err =>
    match change (mesh.node self) with
    | .error _ => (mesh, .error err)
    | .ok s => (mesh.set self s, .error err)
  | .answered =>
    match change (mesh.node self) with
    | .error err => (mesh, .error err)
    | .ok s => (mesh.set self s, .ok ())

/-- Shard `i` is stored on a node, locally or by a request. -/
def putShard (userAddr : Bytes) (chunkID : ℤ) (i : Slot) (data : Bytes) :
    MeshState × Except Bytes Unit :=
  if peer = self then
    localChange self d mesh fun s => s.storeChunk (shardKey userAddr chunkID i) i data
  else clientStoreChunk J self online peer d mesh (shardKey userAddr chunkID i) i data

/-- Shard `i` is deleted from a node, locally or by a request. -/
def dropShard (userAddr : Bytes) (chunkID : ℤ) (i : Slot) : MeshState × Except Bytes Unit :=
  if peer = self then
    localChange self d mesh fun s => s.deleteChunk (shardKey userAddr chunkID i) i
  else clientDeleteShard J self online peer d mesh userAddr chunkID i

/-- Shard `i` is read from a node, locally or by a request; the error is only printed. -/
def getShard (ok : Bool) (userAddr : Bytes) (chunkID : ℤ) (i : Slot) : Option Bytes :=
  if !ok then none
  else if peer = self then ((mesh.node self).getChunk (shardKey userAddr chunkID i) i).toOption
  else if reaches self online peer then
    let response := handleGetChunk (mesh.node peer) (J.coerce (shardKey userAddr chunkID i)) i
    if response.success then some response.data else none
  else none

end Client

/-! ## The row of a shard -/

def rowKey (J : JsonText) (self peer : PeerID) (userAddr : Bytes) (chunkID : ℤ) (i : Slot) :
    Bytes × ℤ :=
  (if peer = self then shardKey userAddr chunkID i else J.coerce (shardKey userAddr chunkID i), i)

def shardAt (J : JsonText) (self : PeerID) (mesh : MeshState) (userAddr : Bytes) (chunkID : ℤ)
    (peer : PeerID) (i : Slot) : Option Bytes :=
  (mesh.node peer).chunks (rowKey J self peer userAddr chunkID i)

section

variable {J : JsonText} {self : PeerID} {online : PeerID → Bool} {peer : PeerID} {d : Delivery}
  {mesh : MeshState} {u : Bytes} {c : ℤ} {i : Slot}

theorem reaches_self : reaches self online self = true := by simp [reaches]

theorem route_self : route self online self d = d := by simp [route, reaches_self]

theorem reaches_of_handled (h : (route self online peer d).handled = true) :
    reaches self online peer = true := by
  unfold route at h
  split at h
  · next hreach => exact hreach
  · cases h

theorem handled_of_acked (h : d.acked = true) : d.handled = true := by
  cases d with
  | answered => rfl
  | _ => cases h

theorem coerce_shardKey : J.coerce (shardKey u c i) = shardKey (J.coerce u) c i :=
  J.coerce_ascii u _ (ascii_shardSuffix c i)

variable (s : LocalStorage) (p : PeerID)

theorem chunks_set (key : Bytes × ℤ) :
    ((mesh.set peer s).node p).chunks key =
      if p = peer then s.chunks key else (mesh.node p).chunks key := by
  by_cases hp : p = peer
  · subst hp
    simp [MeshState.set]
  · simp [MeshState.set, hp]

theorem localChange_spec (change : LocalStorage → Except Bytes LocalStorage) (p : PeerID)
    (key : Bytes × ℤ) :
    ((localChange self d mesh change).1.node p).chunks key =
      (if d.handled = true ∧ p = self then
        (match change (mesh.node self) with
          | .error _ => (mesh.node p).chunks key
          | .ok s => s.chunks key)
      else (mesh.node p).chunks key) ∧
    ((localChange self d mesh change).2 = .ok () ↔
      d.acked = true ∧ ∃ s, change (mesh.node self) = .ok s) := by
  unfold localChange
  cases d with
  | failed err => simp [Delivery.handled, Delivery.acked]
  | lost err =>
    cases hchange : change (mesh.node self) with
    | error err' => simp [Delivery.handled, Delivery.acked]
    | ok s => simp [Delivery.handled, Delivery.acked, chunks_set]
  | answered =>
    cases hchange : change (mesh.node self) with
    | error err' => simp [Delivery.handled, Delivery.acked]
    | ok s => simp [Delivery.handled, Delivery.acked, chunks_set]

theorem sendRequest_spec (handle : LocalStorage → LocalStorage × RPCResponse) (p : PeerID)
    (key : Bytes × ℤ) :
    ((sendRequest J self online peer d mesh handle).1.node p).chunks key =
      (if (route self online peer d).handled = true ∧ p = peer then
        (handle (mesh.node peer)).1.chunks key
      else (mesh.node p).chunks key) ∧
    ((sendRequest J self online peer d mesh handle).2.bind checkSuccess = .ok () ↔
      (route self online peer d).acked = true ∧ (handle (mesh.node peer)).2.success = true) := by
  unfold sendRequest
  cases route self online peer d with
  | failed err => simp [Delivery.handled, Delivery.acked, Except.bind]
  | lost err => simp [Delivery.handled, Delivery.acked, Except.bind, chunks_set]
  | answered => simp [Delivery.handled, Delivery.acked, Except.bind, chunks_set, checkSuccess]

variable {data : Bytes}

theorem storeChunk_ok (key : Bytes) (id : ℤ) (hne : data ≠ []) :
    ∃ s', s.storeChunk key id data = .ok s' ∧
      ∀ k, s'.chunks k = if k = (key, id) then some data else s.chunks k := by
  rw [LocalStorage.storeChunk, dif_neg hne]
  exact ⟨_, rfl, fun k => update_apply ..⟩

theorem drop_chunks (row key : Bytes × ℤ) :
    (s.drop row).chunks key = if key = row then none else s.chunks key :=
  update_apply ..

theorem chunks_putShard (hne : data ≠ []) (p : PeerID) (key : Bytes × ℤ) :
    ((putShard J self online peer d mesh u c i data).1.node p).chunks key =
      if (route self online peer d).handled = true ∧ p = peer ∧ key = rowKey J self peer u c i
      then some data else (mesh.node p).chunks key := by
  unfold putShard rowKey
  by_cases hself : peer = self
  · subst hself
    obtain ⟨s, hstore, hrows⟩ := storeChunk_ok (mesh.node peer) (shardKey u c i) i hne
    rw [if_pos rfl, if_pos rfl, route_self, (localChange_spec _ p key).1, hstore]
    by_cases hp : p = peer
    · subst hp
      simp only [and_true, true_and, hrows]
      split <;> simp_all
    · simp [hp]
  · obtain ⟨s, hstore, hrows⟩ := storeChunk_ok (mesh.node peer) (J.coerce (shardKey u c i)) i hne
    rw [if_neg hself, if_neg hself, clientStoreChunk, (sendRequest_spec _ p key).1,
      handleStoreChunk, hstore]
    by_cases hp : p = peer
    · subst hp
      simp only [and_true, true_and, hrows]
      split <;> simp_all
    · simp [hp]

theorem putShard_ok_iff (hne : data ≠ []) :
    (putShard J self online peer d mesh u c i data).2 = .ok () ↔
      (route self online peer d).acked = true := by
  unfold putShard
  by_cases hself : peer = self
  · subst hself
    obtain ⟨s, hstore, -⟩ := storeChunk_ok (mesh.node peer) (shardKey u c i) i hne
    rw [if_pos rfl, route_self, (localChange_spec _ peer ([], 0)).2, hstore]
    simp
  · obtain ⟨s, hstore, -⟩ := storeChunk_ok (mesh.node peer) (J.coerce (shardKey u c i)) i hne
    rw [if_neg hself, clientStoreChunk, (sendRequest_spec _ peer ([], 0)).2, handleStoreChunk,
      hstore]
    simp

theorem putShard_cases (J : JsonText) (self : PeerID) (online : PeerID → Bool) (peer : PeerID)
    (d : Delivery) (mesh : MeshState) (u : Bytes) (c : ℤ) (i : Slot) (hne : data ≠ []) :
    ((putShard J self online peer d mesh u c i data).2 = .ok () ∧
      (route self online peer d).acked = true) ∨
    ∃ err, (putShard J self online peer d mesh u c i data).2 = .error err ∧
      (route self online peer d).acked = false := by
  have hok : (putShard J self online peer d mesh u c i data).2 = .ok () ↔
      (route self online peer d).acked = true := putShard_ok_iff hne
  cases hout : (putShard J self online peer d mesh u c i data).2 with
  | ok done => exact .inl ⟨rfl, hok.mp hout⟩
  | error err =>
    refine .inr ⟨err, rfl, ?_⟩
    rw [← Bool.not_eq_true, ← hok, hout]
    exact fun h => nomatch h

theorem deleteChunk_spec (key : Bytes) (id : ℤ) :
    (s.chunks (key, id) = none ∧ ∃ err, s.deleteChunk key id = .error err) ∨
      (s.chunks (key, id) ≠ none ∧ s.deleteChunk key id = .ok (s.drop (key, id))) := by
  unfold LocalStorage.deleteChunk
  cases s.chunks (key, id) with
  | none => exact .inl ⟨rfl, _, rfl⟩
  | some data => exact .inr ⟨Option.some_ne_none data, rfl⟩

theorem handleDeleteShard_unsigned (u : Bytes) (c : ℤ) (i : Slot) :
    handleDeleteShard s u c i none =
      match s.deleteChunk (shardKey u c i) i with
      | .error err => (s, ⟨false, [], asciiBytes "failed to delete shard: " ++ err⟩)
      | .ok s' => (s', ⟨true, [], []⟩) := rfl

theorem chunks_dropShard (key : Bytes × ℤ) :
    ((dropShard J self online peer d mesh u c i).1.node p).chunks key =
      if (route self online peer d).handled = true ∧ p = peer ∧ key = rowKey J self peer u c i
      then none else (mesh.node p).chunks key := by
  unfold dropShard rowKey
  by_cases hself : peer = self
  · subst hself
    rw [if_pos rfl, if_pos rfl, route_self, (localChange_spec _ p key).1]
    by_cases hp : p = peer
    · subst hp
      rcases deleteChunk_spec (mesh.node p) (shardKey u c i) i with ⟨hnone, err, hdel⟩ | ⟨-, hdel⟩
      · split <;> simp_all
      · rw [hdel]
        simp only [and_true, true_and, drop_chunks]
        split <;> simp_all
    · simp [hp]
  · rw [if_neg hself, if_neg hself, clientDeleteShard, (sendRequest_spec _ p key).1,
      handleDeleteShard_unsigned, coerce_shardKey]
    by_cases hp : p = peer
    · subst hp
      rcases deleteChunk_spec (mesh.node p) (shardKey (J.coerce u) c i) i with
        ⟨hnone, err, hdel⟩ | ⟨-, hdel⟩
      · split <;> simp_all
      · rw [hdel]
        simp only [and_true, true_and, drop_chunks]
        split <;> simp_all
    · simp [hp]

theorem dropShard_ok_iff :
    (dropShard J self online peer d mesh u c i).2 = .ok () ↔
      (route self online peer d).acked = true ∧ shardAt J self mesh u c peer i ≠ none := by
  unfold dropShard shardAt rowKey
  by_cases hself : peer = self
  · subst hself
    rw [if_pos rfl, if_pos rfl, route_self, (localChange_spec _ peer ([], 0)).2]
    rcases deleteChunk_spec (mesh.node peer) (shardKey u c i) i with
      ⟨hnone, err, hdel⟩ | ⟨hsome, hdel⟩
    · simp [hdel, hnone]
    · simp [hdel, hsome]
  · rw [if_neg hself, if_neg hself, clientDeleteShard, (sendRequest_spec _ peer ([], 0)).2,
      handleDeleteShard_unsigned, coerce_shardKey]
    rcases deleteChunk_spec (mesh.node peer) (shardKey (J.coerce u) c i) i with
      ⟨hnone, err, hdel⟩ | ⟨hsome, hdel⟩
    · simp [hdel, hnone]
    · simp [hdel, hsome]

/-! ## The shards of one chunk -/

theorem rowKey_index {p : PeerID} {j : Slot}
    (h : rowKey J self p u c j = rowKey J self p u c i) : j = i := by
  have hindex := congrArg Prod.snd h
  simp only [rowKey] at hindex
  exact Fin.ext (by omega)

theorem shardAt_putShard (hne : data ≠ []) (p : PeerID) (j : Slot) :
    shardAt J self (putShard J self online peer d mesh u c i data).1 u c p j =
      if (route self online peer d).handled = true ∧ p = peer ∧ j = i then some data
      else shardAt J self mesh u c p j := by
  rw [shardAt, chunks_putShard hne]
  refine if_congr (and_congr_right fun _ => and_congr_right fun hp => ?_) rfl rfl
  subst hp
  exact ⟨rowKey_index, fun h => h ▸ rfl⟩

theorem shardAt_dropShard (j : Slot) :
    shardAt J self (dropShard J self online peer d mesh u c i).1 u c p j =
      if (route self online peer d).handled = true ∧ p = peer ∧ j = i then none
      else shardAt J self mesh u c p j := by
  rw [shardAt, chunks_dropShard]
  refine if_congr (and_congr_right fun _ => and_congr_right fun hp => ?_) rfl rfl
  subst hp
  exact ⟨rowKey_index, fun h => h ▸ rfl⟩

theorem shardAt_ne_nil (j : Slot) : shardAt J self mesh u c p j ≠ some [] := (mesh.node p).ne_nil _

theorem getShard_eq (ok : Bool) :
    getShard J self online peer mesh ok u c i =
      if ok = true ∧ reaches self online peer = true then shardAt J self mesh u c peer i
      else none := by
  unfold getShard shardAt rowKey LocalStorage.getChunk handleGetChunk LocalStorage.getChunk
  cases ok with
  | false => simp
  | true =>
    by_cases hself : peer = self
    · subst hself
      simp only [Bool.not_true, Bool.false_eq_true, if_false, if_true, reaches_self, and_self]
      cases (mesh.node peer).chunks (shardKey u c i, (i : ℤ)) <;> rfl
    · simp only [Bool.not_true, Bool.false_eq_true, if_false, hself, true_and]
      cases (mesh.node peer).chunks (J.coerce (shardKey u c i), (i : ℤ)) <;> simp

end

end Zentalk.Mesh
