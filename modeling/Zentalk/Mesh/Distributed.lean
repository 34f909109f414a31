import Zentalk.Mesh.Shards

/-!
# Storing and retrieving a chunk

A shard that could not be stored leaves the zero value in the list of locations. What was stored
can be retrieved while ten shards are at hand (`retrieve_stored`).
-/

namespace Zentalk.Mesh

open Wire Slots Decimal Function Option ErasureEncoder Nat
open List hiding count

/-! ## Chunks -/

/-- `ShardLocation`, without the addresses of the peer. -/
structure ShardLocation where
  shardIndex : Slot
  peerID : PeerID
deriving DecidableEq

def ShardLocation.zero : ShardLocation := ⟨0, []⟩

/-- The list `ShardLocations`. -/
structure Locations where
  loc : Slot → ShardLocation
  placed : ∀ i, loc i = .zero ∨ (loc i).shardIndex = i

namespace Locations

/-- `make([]ShardLocation, TotalShards)`. -/
def unset : Locations := ⟨fun _ => .zero, fun _ => .inl rfl⟩

/-- The location of shard `i` is recorded. -/
def set (l : Locations) (i : Slot) (peer : PeerID) : Locations where
  loc := update l.loc i ⟨i, peer⟩
  placed j := by
    by_cases hj : j = i
    · subst hj
      rw [update_self]
      exact .inr rfl
    · rw [update_of_ne hj]
      exact l.placed j

theorem set_loc (l : Locations) (i j : Slot) (peer : PeerID) :
    (l.set i peer).loc j = if j = i then ⟨i, peer⟩ else l.loc j :=
  update_apply ..

theorem shardIndex_eq (l : Locations) {i : Slot} (h : (l.loc i).peerID ≠ []) :
    (l.loc i).shardIndex = i := by
  rcases l.placed i with hzero | hindex
  · rw [hzero] at h
    exact absurd rfl h
  · exact hindex

end Locations

structure DistributedChunk where
  userAddr : Bytes
  chunkID : ℤ
  originalSize : ℕ
  shardSize : ℕ
  locations : Locations

/-- The node recorded for a shard. -/
abbrev DistributedChunk.peer (chunk : DistributedChunk) (i : Slot) : PeerID :=
  (chunk.locations.loc i).peerID

/-- `DistributedStorage`: the node that runs the operations, and its encoder. -/
structure DistributedStorage where
  self : PeerID
  self_ne : self ≠ []
  encoder : ReedSolomon

/-- An order in which the goroutines of the fifteen shards finish. -/
structure Order where
  slots : List Slot
  perm : slots.Perm (List.finRange totalShards)

namespace Order

def ascending : Order := ⟨List.finRange totalShards, .refl _⟩

variable (order : Order)

theorem nodup : order.slots.Nodup := order.perm.nodup_iff.mpr (nodup_finRange _)

theorem mem (i : Slot) : i ∈ order.slots := order.perm.mem_iff.mpr (mem_finRange i)

theorem countP_eq (P : Slot → Bool) : order.slots.countP P = count P := order.perm.countP_eq P

end Order

/-! ## `StoreDistributed` -/

/-- What happens during a store: what the node sees of the others, what becomes of the requests of
the loop that stores the remaining shards locally and of those of the goroutines, and the order in
which the goroutines finish. -/
structure StoreRun where
  view : View
  ahead : Slot → Delivery
  deliver : Slot → Delivery
  order : Order

/-- A shard that a goroutine could not store: `failed to store local shard %d: %w`, or
`failed to store shard %d on peer %s: %w`. -/
structure ShardError where
  shardIndex : Slot
  peer : PeerID
  err : Bytes

/-- How `StoreDistributed` fails. -/
inductive StoreError
  /-- `failed to encode data: %w`. -/
  | encode (err : Bytes)
  /-- `failed to store local shard %d: %w`. -/
  | localShard (i : Slot) (err : Bytes)
  /-- `failed to store %d shards (too many failures): %v`. -/
  | tooMany (errs : List ShardError)

/-- What the goroutines of a store share. -/
structure Placing where
  mesh : MeshState
  locations : Locations
  errs : List ShardError

section Operations

variable (J : JsonText) (D : DistributedStorage)

def storeAhead (ahead : Slot → Delivery) (online : PeerID → Bool) (userAddr : Bytes) (chunkID : ℤ)
    (w : Shards) : List Slot → MeshState → MeshState × Option (Slot × Bytes)
  | [], mesh => (mesh, none)
  | i :: rest, mesh =>
    let out := putShard J D.self online D.self (ahead i) mesh userAddr chunkID i (w i)
    match out.2 with
    | .error err => (out.1, some (i, err))
    | .ok _ => storeAhead ahead online userAddr chunkID w rest out.1

/-- The goroutine of shard `i`. -/
def storeShard (run : StoreRun) (userAddr : Bytes) (chunkID : ℤ) (w : Shards) (st : Placing)
    (i : Slot) : Placing :=
  let peer := storeNodes D.self run.view userAddr chunkID i
  let out := putShard J D.self run.view.online peer (run.deliver i) st.mesh userAddr chunkID i (w i)
  match out.2 with
  | .error err => { st with mesh := out.1, errs := st.errs ++ [⟨i, peer, err⟩] }
  | .ok _ => { st with mesh := out.1, locations := st.locations.set i peer }

/-- The shards that have no peer of their own. -/
def remaining (run : StoreRun) (userAddr : Bytes) (chunkID : ℤ) : List Slot :=
  (List.finRange totalShards).drop
    (findStorageNodes D.self run.view (generateStorageKey userAddr chunkID) totalShards).length

/-- `StoreDistributed` from where it starts its goroutines. -/
def storeShards (run : StoreRun) (userAddr : Bytes) (chunkID : ℤ) (encoded : EncodedData)
    (mesh : MeshState) : MeshState × Except StoreError DistributedChunk :=
  let st := run.order.slots.foldl (storeShard J D run userAddr chunkID encoded.shards)
    ⟨mesh, .unset, []⟩
  if parityShards < st.errs.length then (st.mesh, .error (.tooMany st.errs))
  else (st.mesh, .ok ⟨userAddr, chunkID, encoded.originalSize, encoded.shardSize, st.locations⟩)

def storeDistributed (mesh : MeshState) (userAddr : Bytes) (chunkID : ℤ) (data : Bytes)
    (run : StoreRun) : MeshState × Except StoreError DistributedChunk :=
  match encode D.encoder data with
  | .error err => (mesh, .error (.encode err))
  | .ok encoded =>
    let loop := storeAhead J D run.ahead run.view.online userAddr chunkID encoded.shards
      (remaining D run userAddr chunkID) mesh
    match loop.2 with
    | some (i, err) => (loop.1, .error (.localShard i err))
    | none => storeShards J D run userAddr chunkID encoded loop.1

/-! ## `RetrieveDistributed` -/

/-- What happens during a retrieval: which nodes can be reached, which fetches fail for another
reason, and the order in which the goroutines finish. -/
structure FetchRun where
  online : PeerID → Bool
  fetches : Slot → Bool
  order : Order

/-- What the goroutines of a retrieval share. -/
structure Gathering where
  shards : Fetched
  successCount : ℕ

/-- The goroutine of the location `j`. -/
def retrieveShard (mesh : MeshState) (run : FetchRun) (chunk : DistributedChunk) (st : Gathering)
    (j : Slot) : Gathering :=
  let loc := chunk.locations.loc j
  match getShard J D.self run.online loc.peerID mesh (run.fetches j) chunk.userAddr chunk.chunkID
      loc.shardIndex with
  | none => st
  | some shard => ⟨update st.shards loc.shardIndex (some shard), st.successCount + 1⟩

def retrieveDistributed (mesh : MeshState) (run : FetchRun) (chunk : DistributedChunk) :
    Except Bytes Bytes :=
  let st := run.order.slots.foldl (retrieveShard J D mesh run chunk) ⟨fun _ => none, 0⟩
  if st.successCount < minShardsForRecovery then
    .error (asciiBytes "insufficient shards retrieved: have " ++ decimal st.successCount ++
      asciiBytes ", need " ++ decimal minShardsForRecovery)
  else
    match decode D.encoder st.shards chunk.originalSize with
    | .error err => .error (asciiBytes "failed to decode data: " ++ err)
    | .ok data => .ok data

/-! ## What a store writes -/

def aheadWritten (ahead : Slot → Delivery) : List Slot → List Slot
  | [] => []
  | i :: rest =>
    if (ahead i).acked then i :: aheadWritten ahead rest
    else if (ahead i).handled then [i] else []

def StoreRun.outcome (run : StoreRun) (userAddr : Bytes) (chunkID : ℤ) (i : Slot) : Delivery :=
  route D.self run.view.online (storeNodes D.self run.view userAddr chunkID i) (run.deliver i)

/-- The goroutines are started: the loop came through. -/
def StoreRun.starts (run : StoreRun) (userAddr : Bytes) (chunkID : ℤ) : Bool :=
  (remaining D run userAddr chunkID).all fun i => (run.ahead i).acked

def StoreRun.writes (run : StoreRun) (userAddr : Bytes) (chunkID : ℤ) (i : Slot) : Bool :=
  i ∈ aheadWritten run.ahead (remaining D run userAddr chunkID) ||
    (run.starts D userAddr chunkID && (run.outcome D userAddr chunkID i).handled)

/-- What fetching shard `j` from its recorded location returns. -/
def fetched (mesh : MeshState) (run : FetchRun) (chunk : DistributedChunk) : Fetched := fun j =>
  let peer := chunk.peer j
  if run.fetches j = true ∧ reaches D.self run.online peer = true then
    shardAt J D.self mesh chunk.userAddr chunk.chunkID peer j
  else none

end Operations

section

variable {J : JsonText} {D : DistributedStorage} {mesh : MeshState} {u : Bytes} {c : ℤ}

/-! ### The loop -/

theorem mem_of_mem_aheadWritten {ahead : Slot → Delivery} {l : List Slot} {i : Slot}
    (h : i ∈ aheadWritten ahead l) : i ∈ l := by
  induction l with
  | nil => cases h
  | cons j l ih =>
    rw [aheadWritten] at h
    split at h
    · rcases mem_cons.mp h with rfl | h
      · exact mem_cons_self
      · exact mem_cons_of_mem _ (ih h)
    · split at h
      · rw [mem_singleton.mp h]
        exact mem_cons_self
      · cases h

theorem storeNodes_of_remaining {run : StoreRun} {i : Slot} (h : i ∈ remaining D run u c) :
    storeNodes D.self run.view u c i = D.self := by
  have hle :
      (findStorageNodes D.self run.view (generateStorageKey u c) totalShards).length ≤ i := by
    obtain ⟨n, hn, hi⟩ := mem_iff_getElem.mp h
    simp only [remaining, getElem_drop, getElem_finRange] at hi
    rw [← hi]
    exact le_add_right _ _
  rw [storeNodes, shardNodes, getD_eq_getElem?_getD, List.getElem?_eq_none hle, getD_none]

theorem storeAhead_spec (J : JsonText) (D : DistributedStorage) (ahead : Slot → Delivery)
    (online : PeerID → Bool) (u : Bytes) (c : ℤ) {w : Shards} (hw : ∀ i, w i ≠ []) (l : List Slot)
    (mesh : MeshState) :
    (∀ p j, shardAt J D.self (storeAhead J D ahead online u c w l mesh).1 u c p j =
      if p = D.self ∧ j ∈ aheadWritten ahead l then some (w j)
      else shardAt J D.self mesh u c p j) ∧
    ((storeAhead J D ahead online u c w l mesh).2 = none ↔
      (l.all fun i => (ahead i).acked) = true) := by
  induction l generalizing mesh with
  | nil => simp [storeAhead, aheadWritten]
  | cons i l ih =>
    obtain ⟨hrows, hdone⟩ :=
      ih (putShard J D.self online D.self (ahead i) mesh u c i (w i)).1
    rw [storeAhead, aheadWritten, all_cons]
    rcases putShard_cases J D.self online D.self (ahead i) mesh u c i (hw i) with
      ⟨hout, hacked⟩ | ⟨err, hout, hacked⟩
    · rw [route_self] at hacked
      simp only [hout, hacked, if_true, Bool.true_and]
      refine ⟨fun p j => ?_, hdone⟩
      simp only [hrows, shardAt_putShard (hw i), route_self, handled_of_acked hacked, true_and,
        mem_cons]
      by_cases hj : j = i
      · subst hj
        by_cases hp : p = D.self <;> simp [hp]
      · simp [hj]
    · rw [route_self] at hacked
      simp only [hout, hacked, Bool.false_eq_true, if_false, Bool.false_and]
      refine ⟨fun p j => ?_, by simp⟩
      simp only [shardAt_putShard (hw i), route_self]
      cases (ahead i).handled with
      | false => simp
      | true =>
        simp only [true_and, if_true, mem_singleton]
        split
        · next h => rw [h.2]
        · rfl

/-! ### The goroutines of a store -/

/-- The rows and the location of a shard. -/
def shardPart (J : JsonText) (D : DistributedStorage) (u : Bytes) (c : ℤ) (i : Slot)
    (mesh : MeshState) (l : Locations) : (PeerID → Option Bytes) × ShardLocation :=
  (fun p => shardAt J D.self mesh u c p i, l.loc i)

def placeShard (peer : PeerID) (outcome : Delivery) (b : Bytes) (i : Slot)
    (part : (PeerID → Option Bytes) × ShardLocation) : (PeerID → Option Bytes) × ShardLocation :=
  (fun p => if outcome.handled = true ∧ p = peer then some b else part.1 p,
    if outcome.acked = true then ⟨i, peer⟩ else part.2)

theorem shardPart_putShard {online : PeerID → Bool} {peer : PeerID} {d : Delivery} {b : Bytes}
    (hne : b ≠ []) (i j : Slot) (l : Locations) :
    shardPart J D u c j (putShard J D.self online peer d mesh u c i b).1
        (if (route D.self online peer d).acked = true then l.set i peer else l) =
      if j = i then placeShard peer (route D.self online peer d) b i (shardPart J D u c j mesh l)
      else shardPart J D u c j mesh l := by
  by_cases hj : j = i
  · subst hj
    rw [if_pos rfl]
    refine Prod.ext (funext fun p => ?_) ?_
    · simp only [shardPart, placeShard, shardAt_putShard hne, and_true]
    · simp only [shardPart, placeShard]
      split
      · rw [Locations.set_loc, if_pos rfl]
      · rfl
  · refine Prod.ext (funext fun p => ?_) ?_
    · simp only [shardPart, shardAt_putShard hne, hj, and_false, if_false]
    · simp only [shardPart]
      split
      · rw [Locations.set_loc, if_neg hj]
      · rfl

section Goroutines

variable {run : StoreRun} {w : Shards}

theorem storeShard_mesh (J : JsonText) (D : DistributedStorage) (run : StoreRun) (u : Bytes) (c : ℤ)
    (w : Shards) (st : Placing) (i : Slot) :
    (storeShard J D run u c w st i).mesh = (putShard J D.self run.view.online
      (storeNodes D.self run.view u c i) (run.deliver i) st.mesh u c i (w i)).1 := by
  unfold storeShard
  simp only
  split
  · rfl
  · rfl

theorem storeShard_spec (J : JsonText) (D : DistributedStorage) (run : StoreRun)
    (hw : ∀ i, w i ≠ []) (st : Placing) (i : Slot) :
    (storeShard J D run u c w st i).locations =
      (if (run.outcome D u c i).acked = true
      then st.locations.set i (storeNodes D.self run.view u c i) else st.locations) ∧
    (storeShard J D run u c w st i).errs.length =
      st.errs.length + if !(run.outcome D u c i).acked then 1 else 0 := by
  unfold storeShard StoreRun.outcome
  rcases putShard_cases J D.self run.view.online (storeNodes D.self run.view u c i)
    (run.deliver i) st.mesh u c i (hw i) with ⟨hout, hacked⟩ | ⟨err, hout, hacked⟩
  · simp [hout, hacked]
  · simp [hout, hacked]

theorem storeShard_owns (run : StoreRun) (hw : ∀ i, w i ≠ []) :
    Owns (storeShard J D run u c w) (fun i st => shardPart J D u c i st.mesh st.locations)
      (fun i => placeShard (storeNodes D.self run.view u c i) (run.outcome D u c i) (w i) i) where
  own st i := by
    simp only [storeShard_mesh, (storeShard_spec J D run hw st i).1, StoreRun.outcome]
    exact (shardPart_putShard (hw i) i i st.locations).trans (if_pos rfl)
  other st i j hij := by
    simp only [storeShard_mesh, (storeShard_spec J D run hw st i).1, StoreRun.outcome]
    exact (shardPart_putShard (hw i) i j st.locations).trans (if_neg (Ne.symm hij))

theorem storeShards_spec (run : StoreRun) (hw : ∀ i, w i ≠ []) (st : Placing) :
    (∀ i, shardPart J D u c i (run.order.slots.foldl (storeShard J D run u c w) st).mesh
        (run.order.slots.foldl (storeShard J D run u c w) st).locations =
      placeShard (storeNodes D.self run.view u c i) (run.outcome D u c i) (w i) i
        (shardPart J D u c i st.mesh st.locations)) ∧
    (run.order.slots.foldl (storeShard J D run u c w) st).errs.length =
      st.errs.length + count fun i => !(run.outcome D u c i).acked := by
  have howns := storeShard_owns (J := J) (D := D) (u := u) (c := c) run hw
  constructor
  · intro i
    rw [howns.foldl run.order.nodup, if_pos (run.order.mem i)]
  · have herrs := howns.count run.order.nodup (fun st => st.errs.length)
      (fun i _ => !(run.outcome D u c i).acked) (fun st i => (storeShard_spec J D run hw st i).2) st
    rw [herrs, run.order.countP_eq]

end Goroutines

section Store

variable {data : Bytes} {encoded : EncodedData} {run : StoreRun}

theorem store_of_stops (J : JsonText) (mesh : MeshState)
    (hencode : encode D.encoder data = .ok encoded)
    (hstops : run.starts D u c = false) : ∃ err, storeDistributed J D mesh u c data run =
      ((storeAhead J D run.ahead run.view.online u c encoded.shards (remaining D run u c) mesh).1,
        .error err) := by
  have hne := D.encoder.ne_nil _ (encode_eq_ok hencode).1
  have hdone := (storeAhead_spec J D run.ahead run.view.online u c hne (remaining D run u c) mesh).2
  cases hloop : (storeAhead J D run.ahead run.view.online u c encoded.shards (remaining D run u c)
      mesh).2 with
  | none =>
    rw [StoreRun.starts, hdone.mp hloop] at hstops
    cases hstops
  | some err =>
    refine ⟨.localShard err.1 err.2, ?_⟩
    simp only [storeDistributed, hencode, hloop]

theorem store_of_starts (J : JsonText) (mesh : MeshState)
    (hencode : encode D.encoder data = .ok encoded)
    (hstarts : run.starts D u c = true) : storeDistributed J D mesh u c data run =
      storeShards J D run u c encoded (storeAhead J D run.ahead run.view.online u c encoded.shards
        (remaining D run u c) mesh).1 := by
  have hne := D.encoder.ne_nil _ (encode_eq_ok hencode).1
  have hloop := (storeAhead_spec J D run.ahead run.view.online u c hne (remaining D run u c)
    mesh).2.mpr hstarts
  simp only [storeDistributed, hencode, hloop]

theorem storeShards_cases (hne : ∀ i, encoded.shards i ≠ []) (J : JsonText) (mesh : MeshState) :
    (∀ p i, shardAt J D.self (storeShards J D run u c encoded mesh).1 u c p i =
      if (run.outcome D u c i).handled = true ∧ p = storeNodes D.self run.view u c i
      then some (encoded.shards i) else shardAt J D.self mesh u c p i) ∧
    ((∃ chunk, (storeShards J D run u c encoded mesh).2 = .ok chunk) ↔
      (count fun i => !(run.outcome D u c i).acked) ≤ parityShards) ∧
    ∀ chunk, (storeShards J D run u c encoded mesh).2 = .ok chunk →
      chunk.userAddr = u ∧ chunk.chunkID = c ∧ chunk.originalSize = encoded.originalSize ∧
        ∀ i, chunk.locations.loc i = if (run.outcome D u c i).acked = true
          then ⟨i, storeNodes D.self run.view u c i⟩ else .zero := by
  obtain ⟨hparts, herrs⟩ :=
    storeShards_spec (J := J) (D := D) (u := u) (c := c) run hne ⟨mesh, .unset, []⟩
  rw [length_nil, zero_add] at herrs
  simp only [shardPart, placeShard, Prod.mk.injEq, Locations.unset] at hparts
  unfold storeShards
  simp only [herrs]
  split
  · next hmany =>
    refine ⟨fun p i => congrFun (hparts i).1 p, ?_, fun chunk h => nomatch h⟩
    simp [not_le.mpr hmany]
  · next hfew =>
    refine ⟨fun p i => congrFun (hparts i).1 p, ?_, fun chunk h => ?_⟩
    · simp [Nat.le_of_not_lt hfew]
    · obtain rfl := Except.ok.inj h
      exact ⟨rfl, rfl, rfl, fun i => (hparts i).2⟩

end Store

end

variable {data u : Bytes} {encoded : EncodedData} {J : JsonText} {D : DistributedStorage}
  {mesh : MeshState} {c : ℤ} {run : StoreRun} {chunk : DistributedChunk}

section

variable (J : JsonText) (D : DistributedStorage) (mesh : MeshState) (u : Bytes) (c : ℤ)
  (run : StoreRun) (hencode : encode D.encoder data = .ok encoded)

include hencode

theorem shardAt_storeDistributed (p : PeerID) (i : Slot) :
    shardAt J D.self (storeDistributed J D mesh u c data run).1 u c p i =
      if p = storeNodes D.self run.view u c i ∧ run.writes D u c i = true
      then some (encoded.shards i) else shardAt J D.self mesh u c p i := by
  have hne := D.encoder.ne_nil _ (encode_eq_ok hencode).1
  have hloop := (storeAhead_spec J D run.ahead run.view.online u c hne (remaining D run u c)
    mesh).1 p i
  -- what the loop has written is on the shard's node, which is the node itself
  have hahead : (p = D.self ∧ i ∈ aheadWritten run.ahead (remaining D run u c)) ↔
      (p = storeNodes D.self run.view u c i ∧
        i ∈ aheadWritten run.ahead (remaining D run u c)) := by
    refine and_congr_left fun hi => ?_
    rw [storeNodes_of_remaining (mem_of_mem_aheadWritten hi)]
  rw [if_congr hahead rfl rfl] at hloop
  unfold StoreRun.writes
  cases hstarts : run.starts D u c with
  | false =>
    obtain ⟨err, hstore⟩ := store_of_stops J mesh hencode hstarts
    rw [hstore, hloop]
    simp
  | true =>
    rw [store_of_starts J mesh hencode hstarts, (storeShards_cases hne J _).1, hloop]
    by_cases hp : p = storeNodes D.self run.view u c i
    · cases (run.outcome D u c i).handled with
      | false => simp [hp]
      | true => simp [hp]
    · simp [hp]

/-- When a store succeeds. -/
theorem storeDistributed_ok_iff :
    (∃ chunk, (storeDistributed J D mesh u c data run).2 = .ok chunk) ↔
      run.starts D u c = true ∧ (count fun i => !(run.outcome D u c i).acked) ≤ parityShards := by
  have hne := D.encoder.ne_nil _ (encode_eq_ok hencode).1
  cases hstarts : run.starts D u c with
  | false =>
    obtain ⟨err, hstore⟩ := store_of_stops J mesh hencode hstarts
    simp [hstore]
  | true =>
    rw [store_of_starts J mesh hencode hstarts, (storeShards_cases hne J _).2.1]
    simp

end

theorem storeDistributed_chunk (hencode : encode D.encoder data = .ok encoded)
    (hstore : (storeDistributed J D mesh u c data run).2 = .ok chunk) :
    chunk.userAddr = u ∧ chunk.chunkID = c ∧ chunk.originalSize = encoded.originalSize ∧
      ∀ i, chunk.locations.loc i = if (run.outcome D u c i).acked = true
        then ⟨i, storeNodes D.self run.view u c i⟩ else .zero := by
  have hne := D.encoder.ne_nil _ (encode_eq_ok hencode).1
  have hstarts := ((storeDistributed_ok_iff J D mesh u c run hencode).mp ⟨chunk, hstore⟩).1
  rw [store_of_starts J mesh hencode hstarts] at hstore
  exact (storeShards_cases hne J _).2.2 chunk hstore

/-! ## What a retrieval returns -/

section

variable {J : JsonText} {D : DistributedStorage} {mesh : MeshState} {run : FetchRun}
  {chunk : DistributedChunk}

/-- The empty peer identifier is not reached. -/
theorem ne_nil_of_reaches {online : PeerID → Bool} {peer : PeerID}
    (h : reaches D.self online peer = true) : peer ≠ [] := by
  rintro rfl
  simp [reaches, D.self_ne.symm] at h

def gather (f : Fetched) (st : Gathering) (i : Slot) : Gathering :=
  match f i with
  | none => st
  | some shard => ⟨update st.shards i (some shard), st.successCount + 1⟩

variable (f : Fetched)

theorem gather_owns :
    Owns (gather f) (fun i st => st.shards i) (fun i b => (f i).or b) where
  own st i := by
    unfold gather
    cases f i with
    | none => rfl
    | some shard => exact update_self ..
  other st i j hij := by
    unfold gather
    cases f i with
    | none => rfl
    | some shard => exact update_of_ne (Ne.symm hij) ..

theorem gather_successCount (st : Gathering) (i : Slot) :
    (gather f st i).successCount = st.successCount + if (f i).isSome then 1 else 0 := by
  unfold gather
  cases f i with
  | none => rfl
  | some shard => rfl

theorem foldl_gather (order : Order) (P : Slot → Bool) :
    (order.slots.filter P).foldl (gather f) ⟨fun _ => none, 0⟩ =
      ⟨fun i => if P i = true then f i else none,
        Fetched.available fun i => if P i = true then f i else none⟩ := by
  have hnodup := order.nodup.filter P
  have hshards i := (gather_owns f).foldl hnodup ⟨fun _ => none, 0⟩ i
  have hcount := (gather_owns f).count hnodup (fun st => st.successCount)
    (fun i _ => (f i).isSome) (gather_successCount f) ⟨fun _ => none, 0⟩
  rw [zero_add, countP_filter, order.countP_eq] at hcount
  simp only [or_none, mem_filter, order.mem, true_and] at hshards
  refine (Gathering.mk.injEq ..).mpr ⟨funext hshards, hcount.trans (count_congr fun i => ?_)⟩
  cases hP : P i with
  | false => simp [hP]
  | true => simp [hP]

theorem retrieveShard_eq (J : JsonText) (D : DistributedStorage) (mesh : MeshState)
    (run : FetchRun) (chunk : DistributedChunk) :
    retrieveShard J D mesh run chunk = gather (fetched J D mesh run chunk) := by
  funext st j
  unfold retrieveShard gather fetched
  simp only [getShard_eq]
  by_cases hget : run.fetches j = true ∧
      reaches D.self run.online (chunk.peer j) = true
  · rw [chunk.locations.shardIndex_eq (ne_nil_of_reaches hget.2)]
  · simp only [if_neg hget]

end

theorem retrieveDistributed_eq (J : JsonText) (D : DistributedStorage) (mesh : MeshState)
    (run : FetchRun) (chunk : DistributedChunk) :
    retrieveDistributed J D mesh run chunk = .ok data ↔
      minShardsForRecovery ≤ (fetched J D mesh run chunk).available ∧
        decode D.encoder (fetched J D mesh run chunk) chunk.originalSize =
          .ok data := by
  have hst := foldl_gather (fetched J D mesh run chunk) run.order fun _ => true
  simp only [filter_true, if_true] at hst
  rw [retrieveDistributed, retrieveShard_eq, hst]
  by_cases hfew : (fetched J D mesh run chunk).available < minShardsForRecovery
  · simp [hfew]
  · cases hdecode : decode D.encoder (fetched J D mesh run chunk)
        chunk.originalSize with
    | error err => simp [hfew]
    | ok data' => simp [hfew, Nat.le_of_not_lt hfew]

theorem fetched_eq_some {run : FetchRun} {i : Slot} {b : Bytes} :
    fetched J D mesh run chunk i = some b ↔ run.fetches i = true ∧
      reaches D.self run.online (chunk.peer i) = true ∧
      shardAt J D.self mesh chunk.userAddr chunk.chunkID (chunk.peer i) i =
        some b := by
  unfold fetched
  simp only [ite_none_right_eq_some, and_assoc]

/-- A retrieval returns data when at least ten shards are fetched and all belong to one codeword,
that of the data. -/
theorem retrieveDistributed_ok_iff (J : JsonText) (D : DistributedStorage) (mesh : MeshState)
    (run : FetchRun) (chunk : DistributedChunk) :
    retrieveDistributed J D mesh run chunk = .ok data ↔
      minShardsForRecovery ≤ (fetched J D mesh run chunk).available ∧
        ∃ w, D.encoder.Codeword w ∧ (fetched J D mesh run chunk).Agrees w ∧
          (joinData w).take chunk.originalSize = data := by
  have hne i : fetched J D mesh run chunk i ≠ some [] := fun h =>
    shardAt_ne_nil _ i (fetched_eq_some.mp h).2.2
  rw [retrieveDistributed_eq, decode_ok_iff D.encoder hne, ← and_assoc, and_self]

theorem recorded_node (hencode : encode D.encoder data = .ok encoded)
    (hstore : (storeDistributed J D mesh u c data run).2 = .ok chunk) {i : Slot}
    (hi : chunk.peer i ≠ []) :
    (run.outcome D u c i).acked = true ∧
      chunk.peer i = storeNodes D.self run.view u c i := by
  obtain ⟨-, -, -, hlocs⟩ := storeDistributed_chunk hencode hstore
  rw [DistributedChunk.peer, hlocs i] at hi ⊢
  split
  · next hacked => exact ⟨hacked, rfl⟩
  · next hno =>
    rw [if_neg hno] at hi
    exact absurd rfl hi

variable {mesh' : MeshState}

section

variable (hstore : storeDistributed J D mesh u c data run = (mesh', .ok chunk))

include hstore

/-- A store that succeeds has encoded the data. -/
theorem encode_of_stored :
    ∃ encoded, encode D.encoder data = .ok encoded ∧
      (storeDistributed J D mesh u c data run).2 = .ok chunk := by
  cases hencode : encode D.encoder data with
  | error err => simp [storeDistributed, hencode] at hstore
  | ok encoded => exact ⟨encoded, rfl, by rw [hstore]⟩

theorem shardAt_recorded :
    ∃ w, D.encoder.Codeword w ∧ (joinData w).take chunk.originalSize = data ∧
      chunk.userAddr = u ∧ chunk.chunkID = c ∧
      ∀ i, chunk.peer i ≠ [] →
        shardAt J D.self mesh' u c (chunk.peer i) i = some (w i) := by
  obtain ⟨encoded, hencode, hok⟩ := encode_of_stored hstore
  obtain ⟨hcode, hsize, hjoin⟩ := encode_eq_ok hencode
  obtain ⟨hu, hc, horig, -⟩ := storeDistributed_chunk hencode hok
  have hstarts := ((storeDistributed_ok_iff J D mesh u c run hencode).mp ⟨chunk, hok⟩).1
  refine ⟨encoded.shards, hcode, by rw [horig, hsize, hjoin], hu, hc, fun i hi => ?_⟩
  obtain ⟨hacked, hnode⟩ := recorded_node hencode hok hi
  have hwrites : run.writes D u c i = true := by
    simp [StoreRun.writes, hstarts, handled_of_acked hacked]
  have hrow := shardAt_storeDistributed J D mesh u c run hencode
    (storeNodes D.self run.view u c i) i
  rw [if_pos ⟨rfl, hwrites⟩, hstore] at hrow
  rw [hnode]
  exact hrow

theorem fetched_stored {later : MeshState}
    (hkept : ∀ i b, shardAt J D.self later u c (chunk.peer i) i = some b →
      shardAt J D.self mesh' u c (chunk.peer i) i = some b)
    (fetch : FetchRun) :
    ∃ w, D.encoder.Codeword w ∧ (fetched J D later fetch chunk).Agrees w ∧
      (joinData w).take chunk.originalSize = data := by
  obtain ⟨w, hcode, hjoin, hu, hc, hrows⟩ := shardAt_recorded hstore
  refine ⟨w, hcode, fun i b hi => ?_, hjoin⟩
  obtain ⟨-, hreach, hlater⟩ := fetched_eq_some.mp hi
  rw [hu, hc] at hlater
  have hrow := hrows i (ne_nil_of_reaches hreach)
  rw [hkept i b hlater] at hrow
  exact some.inj hrow

end

/-- A retrieval returns the stored data while ten of the shards can be fetched from where they were
recorded and the others are lost or unchanged. -/
theorem retrieve_stored {J : JsonText} {D : DistributedStorage} {mesh mesh' : MeshState}
    {u : Bytes} {c : ℤ} {data : Bytes} {run : StoreRun} {chunk : DistributedChunk}
    (hstore : storeDistributed J D mesh u c data run = (mesh', .ok chunk)) {later : MeshState}
    (hkept : ∀ i b, shardAt J D.self later u c (chunk.peer i) i = some b →
      shardAt J D.self mesh' u c (chunk.peer i) i = some b)
    {fetch : FetchRun} (hten : minShardsForRecovery ≤ (fetched J D later fetch chunk).available) :
    retrieveDistributed J D later fetch chunk = .ok data :=
  (retrieveDistributed_ok_iff J D later fetch chunk).mpr ⟨hten, fetched_stored hstore hkept fetch⟩

/-! ## A node without peers -/

/-- Strings that are all valid. -/
def plainJson : JsonText := ⟨id, fun _ _ _ => rfl⟩

/-- A node with the code that repeats the data. -/
def soloNode : DistributedStorage := ⟨[1], by decide, mirrorCode⟩

def emptyMesh : MeshState := ⟨fun _ => .empty⟩

def soloView : View := ⟨[], fun _ => true, fun _ => true⟩

def answeredStore (view : View) : StoreRun :=
  ⟨view, fun _ => .answered, fun _ => .answered, .ascending⟩

def openFetch : FetchRun := ⟨fun _ => true, fun _ => true, .ascending⟩

theorem exists_stored (J : JsonText) (D : DistributedStorage) (mesh : MeshState) {u : Bytes} {c : ℤ}
    {data : Bytes} (hne : data ≠ []) (run : StoreRun) (hstarts : run.starts D u c = true)
    (hfew : (count fun i => !(run.outcome D u c i).acked) ≤ parityShards) :
    ∃ mesh' chunk, storeDistributed J D mesh u c data run = (mesh', .ok chunk) ∧
      ∀ i, chunk.locations.loc i = if (run.outcome D u c i).acked = true
        then ⟨i, storeNodes D.self run.view u c i⟩ else .zero := by
  obtain ⟨w, hencode, -, -⟩ := encode_ok D.encoder hne
  obtain ⟨chunk, hchunk⟩ :=
    (storeDistributed_ok_iff J D mesh u c run hencode).mpr ⟨hstarts, hfew⟩
  exact ⟨_, chunk, Prod.ext rfl hchunk, (storeDistributed_chunk hencode hchunk).2.2.2⟩

theorem store_answered (J : JsonText) (D : DistributedStorage) (mesh : MeshState) (u : Bytes)
    (c : ℤ) {data : Bytes} (hne : data ≠ []) (view : View)
    (hreach : ∀ i, reaches D.self view.online (storeNodes D.self view u c i) = true) :
    ∃ mesh' chunk, storeDistributed J D mesh u c data (answeredStore view) = (mesh', .ok chunk) ∧
      ∀ i, chunk.peer i = storeNodes D.self view u c i := by
  have hacked i : ((answeredStore view).outcome D u c i).acked = true := by
    rw [StoreRun.outcome, answeredStore, route, if_pos (hreach i)]
    rfl
  have hnone : (count fun i => !((answeredStore view).outcome D u c i).acked) = 0 :=
    countP_eq_zero.mpr fun i _ => by simp [hacked i]
  obtain ⟨mesh', chunk, hstore, hlocs⟩ := exists_stored J D mesh hne _
    (all_eq_true.mpr fun _ _ => rfl) (hnone.trans_le (zero_le _))
  refine ⟨mesh', chunk, hstore, fun i => ?_⟩
  rw [DistributedChunk.peer, hlocs i, if_pos (hacked i)]
  rfl

section Recorded

variable {J : JsonText} {D : DistributedStorage} {mesh mesh' : MeshState} {u : Bytes} {c : ℤ}
  {data : Bytes} {run : StoreRun} {chunk : DistributedChunk}

section

variable (hstore : storeDistributed J D mesh u c data run = (mesh', .ok chunk))
  (hall : ∀ i, chunk.peer i ≠ [])

include hstore hall

theorem fetched_recorded (i : Slot) : ∃ b, fetched J D mesh' openFetch chunk i = some b := by
  obtain ⟨w, -, -, hu, hc, hrows⟩ := shardAt_recorded hstore
  refine ⟨w i, fetched_eq_some.mpr ⟨rfl, ?_, by rw [hu, hc, hrows i (hall i)]⟩⟩
  simp [reaches, openFetch, hall i]

theorem available_recorded :
    minShardsForRecovery ≤ (fetched J D mesh' openFetch chunk).available := by
  have hfetched : totalShards ≤ (fetched J D mesh' openFetch chunk).available :=
    (le_count_iff _).mpr fun i =>
      isSome_iff_exists.mpr (fetched_recorded hstore hall i)
  exact le_trans (by decide) hfetched

end

end Recorded

/-- Without peers every shard is on the node itself. -/
theorem solo_storeNodes (u : Bytes) (c : ℤ) (i : Slot) :
    storeNodes soloNode.self soloView u c i = soloNode.self := storeNodes_of_nil _ rfl u c i

theorem solo_store (mesh : MeshState) (u : Bytes) (c : ℤ) {data : Bytes} (hne : data ≠ []) :
    ∃ mesh' chunk, storeDistributed plainJson soloNode mesh u c data (answeredStore soloView) =
      (mesh', .ok chunk) ∧ ∀ i, chunk.peer i = soloNode.self := by
  obtain ⟨mesh', chunk, hstore, hlocs⟩ := store_answered plainJson soloNode mesh u c hne soloView
    fun i => by rw [solo_storeNodes, reaches_self]
  exact ⟨mesh', chunk, hstore, fun i => by rw [hlocs i, solo_storeNodes]⟩

/-- Three bytes stored and retrieved by a node without peers. -/
theorem retrieve_stored_solo : ∃ mesh' chunk,
    storeDistributed plainJson soloNode emptyMesh [97] 1 [1, 2, 3] (answeredStore soloView) =
      (mesh', .ok chunk) ∧
    retrieveDistributed plainJson soloNode mesh' openFetch chunk = .ok [1, 2, 3] := by
  obtain ⟨mesh', chunk, hstore, hlocs⟩ :=
    solo_store emptyMesh [97] 1 (cons_ne_nil 1 [2, 3])
  have hall i : chunk.peer i ≠ [] :=
    (hlocs i).trans_ne soloNode.self_ne
  exact ⟨mesh', chunk, hstore,
    retrieve_stored hstore (fun _ _ h => h) (available_recorded hstore hall)⟩

end Zentalk.Mesh
