import Zentalk.Lib.Run
import Zentalk.Mesh.Distributed

/-!
# Repairing a chunk

The monitor calls `RepairChunk` for a chunk that is degraded (`monitored_data`).
-/

namespace Zentalk.Mesh

open Wire Slots Decimal Runs Option
open List hiding count

/-! ## `GetShardStatus` -/

/-- What happens during a repair: what the node sees of the others, which pings and which fetches of
a node that is reached fail nevertheless, what becomes of the requests that store shards, and the
orders in which the goroutines of the three phases finish. -/
structure RepairRun where
  view : View
  pings : Slot → Bool
  pingOrder : Order
  fetches : Slot → Bool
  fetchOrder : Order
  deliver : Slot → Delivery
  storeOrder : Order

section Operations

variable (J : JsonText) (D : DistributedStorage)

/-- The goroutine of the location `j`. -/
def pingShard (run : RepairRun) (chunk : DistributedChunk) (status : Slot → Bool) (j : Slot) :
    Slot → Bool :=
  let loc := chunk.locations.loc j
  let available :=
    if loc.peerID = D.self then true
    else reaches D.self run.view.online loc.peerID && run.pings j
  Function.update status loc.shardIndex available

/-- `GetShardStatus`. A location that was never set has the index of the first shard. -/
def getShardStatus (run : RepairRun) (chunk : DistributedChunk) : Slot → Bool :=
  run.pingOrder.slots.foldl (pingShard D run chunk) fun _ => false

/-! ## `RepairChunk` -/

/-- The goroutine that fetches the available shard `i`. -/
def fetchAvailable (mesh : MeshState) (run : RepairRun) (chunk : DistributedChunk)
    (st : Gathering) (i : Slot) : Gathering :=
  match getShard J D.self run.view.online (chunk.peer i) mesh (run.fetches i)
      chunk.userAddr chunk.chunkID i with
  | none => st
  | some shard => ⟨Function.update st.shards i (some shard), st.successCount + 1⟩

/-- What the goroutines that store shards share. -/
structure Repairing where
  mesh : MeshState
  locations : Locations
  successCount : ℕ

abbrev RepairRun.target (run : RepairRun) (chunk : DistributedChunk) (i : Slot) : PeerID :=
  storeNodes D.self run.view chunk.userAddr chunk.chunkID i

/-- The goroutine that stores the missing shard `i`. -/
def repairShard (run : RepairRun) (chunk : DistributedChunk) (w : Shards) (st : Repairing)
    (i : Slot) : Repairing :=
  let targetPeer := run.target D chunk i
  let out := putShard J D.self run.view.online targetPeer (run.deliver i) st.mesh chunk.userAddr
    chunk.chunkID i (w i)
  match out.2 with
  | .error _ => { st with mesh := out.1 }
  | .ok _ => ⟨out.1, st.locations.set i targetPeer, st.successCount + 1⟩

/-- `RepairChunk` from where it has the shards. -/
def storeMissing (mesh : MeshState) (run : RepairRun) (chunk : DistributedChunk) (w : Shards) :
    MeshState × DistributedChunk × Except Bytes Unit :=
  let missingShards := run.storeOrder.slots.filter fun i => !getShardStatus D run chunk i
  let st := missingShards.foldl (repairShard J D run chunk w) ⟨mesh, chunk.locations, 0⟩
  (st.mesh, { chunk with locations := st.locations },
    if st.successCount = 0 then .error (asciiBytes "failed to store any repaired shards")
    else .ok ())

/-- `RepairChunk` of a chunk that is not nil. -/
def repairChunk (mesh : MeshState) (run : RepairRun) (chunk : DistributedChunk) :
    MeshState × DistributedChunk × Except Bytes Unit :=
  let status := getShardStatus D run chunk
  let availableCount := count status
  if healthExcellent ≤ availableCount then (mesh, chunk, .ok ())
  else if availableCount < minShardsForRecovery then
    (mesh, chunk, .error (asciiBytes "insufficient shards for recovery: have " ++
      decimal availableCount ++ asciiBytes ", need " ++ decimal minShardsForRecovery))
  else
    let availableShards := run.fetchOrder.slots.filter status
    let st := availableShards.foldl (fetchAvailable J D mesh run chunk) ⟨fun _ => none, 0⟩
    if st.successCount < minShardsForRecovery then
      (mesh, chunk, .error (asciiBytes "failed to retrieve enough shards: got " ++
        decimal st.successCount ++ asciiBytes ", need " ++ decimal minShardsForRecovery))
    else
      match D.encoder.reconstruct st.shards with
      | .error err => (mesh, chunk, .error (asciiBytes "failed to reconstruct shards: " ++ err))
      | .ok w => storeMissing J D mesh run chunk w

/-! ## What a repair does -/

def Fetchable (online : PeerID → Bool) (mesh : MeshState) (chunk : DistributedChunk) (i : Slot)
    (b : Bytes) : Prop :=
  reaches D.self online (chunk.peer i) = true ∧
    shardAt J D.self mesh chunk.userAddr chunk.chunkID (chunk.peer i) i = some b

def Uncorrupted (online : PeerID → Bool) (mesh : MeshState) (chunk : DistributedChunk)
    (w : Shards) : Prop :=
  ∀ i b, Fetchable J D online mesh chunk i b → b = w i

def RepairRun.outcome (run : RepairRun) (chunk : DistributedChunk) (i : Slot) : Delivery :=
  route D.self run.view.online (run.target D chunk i)
    (run.deliver i)

def repairFetched (mesh : MeshState) (run : RepairRun) (chunk : DistributedChunk) : Fetched :=
  fun i =>
    if getShardStatus D run chunk i = true then
      getShard J D.self run.view.online (chunk.peer i) mesh (run.fetches i)
        chunk.userAddr chunk.chunkID i
    else none

/-- Shards of `w` that did not count as available are on their nodes, and recorded where that was
answered. -/
structure Repaired (mesh : MeshState) (run : RepairRun) (chunk : DistributedChunk) (w : Shards)
    (mesh' : MeshState) (chunk' : DistributedChunk) : Prop where
  userAddr : chunk'.userAddr = chunk.userAddr
  chunkID : chunk'.chunkID = chunk.chunkID
  originalSize : chunk'.originalSize = chunk.originalSize
  rows : ∀ p i, shardAt J D.self mesh' chunk.userAddr chunk.chunkID p i =
    if getShardStatus D run chunk i = false ∧ (run.outcome D chunk i).handled = true ∧
        p = run.target D chunk i
    then some (w i) else shardAt J D.self mesh chunk.userAddr chunk.chunkID p i
  locs : ∀ i, chunk'.locations.loc i =
    if getShardStatus D run chunk i = false ∧ (run.outcome D chunk i).acked = true
    then ⟨i, run.target D chunk i⟩
    else chunk.locations.loc i

end Operations

section

variable {J : JsonText} {D : DistributedStorage} {mesh : MeshState} {run : RepairRun}
  {chunk : DistributedChunk} {w : Shards}

/-! ### Fetching what is available -/

theorem fetchAvailable_spec (J : JsonText) (D : DistributedStorage) (mesh : MeshState)
    (run : RepairRun) (chunk : DistributedChunk) :
    (run.fetchOrder.slots.filter (getShardStatus D run chunk)).foldl
        (fetchAvailable J D mesh run chunk) ⟨fun _ => none, 0⟩ =
      ⟨repairFetched J D mesh run chunk, (repairFetched J D mesh run chunk).available⟩ :=
  foldl_gather (fun i => getShard J D.self run.view.online (chunk.peer i) mesh
    (run.fetches i) chunk.userAddr chunk.chunkID i) run.fetchOrder (getShardStatus D run chunk)

theorem fetchable_of_repairFetched {i : Slot} {b : Bytes}
    (h : repairFetched J D mesh run chunk i = some b) :
    Fetchable J D run.view.online mesh chunk i b := by
  rw [repairFetched, ite_none_right_eq_some, getShard_eq, ite_none_right_eq_some] at h
  exact ⟨h.2.1.2, h.2.2⟩

theorem available_repairFetched_le :
    (repairFetched J D mesh run chunk).available ≤ count (getShardStatus D run chunk) := by
  refine count_mono fun i hi => ?_
  obtain ⟨b, hb⟩ := isSome_iff_exists.mp hi
  exact (ite_none_right_eq_some.mp hb).1

/-! ### Storing what is missing -/

theorem repairShard_mesh (J : JsonText) (D : DistributedStorage) (run : RepairRun)
    (chunk : DistributedChunk) (w : Shards) (st : Repairing) (i : Slot) :
    (repairShard J D run chunk w st i).mesh = (putShard J D.self run.view.online
      (run.target D chunk i) (run.deliver i) st.mesh
      chunk.userAddr chunk.chunkID i (w i)).1 := by
  unfold repairShard
  simp only
  split
  · rfl
  · rfl

section

variable (J : JsonText) (D : DistributedStorage) (run : RepairRun) (chunk : DistributedChunk)
  (hw : ∀ i, w i ≠ [])

include hw

theorem repairShard_spec (st : Repairing) (i : Slot) :
    (repairShard J D run chunk w st i).locations =
      (if (run.outcome D chunk i).acked = true
      then st.locations.set i (run.target D chunk i)
      else st.locations) ∧
    (repairShard J D run chunk w st i).successCount =
      st.successCount + if (run.outcome D chunk i).acked then 1 else 0 := by
  unfold repairShard RepairRun.outcome
  rcases putShard_cases J D.self run.view.online
    (run.target D chunk i) (run.deliver i) st.mesh
    chunk.userAddr chunk.chunkID i (hw i) with ⟨hout, hacked⟩ | ⟨err, hout, hacked⟩
  · simp [hout, hacked]
  · simp [hout, hacked]

theorem repairShard_owns :
    Owns (repairShard J D run chunk w)
      (fun i st => shardPart J D chunk.userAddr chunk.chunkID i st.mesh st.locations)
      (fun i => placeShard (run.target D chunk i)
        (run.outcome D chunk i) (w i) i) where
  own st i := by
    simp only [repairShard_mesh, (repairShard_spec J D run chunk hw st i).1, RepairRun.outcome]
    exact (shardPart_putShard (hw i) i i st.locations).trans (if_pos rfl)
  other st i j hij := by
    simp only [repairShard_mesh, (repairShard_spec J D run chunk hw st i).1, RepairRun.outcome]
    exact (shardPart_putShard (hw i) i j st.locations).trans (if_neg (Ne.symm hij))

end

section

variable (J : JsonText) (D : DistributedStorage) (mesh : MeshState) (run : RepairRun)
  (chunk : DistributedChunk) (hw : ∀ i, w i ≠ [])

include hw

theorem storeMissing_repaired :
    Repaired J D mesh run chunk w (storeMissing J D mesh run chunk w).1
      (storeMissing J D mesh run chunk w).2.1 := by
  have hparts i := (repairShard_owns J D run chunk hw).foldl
    (run.storeOrder.nodup.filter fun i => !getShardStatus D run chunk i)
    ⟨mesh, chunk.locations, 0⟩ i
  simp only [mem_filter, run.storeOrder.mem, true_and, Bool.not_eq_true', shardPart,
    placeShard] at hparts
  refine ⟨rfl, rfl, rfl, fun p i => ?_, fun i => ?_⟩
  · have hrow := congrFun (congrArg Prod.fst (hparts i)) p
    refine hrow.trans ?_
    cases getShardStatus D run chunk i with
    | false => simp only [if_true, true_and]
    | true => simp only [Bool.true_eq_false, if_false, false_and]
  · have hloc := congrArg Prod.snd (hparts i)
    refine hloc.trans ?_
    cases getShardStatus D run chunk i with
    | false => simp only [if_true, true_and]
    | true => simp only [Bool.true_eq_false, if_false, false_and]

theorem storeMissing_ok_iff :
    (storeMissing J D mesh run chunk w).2.2 = .ok () ↔
      ∃ i, getShardStatus D run chunk i = false ∧ (run.outcome D chunk i).acked = true := by
  have hcount := (repairShard_owns J D run chunk hw).count
    (run.storeOrder.nodup.filter fun i => !getShardStatus D run chunk i)
    (fun st => st.successCount) (fun i _ => (run.outcome D chunk i).acked)
    (fun st i => (repairShard_spec J D run chunk hw st i).2) ⟨mesh, chunk.locations, 0⟩
  rw [Nat.zero_add] at hcount
  unfold storeMissing
  simp only [hcount]
  split
  · next hzero =>
    rw [countP_eq_zero] at hzero
    refine iff_of_false (fun h => nomatch h) ?_
    rintro ⟨i, hstatus, hacked⟩
    exact hzero i (mem_filter.mpr ⟨run.storeOrder.mem i, by rw [hstatus]; rfl⟩) hacked
  · next hsome =>
    refine iff_of_true rfl ?_
    obtain ⟨i, hi, hacked⟩ := countP_pos_iff.mp (Nat.pos_of_ne_zero hsome)
    exact ⟨i, by simpa using (mem_filter.mp hi).2, hacked⟩

end

end

variable {chunk : DistributedChunk} {D : DistributedStorage} {mesh : MeshState}

/-- A repair leaves everything as it is, and then returns nil only when every shard counts as
available, or puts shards of the codeword on their nodes. -/
theorem repairChunk_cases {J : JsonText} {run : RepairRun} {w : Shards}
    (hcode : D.encoder.Codeword w) (hgood : Uncorrupted J D run.view.online mesh chunk w) :
    (∃ r, repairChunk J D mesh run chunk = (mesh, chunk, r) ∧
      (r = .ok () ↔ ∀ i, getShardStatus D run chunk i = true) ∧
      ((∀ i, getShardStatus D run chunk i = true) ∨
        (repairFetched J D mesh run chunk).available < minShardsForRecovery)) ∨
    Repaired J D mesh run chunk w (repairChunk J D mesh run chunk).1
        (repairChunk J D mesh run chunk).2.1 ∧
      minShardsForRecovery ≤ (repairFetched J D mesh run chunk).available ∧
      (∃ i, getShardStatus D run chunk i = false) ∧
      ((repairChunk J D mesh run chunk).2.2 = .ok () ↔
        ∃ i, getShardStatus D run chunk i = false ∧ (run.outcome D chunk i).acked = true) := by
  unfold repairChunk
  simp only [fetchAvailable_spec]
  split
  · next hall =>
    have hstatus := (le_count_iff _).mp hall
    exact .inl ⟨_, rfl, iff_of_true rfl hstatus, .inl hstatus⟩
  · next hsome =>
    have hmissing : ¬ ∀ i, getShardStatus D run chunk i = true := mt (le_count_iff _).mpr hsome
    split
    · next hfew =>
      exact .inl ⟨_, rfl, iff_of_false (fun h => nomatch h) hmissing,
        .inr (available_repairFetched_le.trans_lt hfew)⟩
    · split
      · next hfew =>
        exact .inl ⟨_, rfl, iff_of_false (fun h => nomatch h) hmissing, .inr hfew⟩
      · next hten =>
        -- ten shards of the codeword bring it back
        have hrecover := D.encoder.recovers _ w hcode
          (fun i b hi => hgood i b (fetchable_of_repairFetched hi)) (Nat.le_of_not_lt hten)
        rw [hrecover]
        have hne := D.encoder.ne_nil w hcode
        exact .inr ⟨storeMissing_repaired J D mesh run chunk hne, Nat.le_of_not_lt hten,
          by simpa using hmissing, storeMissing_ok_iff J D mesh run chunk hne⟩

theorem repairChunk_ok_iff {J : JsonText} {run : RepairRun} {w : Shards}
    (hcode : D.encoder.Codeword w) (hgood : Uncorrupted J D run.view.online mesh chunk w) :
    (repairChunk J D mesh run chunk).2.2 = .ok () ↔
      (∀ i, getShardStatus D run chunk i = true) ∨
      (minShardsForRecovery ≤ (repairFetched J D mesh run chunk).available ∧
        ∃ i, getShardStatus D run chunk i = false ∧ (run.outcome D chunk i).acked = true) := by
  rcases repairChunk_cases hcode hgood with ⟨r, hrepair, hok, hwhy⟩ | ⟨-, hten, hsome, hok⟩
  · rw [hrepair, hok]
    refine ⟨.inl, fun h => ?_⟩
    rcases h with hall | ⟨hten, -⟩
    · exact hall
    · exact hwhy.resolve_right (Nat.not_lt.mpr hten)
  · rw [hok]
    obtain ⟨i, hi⟩ := hsome
    refine ⟨fun h => .inr ⟨hten, h⟩, fun h => ?_⟩
    rcases h with hall | ⟨-, h⟩
    · rw [hall i] at hi
      cases hi
    · exact h

/-! ## Safety and completeness -/

section

variable {J : JsonText} {D : DistributedStorage} {mesh mesh' : MeshState} {run : RepairRun}
  {chunk chunk' : DistributedChunk} {w : Shards}

theorem fetchable_repaired_iff (h : Repaired J D mesh run chunk w mesh' chunk') (i : Slot) :
    Fetchable J D run.view.online mesh' chunk' i (w i) ↔
      Fetchable J D run.view.online mesh chunk i (w i) ∨
      (getShardStatus D run chunk i = false ∧ ((run.outcome D chunk i).acked = true ∨
        ((run.outcome D chunk i).handled = true ∧
          chunk.peer i = run.target D chunk i))) := by
  unfold Fetchable
  rw [h.userAddr, h.chunkID, h.rows, DistributedChunk.peer, h.locs]
  by_cases hmoved : getShardStatus D run chunk i = false ∧ (run.outcome D chunk i).acked = true
  · have hhandled := handled_of_acked hmoved.2
    rw [if_pos hmoved, if_pos ⟨hmoved.1, hhandled, rfl⟩]
    exact iff_of_true ⟨reaches_of_handled hhandled, rfl⟩ (.inr ⟨hmoved.1, .inl hmoved.2⟩)
  · rw [if_neg hmoved]
    by_cases hrow : getShardStatus D run chunk i = false ∧
        (run.outcome D chunk i).handled = true ∧
          chunk.peer i = run.target D chunk i
    · rw [if_pos hrow]
      refine iff_of_true ⟨?_, rfl⟩ (.inr ⟨hrow.1, .inr hrow.2⟩)
      exact (congrArg (reaches _ _) hrow.2.2).trans (reaches_of_handled hrow.2.1)
    · rw [if_neg hrow]
      refine ⟨.inl, fun hi => hi.resolve_right ?_⟩
      rintro ⟨hstatus, hacked | hhandled⟩
      · exact hmoved ⟨hstatus, hacked⟩
      · exact hrow ⟨hstatus, hhandled⟩

theorem uncorrupted_repaired (h : Repaired J D mesh run chunk w mesh' chunk')
    {online : PeerID → Bool} (hgood : Uncorrupted J D online mesh chunk w) :
    Uncorrupted J D online mesh' chunk' w := by
  rintro i b ⟨hreach, hrow⟩
  rw [h.userAddr, h.chunkID, h.rows] at hrow
  split at hrow
  · exact (some.inj hrow).symm
  · next hold =>
    have hstay : ¬ (getShardStatus D run chunk i = false ∧
        (run.outcome D chunk i).acked = true) := by
      rintro ⟨hstatus, hacked⟩
      refine hold ⟨hstatus, handled_of_acked hacked, ?_⟩
      rw [DistributedChunk.peer, h.locs, if_pos ⟨hstatus, hacked⟩]
    rw [DistributedChunk.peer, h.locs, if_neg hstay] at hreach hrow
    exact hgood i b ⟨hreach, hrow⟩

theorem retrieve_of_uncorrupted {fetch : FetchRun} (hcode : D.encoder.Codeword w)
    (hgood : Uncorrupted J D fetch.online mesh chunk w)
    (hten : minShardsForRecovery ≤ (fetched J D mesh fetch chunk).available) :
    retrieveDistributed J D mesh fetch chunk = .ok ((joinData w).take chunk.originalSize) := by
  have hagrees : (fetched J D mesh fetch chunk).Agrees w := fun i b hi =>
    hgood i b (fetched_eq_some.mp hi).2
  exact (retrieveDistributed_ok_iff J D mesh fetch chunk).mpr ⟨hten, w, hcode, hagrees, rfl⟩

end

/-- However a repair ends, what could be fetched can be fetched after it, and is the same; all that
can be fetched is uncorrupted, and a retrieval returns the same data. -/
theorem repair_safe {J : JsonText} {D : DistributedStorage} {mesh : MeshState} {run : RepairRun}
    {chunk : DistributedChunk} {w : Shards} (hcode : D.encoder.Codeword w)
    (hgood : Uncorrupted J D run.view.online mesh chunk w) :
    (∀ i b, Fetchable J D run.view.online mesh chunk i b →
      Fetchable J D run.view.online (repairChunk J D mesh run chunk).1
        (repairChunk J D mesh run chunk).2.1 i b) ∧
    Uncorrupted J D run.view.online (repairChunk J D mesh run chunk).1
      (repairChunk J D mesh run chunk).2.1 w ∧
    ∀ (fetch : FetchRun) (data : Bytes), fetch.online = run.view.online →
      retrieveDistributed J D mesh fetch chunk = .ok data →
      retrieveDistributed J D (repairChunk J D mesh run chunk).1 fetch
        (repairChunk J D mesh run chunk).2.1 = .ok data := by
  rcases repairChunk_cases hcode hgood with ⟨r, hrepair, -⟩ | ⟨hrepaired, -⟩
  · rw [hrepair]
    exact ⟨fun _ _ h => h, hgood, fun _ _ _ h => h⟩
  · have hkept : ∀ i b, Fetchable J D run.view.online mesh chunk i b →
        Fetchable J D run.view.online (repairChunk J D mesh run chunk).1
          (repairChunk J D mesh run chunk).2.1 i b := by
      intro i b hi
      have hb := hgood i b hi
      subst hb
      exact (fetchable_repaired_iff hrepaired i).mpr (.inl hi)
    have hgood' := uncorrupted_repaired hrepaired hgood
    refine ⟨hkept, hgood', fun fetch data honline hretrieve => ?_⟩
    have hten := ((retrieveDistributed_ok_iff J D mesh fetch chunk).mp hretrieve).1
    rw [← honline] at hgood hgood' hkept
    rw [← hretrieve, retrieve_of_uncorrupted hcode hgood hten,
      retrieve_of_uncorrupted hcode hgood' ?_, hrepaired.originalSize]
    -- what was fetched before is fetched after the repair
    refine hten.trans (count_mono fun i hi => ?_)
    obtain ⟨b, hb⟩ := isSome_iff_exists.mp hi
    obtain ⟨hfetch, hbefore⟩ := fetched_eq_some.mp hb
    exact isSome_iff_exists.mpr ⟨b, fetched_eq_some.mpr ⟨hfetch, hkept i b hbefore⟩⟩

/-- After a repair that returned nil, every shard can be fetched just when each of them could be
before, or did not count as available and was stored where it is recorded. -/
theorem repair_complete_iff {J : JsonText} {D : DistributedStorage} {mesh : MeshState}
    {run : RepairRun} {chunk : DistributedChunk} {w : Shards} (hcode : D.encoder.Codeword w)
    (hgood : Uncorrupted J D run.view.online mesh chunk w)
    (hnil : (repairChunk J D mesh run chunk).2.2 = .ok ()) :
    (∀ i, Fetchable J D run.view.online (repairChunk J D mesh run chunk).1
      (repairChunk J D mesh run chunk).2.1 i (w i)) ↔
    ∀ i, Fetchable J D run.view.online mesh chunk i (w i) ∨
      (getShardStatus D run chunk i = false ∧ ((run.outcome D chunk i).acked = true ∨
        ((run.outcome D chunk i).handled = true ∧
          chunk.peer i = run.target D chunk i))) := by
  rcases repairChunk_cases hcode hgood with ⟨r, hrepair, hok, -⟩ | ⟨hrepaired, -⟩
  · rw [hrepair] at hnil ⊢
    refine forall_congr' fun i => ?_
    rw [hok.mp hnil i]
    simp
  · exact forall_congr' (fetchable_repaired_iff hrepaired)

/-! ## Repairs by a node without peers -/

/-- No peer is connected, and none can be reached. -/
def darkView : View := ⟨[], fun _ => true, fun _ => false⟩

def answeredRepair (view : View) : RepairRun :=
  ⟨view, fun _ => true, .ascending, fun _ => true, .ascending, fun _ => .answered, .ascending⟩

def homeChunk : DistributedChunk :=
  ⟨[97], 1, 3, 3, ⟨fun i => ⟨i, soloNode.self⟩, fun _ => .inr rfl⟩⟩

def strayChunk : DistributedChunk := { homeChunk with locations := homeChunk.locations.set 3 [2] }

abbrev strayRepair (mesh : MeshState) : MeshState × DistributedChunk × Except Bytes Unit :=
  repairChunk plainJson soloNode mesh (answeredRepair darkView) strayChunk

section

theorem exists_home : ∃ mesh w, soloNode.encoder.Codeword w ∧
    ∀ i, shardAt plainJson soloNode.self mesh [97] 1 soloNode.self i = some (w i) := by
  obtain ⟨mesh, chunk, hstore, hlocs⟩ := solo_store emptyMesh [97] 1 (cons_ne_nil 1 [2, 3])
  obtain ⟨w, hcode, -, -, -, hrows⟩ := shardAt_recorded hstore
  refine ⟨mesh, w, hcode, fun i => ?_⟩
  have hrow := hrows i ((hlocs i).trans_ne soloNode.self_ne)
  rwa [hlocs i] at hrow

theorem homeChunk_status (i : Slot) :
    getShardStatus soloNode (answeredRepair darkView) homeChunk i = true := by
  revert i
  decide

theorem strayChunk_status (i : Slot) :
    getShardStatus soloNode (answeredRepair darkView) strayChunk i = decide (i ≠ 3) := by
  revert i
  decide

variable {mesh : MeshState}

theorem fetchable_home {i : Slot} {b : Bytes} :
    Fetchable plainJson soloNode darkView.online mesh homeChunk i b ↔
      shardAt plainJson soloNode.self mesh [97] 1 soloNode.self i = some b :=
  and_iff_right reaches_self

theorem fetchable_stray {i : Slot} {b : Bytes} :
    Fetchable plainJson soloNode darkView.online mesh strayChunk i b ↔
      i ≠ 3 ∧ shardAt plainJson soloNode.self mesh [97] 1 soloNode.self i = some b := by
  unfold Fetchable strayChunk
  simp only [DistributedChunk.peer, Locations.set_loc]
  by_cases hi : i = 3
  · simp only [hi, if_true, ne_eq, not_true_eq_false, false_and, iff_false, not_and]
    exact fun hreach => absurd hreach (by decide)
  · simp only [hi, if_false, ne_eq, not_false_eq_true, true_and]
    exact and_iff_right reaches_self

theorem strayChunk_acked :
    ((answeredRepair darkView).outcome soloNode strayChunk 3).acked = true := by
  have hnode : storeNodes soloNode.self darkView [97] 1 3 = soloNode.self :=
    storeNodes_of_nil _ rfl [97] 1 3
  simp only [RepairRun.outcome, strayChunk, homeChunk, answeredRepair, hnode, route_self]
  rfl

theorem stray_repair {w : Shards} (hcode : soloNode.encoder.Codeword w)
    (hrows : ∀ i, shardAt plainJson soloNode.self mesh [97] 1 soloNode.self i = some (w i)) :
    Uncorrupted plainJson soloNode darkView.online mesh strayChunk w ∧
    (strayRepair mesh).2.2 = .ok () := by
  have hgood : Uncorrupted plainJson soloNode darkView.online mesh strayChunk w := by
    intro i b hi
    have hrow := (fetchable_stray.mp hi).2
    rw [hrows i] at hrow
    exact (some.inj hrow).symm
  refine ⟨hgood, (repairChunk_ok_iff hcode hgood).mpr
    (.inr ⟨?_, 3, strayChunk_status 3, strayChunk_acked⟩)⟩
  have hfetched : minShardsForRecovery ≤ count fun i : Slot => decide (i ≠ 3) := by decide
  refine hfetched.trans (count_mono fun i hi => ?_)
  obtain ⟨hreach, hrow⟩ := fetchable_stray.mpr ⟨of_decide_eq_true hi, hrows i⟩
  rw [repairFetched, strayChunk_status, if_pos hi, getShard_eq, if_pos ⟨rfl, hreach⟩, hrow]
  rfl

end

theorem repair_safe_stray : ∃ mesh w, soloNode.encoder.Codeword w ∧
    Uncorrupted plainJson soloNode darkView.online mesh strayChunk w ∧
    ∀ i, i ≠ 3 → Fetchable plainJson soloNode darkView.online (strayRepair mesh).1
      (strayRepair mesh).2.1 i (w i) := by
  obtain ⟨mesh, w, hcode, hrows⟩ := exists_home
  have hgood : Uncorrupted plainJson soloNode (answeredRepair darkView).view.online mesh
      strayChunk w := (stray_repair hcode hrows).1
  obtain ⟨hkept, -⟩ := repair_safe hcode hgood
  exact ⟨mesh, w, hcode, hgood, fun i hi =>
    hkept i (w i) (fetchable_stray.mpr ⟨hi, hrows i⟩)⟩

theorem repair_complete_stray : ∃ mesh w, soloNode.encoder.Codeword w ∧
    Uncorrupted plainJson soloNode darkView.online mesh strayChunk w ∧
    (∀ b, ¬ Fetchable plainJson soloNode darkView.online mesh strayChunk 3 b) ∧
    (strayRepair mesh).2.2 = .ok () ∧
    ∀ i, Fetchable plainJson soloNode darkView.online (strayRepair mesh).1
      (strayRepair mesh).2.1 i (w i) := by
  obtain ⟨mesh, w, hcode, hrows⟩ := exists_home
  obtain ⟨hgood, hnil⟩ := stray_repair hcode hrows
  refine ⟨mesh, w, hcode, hgood, fun b h => (fetchable_stray.mp h).1 rfl, hnil,
    (repair_complete_iff hcode hgood hnil).mpr fun i => ?_⟩
  by_cases hi : i = 3
  · subst hi
    exact .inr ⟨strayChunk_status 3, .inl strayChunk_acked⟩
  · exact .inl (fetchable_stray.mpr ⟨hi, hrows i⟩)

/-- The node has lost a shard, and a repair returns nil without having stored it again. -/
theorem repair_misses_lost_shard : ∃ mesh w, soloNode.encoder.Codeword w ∧
    Uncorrupted plainJson soloNode darkView.online mesh homeChunk w ∧
    (∀ i, i ≠ 3 → Fetchable plainJson soloNode darkView.online mesh homeChunk i (w i)) ∧
    repairChunk plainJson soloNode mesh (answeredRepair darkView) homeChunk =
      (mesh, homeChunk, .ok ()) ∧
    ∀ b, ¬ Fetchable plainJson soloNode darkView.online mesh homeChunk 3 b := by
  obtain ⟨stored, w, hcode, hrows⟩ := exists_home
  set mesh := (dropShard plainJson soloNode.self darkView.online soloNode.self .answered stored
    [97] 1 3).1 with hmesh
  have hrow i : shardAt plainJson soloNode.self mesh [97] 1 soloNode.self i =
      if i = 3 then none else some (w i) := by
    rw [hmesh, shardAt_dropShard, route_self, hrows i]
    simp [Delivery.handled]
  have hgood : Uncorrupted plainJson soloNode darkView.online mesh homeChunk w := by
    intro i b hi
    have hb := fetchable_home.mp hi
    rw [hrow i] at hb
    split at hb
    · cases hb
    · exact (some.inj hb).symm
  refine ⟨mesh, w, hcode, hgood, fun i hi => ?_, ?_, fun b hb => ?_⟩
  · exact fetchable_home.mpr (by rw [hrow i, if_neg hi])
  · have hall : healthExcellent ≤ count (getShardStatus soloNode (answeredRepair darkView)
        homeChunk) := (le_count_iff _).mpr homeChunk_status
    simp only [repairChunk, if_pos hall]
  · have hb' := fetchable_home.mp hb
    rw [hrow 3, if_pos rfl] at hb'
    cases hb'

/-! ## The health monitor -/

def healthGood : ℕ := 13
def healthDegraded : ℕ := 11
def healthCritical : ℕ := 10

/-- `CheckAndRepairIfNeeded`, and the goroutine of a chunk in `checkAllChunks`. `health` is what
happens while the health is calculated; `int(health * 15)` is the number of available shards, for
each of the sixteen numbers. -/
def checkAndRepairIfNeeded (J : JsonText) (D : DistributedStorage) (mesh : MeshState)
    (health run : RepairRun) (chunk : DistributedChunk) :
    MeshState × DistributedChunk × Except Bytes Unit :=
  let availableShards := count (getShardStatus D health chunk)
  if healthGood ≤ availableShards then (mesh, chunk, .ok ())
  else if healthDegraded ≤ availableShards then repairChunk J D mesh run chunk
  else if healthCritical ≤ availableShards then repairChunk J D mesh run chunk
  else (mesh, chunk, .error (asciiBytes "chunk health too low for repair: " ++
    decimal availableShards ++ asciiBytes "/15 shards (need at least " ++ decimal healthCritical ++
    asciiBytes ")"))

/-- A pass of the monitor, or any change to the tables by which no row of the chunk is written:
losses, deletes, and what is done to other chunks. -/
inductive MonitorStep (J : JsonText) (D : DistributedStorage) :
    MeshState × DistributedChunk → Option (RepairRun × RepairRun) →
      MeshState × DistributedChunk → Prop
  | checked (mesh : MeshState) (chunk : DistributedChunk) (health run : RepairRun) :
      MonitorStep J D (mesh, chunk) (some (health, run))
        ((checkAndRepairIfNeeded J D mesh health run chunk).1,
          (checkAndRepairIfNeeded J D mesh health run chunk).2.1)
  | changed (mesh mesh' : MeshState) (chunk : DistributedChunk)
      (h : ∀ p i b, shardAt J D.self mesh' chunk.userAddr chunk.chunkID p i = some b →
        shardAt J D.self mesh chunk.userAddr chunk.chunkID p i = some b) :
      MonitorStep J D (mesh, chunk) none (mesh', chunk)

section

variable {J : JsonText} {D : DistributedStorage} {w : Shards}

/-- Whatever can be fetched, by whomever it can be reached, is a shard of the codeword. -/
def Intact (J : JsonText) (D : DistributedStorage) (w : Shards) (size : ℕ)
    (s : MeshState × DistributedChunk) : Prop :=
  (∀ online, Uncorrupted J D online s.1 s.2 w) ∧ s.2.originalSize = size

theorem intact_step (hcode : D.encoder.Codeword w) {size : ℕ} {s s' : MeshState × DistributedChunk}
    {pass : Option (RepairRun × RepairRun)} (h : Intact J D w size s)
    (hstep : MonitorStep J D s pass s') : Intact J D w size s' := by
  cases hstep with
  | checked mesh chunk health run =>
    have hrepair : Intact J D w size
        ((repairChunk J D mesh run chunk).1, (repairChunk J D mesh run chunk).2.1) := by
      rcases repairChunk_cases hcode (h.1 run.view.online) with ⟨r, heq, -⟩ | ⟨hrepaired, -⟩
      · rw [heq]
        exact h
      · exact ⟨fun online => uncorrupted_repaired hrepaired (h.1 online),
          hrepaired.originalSize.trans h.2⟩
    unfold checkAndRepairIfNeeded
    dsimp only
    split
    · exact h
    · split
      · exact hrepair
      · split
        · exact hrepair
        · exact h
  | changed mesh mesh' chunk hlost =>
    exact ⟨fun online i b hfetch => h.1 online i b ⟨hfetch.1, hlost _ i b hfetch.2⟩, h.2⟩

end

/-- However often the monitor repairs a stored chunk and whatever is lost in between, a retrieval
returns the stored data or finds too few shards. -/
theorem monitored_data {J : JsonText} {D : DistributedStorage} {before stored mesh : MeshState}
    {u : Bytes} {c : ℤ} {data : Bytes} {run : StoreRun} {record chunk : DistributedChunk}
    (hstore : storeDistributed J D before u c data run = (stored, .ok record))
    {passes : List (Option (RepairRun × RepairRun))}
    (hrun : Run (MonitorStep J D) (stored, record) passes (mesh, chunk)) (fetch : FetchRun)
    (out : Bytes) :
    retrieveDistributed J D mesh fetch chunk = .ok out ↔
      minShardsForRecovery ≤ (fetched J D mesh fetch chunk).available ∧ out = data := by
  obtain ⟨w, hcode, hdata, rfl, rfl, hrows⟩ := shardAt_recorded hstore
  have hintact : Intact J D w record.originalSize (mesh, chunk) := by
    refine hrun.invariant ⟨fun online i b hfetch => ?_, rfl⟩ fun _ _ _ h => intact_step hcode h
    rw [Fetchable, hrows i (ne_nil_of_reaches hfetch.1)] at hfetch
    exact (some.inj hfetch.2).symm
  have hretrieve (hten : minShardsForRecovery ≤ (fetched J D mesh fetch chunk).available) :
      retrieveDistributed J D mesh fetch chunk = .ok data := by
    rw [retrieve_of_uncorrupted hcode (hintact.1 fetch.online) hten, hintact.2, hdata]
  constructor
  · intro hok
    have hten := ((retrieveDistributed_ok_iff J D mesh fetch chunk).mp hok).1
    exact ⟨hten, Except.ok.inj (hok.symm.trans (hretrieve hten))⟩
  · rintro ⟨hten, rfl⟩
    exact hretrieve hten

/-- A store in which the last three shards fail. -/
def shortStore : StoreRun :=
  { answeredStore soloView with
    deliver := fun i => if (i : ℕ) < 12 then .answered else .failed [] }

theorem short_stored : ∃ stored record,
    storeDistributed plainJson soloNode emptyMesh [97] 1 [1, 2, 3] shortStore =
      (stored, .ok record) ∧
    ∀ i, record.locations.loc i = if (i : ℕ) < 12 then ⟨i, soloNode.self⟩ else .zero := by
  have houtcome i : shortStore.outcome soloNode [97] 1 i =
      if (i : ℕ) < 12 then .answered else .failed [] := by
    simp only [StoreRun.outcome, shortStore, answeredStore, solo_storeNodes, route_self]
  have hfew : (count fun i => !(shortStore.outcome soloNode [97] 1 i).acked) ≤ parityShards := by
    simp only [houtcome]
    decide
  obtain ⟨stored, record, hstore, hlocs⟩ := exists_stored plainJson soloNode emptyMesh
    (cons_ne_nil 1 [2, 3]) shortStore (all_eq_true.mpr fun _ _ => rfl) hfew
  refine ⟨stored, record, hstore, fun i => ?_⟩
  rw [hlocs i, houtcome, show shortStore.view = soloView from rfl, solo_storeNodes]
  split <;> rfl

/-- The locations that were not set are looked up as those of the first shard. -/
theorem short_status {record : DistributedChunk}
    (hloc : ∀ i, record.locations.loc i = if (i : ℕ) < 12 then ⟨i, soloNode.self⟩ else .zero)
    (i : Slot) : getShardStatus soloNode (answeredRepair soloView) record i =
      decide (1 ≤ (i : ℕ) ∧ (i : ℕ) < 12) := by
  have hping : pingShard soloNode (answeredRepair soloView) record = fun status (j : Slot) =>
      if (j : ℕ) < 12 then Function.update status j true else Function.update status 0 false := by
    funext status j
    rw [pingShard, hloc]
    split <;> rfl
  rw [getShardStatus, hping]
  revert i
  decide

/-- The next pass stores the three shards. -/
theorem monitored_data_repaired : ∃ stored record mesh chunk,
    storeDistributed plainJson soloNode emptyMesh [97] 1 [1, 2, 3] shortStore =
      (stored, .ok record) ∧
    record.peer 14 = [] ∧
    checkAndRepairIfNeeded plainJson soloNode stored (answeredRepair soloView)
      (answeredRepair soloView) record = (mesh, chunk, .ok ()) ∧
    retrieveDistributed plainJson soloNode mesh openFetch chunk = .ok [1, 2, 3] := by
  let run := answeredRepair soloView
  obtain ⟨stored, record, hstore, hloc⟩ := short_stored
  obtain ⟨w, hcode, -, hu, hc, hrows⟩ := shardAt_recorded hstore
  have hstatus := short_status hloc
  have hgood : Uncorrupted plainJson soloNode run.view.online stored record w := by
    intro i b hb
    rw [Fetchable, hu, hc, hrows i (ne_nil_of_reaches hb.1)] at hb
    exact (some.inj hb.2).symm
  have hfetchable (i : Slot) (hi : (i : ℕ) < 12) :
      Fetchable plainJson soloNode run.view.online stored record i (w i) := by
    have hpeer : record.peer i = soloNode.self := by rw [DistributedChunk.peer, hloc, if_pos hi]
    rw [Fetchable, hu, hc, hrows i (hpeer.trans_ne soloNode.self_ne), hpeer]
    exact ⟨reaches_self, rfl⟩
  have hten : minShardsForRecovery ≤ count fun i : Slot => decide (1 ≤ (i : ℕ) ∧ (i : ℕ) < 12) := by
    decide
  have hnil : (repairChunk plainJson soloNode stored run record).2.2 = .ok () := by
    refine (repairChunk_ok_iff hcode hgood).mpr (.inr ⟨?_, 14, hstatus 14, ?_⟩)
    · refine hten.trans (count_mono fun i hi => ?_)
      obtain ⟨hreach, hrow⟩ := hfetchable i (of_decide_eq_true hi).2
      rw [repairFetched, hstatus, if_pos hi, getShard_eq, if_pos ⟨rfl, hreach⟩, hrow]
      rfl
    · simp only [RepairRun.outcome, RepairRun.target, run, answeredRepair, hu, hc,
        solo_storeNodes, route_self]
      rfl
  have hcheck : checkAndRepairIfNeeded plainJson soloNode stored run run record =
      repairChunk plainJson soloNode stored run record := by
    have hcount : count (getShardStatus soloNode run record) = 11 := by
      rw [funext hstatus]
      decide
    rw [checkAndRepairIfNeeded, hcount]
    rfl
  have hrun : Run (MonitorStep plainJson soloNode) (stored, record) ([] ++ [some (run, run)]) _ :=
    Run.nil.snoc (.checked stored record run run)
  rw [hcheck] at hrun
  refine ⟨stored, record, _, _, hstore, by rw [DistributedChunk.peer, hloc]; rfl,
    hcheck.trans (Prod.ext rfl (Prod.ext rfl hnil)), (monitored_data hstore hrun openFetch _).mpr
      ⟨hten.trans (count_mono fun i hi => ?_), rfl⟩⟩
  have hkept := (repair_safe hcode hgood).1 i (w i) (hfetchable i (of_decide_eq_true hi).2)
  exact isSome_iff_exists.mpr ⟨w i, fetched_eq_some.mpr ⟨rfl, hkept⟩⟩

end Zentalk.Mesh
