import Zentalk.Lib.Run
import Zentalk.Mesh.Delete

/-!
# The life of a chunk

Stores, repairs and deletes of one chunk, while peers come and go.

Results:
1. `delete_effective_iff`: when a deleted chunk is gone.
2. `overwrite_keeps_iff`: when a failed store leaves what was there.
-/

namespace Zentalk.Mesh

open Wire Slots Runs ErasureEncoder
open List hiding count

/-! ## States of a chunk -/

/-- The tables of all nodes, the latest record of the chunk, and whether a delete has returned nil
since the chunk was stored last. -/
structure ChunkState (u : Bytes) (c : ℤ) where
  mesh : MeshState
  record : Option DistributedChunk
  deleted : Bool
  owned : ∀ chunk, record = some chunk → chunk.userAddr = u ∧ chunk.chunkID = c

inductive ChunkOp
  | store (data : Bytes) (run : StoreRun)
  | repair (run : RepairRun)
  | delete (run : DeleteRun)

namespace ChunkState

/-- The chunk has never been stored. -/
def start (u : Bytes) (c : ℤ) (mesh : MeshState) : ChunkState u c :=
  ⟨mesh, none, false, fun _ h => nomatch h⟩

def recorded {u : Bytes} {c : ℤ} (mesh : MeshState) (chunk : DistributedChunk) (deleted : Bool)
    (h : chunk.userAddr = u ∧ chunk.chunkID = c) : ChunkState u c :=
  ⟨mesh, some chunk, deleted, fun _ heq => Option.some.inj heq ▸ h⟩

end ChunkState

theorem store_owned {J : JsonText} {D : DistributedStorage} {mesh mesh' : MeshState} {u : Bytes}
    {c : ℤ} {data : Bytes} {run : StoreRun} {chunk : DistributedChunk}
    (hstore : storeDistributed J D mesh u c data run = (mesh', .ok chunk)) :
    chunk.userAddr = u ∧ chunk.chunkID = c := by
  obtain ⟨w, -, -, hu, hc, -⟩ := shardAt_recorded hstore
  exact ⟨hu, hc⟩

theorem repair_owned (J : JsonText) (D : DistributedStorage) (mesh : MeshState) (run : RepairRun)
    (chunk : DistributedChunk) :
    (repairChunk J D mesh run chunk).2.1.userAddr = chunk.userAddr ∧
      (repairChunk J D mesh run chunk).2.1.chunkID = chunk.chunkID := by
  unfold repairChunk
  simp only
  split
  · exact ⟨rfl, rfl⟩
  · split
    · exact ⟨rfl, rfl⟩
    · split
      · exact ⟨rfl, rfl⟩
      · split
        · exact ⟨rfl, rfl⟩
        · exact ⟨rfl, rfl⟩

/-- One operation. Only a store that returns a chunk replaces the record, and a repair
updates it. -/
inductive ChunkStep (J : JsonText) (D : DistributedStorage) {u : Bytes} {c : ℤ} :
    ChunkState u c → ChunkOp → ChunkState u c → Prop
  | stored {s : ChunkState u c} {data run mesh chunk}
      (h : storeDistributed J D s.mesh u c data run = (mesh, .ok chunk)) :
      ChunkStep J D s (.store data run) (.recorded mesh chunk false (store_owned h))
  | notStored {s : ChunkState u c} {data run mesh err}
      (h : storeDistributed J D s.mesh u c data run = (mesh, .error err)) :
      ChunkStep J D s (.store data run) { s with mesh := mesh }
  | repaired {s : ChunkState u c} {run chunk} (h : s.record = some chunk) :
      ChunkStep J D s (.repair run) (.recorded (repairChunk J D s.mesh run chunk).1
        (repairChunk J D s.mesh run chunk).2.1 s.deleted
        ⟨(repair_owned J D s.mesh run chunk).1.trans (s.owned chunk h).1,
          (repair_owned J D s.mesh run chunk).2.trans (s.owned chunk h).2⟩)
  | deleted {s : ChunkState u c} {run mesh} (h : deleteChunk J D s.mesh u c run = (mesh, .ok ())) :
      ChunkStep J D s (.delete run) { s with mesh := mesh, deleted := true }
  | notDeleted {s : ChunkState u c} {run mesh err}
      (h : deleteChunk J D s.mesh u c run = (mesh, .error err)) :
      ChunkStep J D s (.delete run) { s with mesh := mesh }

section Effect

variable (J : JsonText) (D : DistributedStorage) {u : Bytes} {c : ℤ}

/-- If the chunk has been deleted, fewer than ten shards can be fetched with the latest record, and
a retrieval fails. -/
def Gone (s : ChunkState u c) : Prop :=
  s.deleted = true → ∀ chunk, s.record = some chunk → ∀ fetch : FetchRun,
    (fetched J D s.mesh fetch chunk).available < minShardsForRecovery ∧
      ∃ err, retrieveDistributed J D s.mesh fetch chunk = .error err

def heldAt (mesh : MeshState) (u : Bytes) (c : ℤ) (l : Locations) (i : Slot) : Bool :=
  decide ((l.loc i).peerID ≠ []) && (shardAt J D.self mesh u c (l.loc i).peerID i).isSome

/-- The store writes a shard again on the node that the record has for it. -/
def overwrites (u : Bytes) (c : ℤ) (run : StoreRun) (chunk : DistributedChunk) (i : Slot) : Bool :=
  decide (chunk.peer i = storeNodes D.self run.view u c i) && run.writes D u c i

/-- The delete asks another node for a shard than the record has for it, or its request is lost. -/
def misses (u : Bytes) (c : ℤ) (run : DeleteRun) (chunk : DistributedChunk) (i : Slot) : Bool :=
  decide (chunk.peer i ≠ deleteNodes D.self run.view u c i) ||
    !(run.outcome D u c i).handled

/-- What an operation needs. A delete for which ten shards are where it asks for them, and these
requests are acknowledged, misses fewer than ten of the recorded shards. A store after a delete that
is not acknowledged by enough nodes leaves fewer than ten recorded shards, with those that it writes
again. -/
def Effective (s : ChunkState u c) : ChunkOp → Prop
  | .store data run =>
    data ≠ [] → ¬ (run.starts D u c = true ∧
        (count fun i => !(run.outcome D u c i).acked) ≤ parityShards) →
      s.deleted = true → ∀ chunk, s.record = some chunk →
        (count fun i => heldAt J D s.mesh u c chunk.locations i ||
          (decide (chunk.peer i ≠ []) && overwrites D u c run chunk i)) <
          minShardsForRecovery
  | .repair _ => True
  | .delete run =>
    (minRequired ≤ count fun i =>
        (run.outcome D u c i).acked && heldAtTarget J D s.mesh u c run i) →
      ∀ chunk, s.record = some chunk →
        (count fun i => heldAt J D s.mesh u c chunk.locations i && misses D u c run chunk i) <
          minShardsForRecovery

end Effect

section

variable {J : JsonText} {D : DistributedStorage} {u : Bytes} {c : ℤ} {mesh : MeshState}
  {chunk : DistributedChunk}

theorem available_fetched_le (hu : chunk.userAddr = u) (hc : chunk.chunkID = c) (fetch : FetchRun) :
    (fetched J D mesh fetch chunk).available ≤ count (heldAt J D mesh u c chunk.locations) := by
  refine count_mono fun i hi => ?_
  obtain ⟨b, hb⟩ := Option.isSome_iff_exists.mp hi
  obtain ⟨-, hreach, hrow⟩ := fetched_eq_some.mp hb
  rw [hu, hc] at hrow
  simp [heldAt, ne_nil_of_reaches hreach, hrow]

theorem available_openFetch (hu : chunk.userAddr = u) (hc : chunk.chunkID = c) :
    (fetched J D mesh openFetch chunk).available = count (heldAt J D mesh u c chunk.locations) := by
  refine (available_fetched_le hu hc openFetch).antisymm (count_mono fun i hi => ?_)
  rw [heldAt, Bool.and_eq_true, decide_eq_true_eq] at hi
  obtain ⟨b, hb⟩ := Option.isSome_iff_exists.mp hi.2
  refine Option.isSome_iff_exists.mpr ⟨b, fetched_eq_some.mpr ⟨rfl, ?_, by rw [hu, hc, hb]⟩⟩
  simp [reaches, openFetch, hi.1]

theorem gone_iff {s : ChunkState u c} : Gone J D s ↔
    (s.deleted = true → ∀ chunk, s.record = some chunk →
      count (heldAt J D s.mesh u c chunk.locations) < minShardsForRecovery) := by
  refine forall_congr' fun _ => forall_congr' fun chunk => forall_congr' fun hrec => ?_
  obtain ⟨hu, hc⟩ := s.owned chunk hrec
  constructor
  · intro h
    have hopen := (h openFetch).1
    rwa [available_openFetch hu hc] at hopen
  · intro hfew fetch
    have hless := (available_fetched_le hu hc fetch).trans_lt hfew
    refine ⟨hless, ?_⟩
    cases hret : retrieveDistributed J D s.mesh fetch chunk with
    | error err => exact ⟨err, rfl⟩
    | ok data =>
      have hten := ((retrieveDistributed_ok_iff J D s.mesh fetch chunk).mp hret).1
      exact absurd hten (Nat.not_le.mpr hless)

theorem chunkStep_unique (s : ChunkState u c) (op : ChunkOp) (s₁ s₂ : ChunkState u c)
    (h₁ : ChunkStep J D s op s₁) (h₂ : ChunkStep J D s op s₂) : s₁ = s₂ := by
  cases h₁ with
  | stored h =>
    cases h₂ with
    | stored h' => cases h.symm.trans h'; rfl
    | notStored h' => cases h.symm.trans h'
  | notStored h =>
    cases h₂ with
    | stored h' => cases h.symm.trans h'
    | notStored h' => cases h.symm.trans h'; rfl
  | repaired h =>
    cases h₂ with
    | repaired h' => cases h.symm.trans h'; rfl
  | deleted h =>
    cases h₂ with
    | deleted h' => cases h.symm.trans h'; rfl
    | notDeleted h' => cases h.symm.trans h'
  | notDeleted h =>
    cases h₂ with
    | deleted h' => cases h.symm.trans h'
    | notDeleted h' => cases h.symm.trans h'; rfl

/-! ### The operations -/

theorem heldAt_store (J : JsonText) (D : DistributedStorage) (mesh : MeshState) (u : Bytes) (c : ℤ)
    {data : Bytes} (hne : data ≠ []) (run : StoreRun) (chunk : DistributedChunk) :
    heldAt J D (storeDistributed J D mesh u c data run).1 u c chunk.locations = fun i =>
      (heldAt J D mesh u c chunk.locations i ||
        (decide (chunk.peer i ≠ []) && overwrites D u c run chunk i)) := by
  funext i
  obtain ⟨w, hencode, -, -⟩ := encode_ok D.encoder hne
  rw [heldAt, shardAt_storeDistributed J D mesh u c run hencode, heldAt, overwrites]
  by_cases hnode : chunk.peer i = storeNodes D.self run.view u c i
  · cases run.writes D u c i with
    | false => simp
    | true => by_cases hpeer : chunk.peer i = [] <;> simp [← hnode, hpeer]
  · simp [hnode]

theorem heldAt_delete (J : JsonText) (D : DistributedStorage) (mesh : MeshState) (u : Bytes) (c : ℤ)
    (run : DeleteRun) (chunk : DistributedChunk) :
    heldAt J D (deleteChunk J D mesh u c run).1 u c chunk.locations = fun i =>
      (heldAt J D mesh u c chunk.locations i && misses D u c run chunk i) := by
  funext i
  rw [heldAt, shardAt_deleteChunk, heldAt, misses]
  cases (run.outcome D u c i).handled with
  | false => simp
  | true =>
    by_cases hnode : chunk.peer i = deleteNodes D.self run.view u c i
    · simp [hnode]
    · simp [hnode]

/-- With fewer than ten shards there is nothing to repair from. -/
theorem repair_of_few (run : RepairRun) (hu : chunk.userAddr = u) (hc : chunk.chunkID = c)
    (h : count (heldAt J D mesh u c chunk.locations) < minShardsForRecovery) :
    ∃ r, repairChunk J D mesh run chunk = (mesh, chunk, r) := by
  have hfew : (repairFetched J D mesh run chunk).available < minShardsForRecovery := by
    refine (count_mono fun i hi => ?_).trans_lt h
    obtain ⟨b, hb⟩ := Option.isSome_iff_exists.mp hi
    obtain ⟨hreach, hrow⟩ := fetchable_of_repairFetched hb
    rw [hu, hc] at hrow
    simp [heldAt, ne_nil_of_reaches hreach, hrow]
  unfold repairChunk
  simp only [fetchAvailable_spec, if_pos hfew]
  split
  · exact ⟨_, rfl⟩
  · split
    · exact ⟨_, rfl⟩
    · exact ⟨_, rfl⟩

theorem gone_step {s s' : ChunkState u c} {op : ChunkOp} (h : Gone J D s)
    (hstep : ChunkStep J D s op s') : Gone J D s' ↔ Effective J D s op := by
  rw [gone_iff] at h ⊢
  cases hstep with
  | @stored data run mesh chunk hstore =>
    refine iff_of_true (fun hdel => nomatch hdel) fun _ hfailed => ?_
    obtain ⟨encoded, hencode, hok⟩ := encode_of_stored hstore
    exact absurd ((storeDistributed_ok_iff J D s.mesh u c run hencode).mp ⟨chunk, hok⟩) hfailed
  | @notStored data run mesh err hstore =>
    have hmesh : mesh = (storeDistributed J D s.mesh u c data run).1 := by rw [hstore]
    subst hmesh
    by_cases hne : data = []
    · subst hne
      exact iff_of_true h fun hne => absurd rfl hne
    · obtain ⟨w, hencode, -, -⟩ := encode_ok D.encoder hne
      have hfailed : ¬ (run.starts D u c = true ∧
          (count fun i => !(run.outcome D u c i).acked) ≤ parityShards) := by
        rw [← storeDistributed_ok_iff J D s.mesh u c run hencode, hstore]
        rintro ⟨chunk, hok⟩
        cases hok
      simp only [Effective, heldAt_store J D s.mesh u c hne]
      exact ⟨fun hgone _ _ => hgone, fun heff => heff hne hfailed⟩
  | @repaired run chunk hrec =>
    refine iff_of_true (fun hdel chunk' hrec' => ?_) trivial
    have hfew := h hdel chunk hrec
    obtain ⟨hu, hc⟩ := s.owned chunk hrec
    obtain ⟨r, hrepair⟩ := repair_of_few run hu hc hfew
    simp only [ChunkState.recorded, hrepair, Option.some.injEq] at hrec' ⊢
    rwa [← hrec']
  | @deleted run mesh hdelete =>
    have hmesh : mesh = (deleteChunk J D s.mesh u c run).1 := by rw [hdelete]
    subst hmesh
    have hok := (deleteChunk_ok_iff J D s.mesh u c run).mp (by rw [hdelete])
    simp only [Effective, heldAt_delete]
    exact ⟨fun hgone _ => hgone trivial, fun heff _ => heff hok⟩
  | @notDeleted run mesh err hdelete =>
    have hmesh : mesh = (deleteChunk J D s.mesh u c run).1 := by rw [hdelete]
    subst hmesh
    refine iff_of_true (fun hdel chunk hrec => ?_) fun hok => ?_
    · refine lt_of_le_of_lt (count_mono fun i hi => ?_) (h hdel chunk hrec)
      rw [heldAt_delete, Bool.and_eq_true] at hi
      exact hi.1
    · rw [← deleteChunk_ok_iff J D s.mesh u c run, hdelete] at hok
      cases hok

end

/-- A chunk is gone whenever it has been deleted, until it is stored again, just when every
operation of the run is effective. -/
theorem delete_effective_iff {J : JsonText} {D : DistributedStorage} {u : Bytes} {c : ℤ}
    {mesh : MeshState} {ops : List ChunkOp} {s : ChunkState u c}
    (hrun : Run (ChunkStep J D) (ChunkState.start u c mesh) ops s) :
    (∀ pre post s', ops = pre ++ post → Run (ChunkStep J D) (ChunkState.start u c mesh) pre s' →
      Gone J D s') ↔
    Guarded (ChunkStep J D) (ChunkState.start u c mesh) (fun _ s op => Effective J D s op) ops :=
  Run.always_iff_guarded chunkStep_unique
    (fun hdel => absurd hdel Bool.false_ne_true) (fun _ _ _ _ h hstep => gone_step h hstep) hrun

theorem solo_delete {mesh : MeshState} {u : Bytes} {c : ℤ}
    (h : ∀ i, shardAt plainJson soloNode.self mesh u c soloNode.self i ≠ none) :
    ∃ mesh', deleteChunk plainJson soloNode mesh u c (answeredDelete soloView) = (mesh', .ok ()) ∧
      ∀ p i, shardAt plainJson soloNode.self mesh' u c p i =
        if p = soloNode.self then none else shardAt plainJson soloNode.self mesh u c p i := by
  have hok : (deleteChunk plainJson soloNode mesh u c (answeredDelete soloView)).2 = .ok () := by
    rw [deleteChunk_ok_iff]
    have hheld : totalShards ≤ count fun i =>
        ((answeredDelete soloView).outcome soloNode u c i).acked &&
          heldAtTarget plainJson soloNode mesh u c (answeredDelete soloView) i := by
      refine (le_count_iff _).mpr fun i => ?_
      rw [solo_outcome, heldAtTarget, answeredDelete, solo_deleteNodes,
        Option.isSome_iff_ne_none.mpr (h i)]
      rfl
    exact le_trans (by decide) hheld
  refine ⟨_, by rw [← hok], fun p i => ?_⟩
  rw [shardAt_deleteChunk, solo_outcome, answeredDelete, solo_deleteNodes]
  simp only [Delivery.handled, true_and]

def tenPeers : List PeerID := [0, 16, 32, 48, 64, 80, 96, 112, 128, 144].map peerWith

def tenNodes : List PeerID :=
  [32, 48, 0, 16, 96, 112, 64, 80, 128, 144].map peerWith ++ [soloNode.self]

theorem tenPeers_store : findStorageNodes soloNode.self (viewOf tenPeers)
    (generateStorageKey [97] 1) totalShards = tenNodes := by
  decide +kernel

theorem delete_effective_solo : ∃ s : ChunkState [97] 1,
    Run (ChunkStep plainJson soloNode) (ChunkState.start [97] 1 emptyMesh)
      [.store [1, 2, 3] (answeredStore soloView), .delete (answeredDelete soloView)] s ∧
    s.deleted = true ∧ s.record ≠ none ∧ Gone plainJson soloNode s := by
  obtain ⟨mesh, chunk, hstore, hlocs⟩ := solo_store emptyMesh [97] 1 (cons_ne_nil 1 [2, 3])
  have hall i : chunk.peer i ≠ [] := (hlocs i).trans_ne soloNode.self_ne
  have hheld i : shardAt plainJson soloNode.self mesh [97] 1 soloNode.self i ≠ none := by
    have hrow := (shardAt_stored_all hstore hall i).2.1
    simpa only [answeredStore, solo_storeNodes] using hrow
  obtain ⟨mesh', hdelete, -⟩ := solo_delete hheld
  have hfirst : Run (ChunkStep plainJson soloNode) (ChunkState.start [97] 1 emptyMesh)
      ([] ++ [.store [1, 2, 3] (answeredStore soloView)]) _ := Run.nil.snoc (.stored hstore)
  have hrun := hfirst.snoc (.deleted hdelete)
  refine ⟨_, hrun, rfl, Option.some_ne_none chunk,
    (delete_effective_iff hrun).mpr ?_ _ [] _ (append_nil _).symm hrun⟩
  have hguarded : Guarded (ChunkStep plainJson soloNode) (ChunkState.start [97] 1 emptyMesh)
      (fun _ s op => Effective plainJson soloNode s op)
      ([] ++ [.store [1, 2, 3] (answeredStore soloView)]) := by
    refine Guarded.nil.snoc_of_run chunkStep_unique .nil fun _ _ hdel => ?_
    exact absurd hdel Bool.false_ne_true
  refine hguarded.snoc_of_run chunkStep_unique hfirst fun _ chunk' hrec => ?_
  obtain rfl : chunk = chunk' := Option.some.inj hrec
  -- every shard is deleted where it is recorded
  have hnone : (count fun i => heldAt plainJson soloNode mesh [97] 1 chunk.locations i &&
      misses soloNode [97] 1 (answeredDelete soloView) chunk i) = 0 := by
    refine countP_eq_zero.mpr fun i _ => ?_
    rw [misses, solo_outcome, hlocs i, answeredDelete, solo_deleteNodes]
    simp [Delivery.handled]
  exact hnone.trans_lt (by decide)

/-- A chunk is stored without peers, and again with ten peers, which leave. A delete removes the
fifteen shards of the node, ten of them from the first store, and returns nil. With the peers back,
the chunk is retrieved. -/
theorem deleted_chunk_retrieved : ∃ (s : ChunkState [97] 1) (chunk : DistributedChunk),
    Run (ChunkStep plainJson soloNode) (ChunkState.start [97] 1 emptyMesh)
      [.store [1, 2, 3] (answeredStore soloView),
        .store [4, 5, 6] (answeredStore (viewOf tenPeers)), .delete (answeredDelete soloView)] s ∧
    s.deleted = true ∧ s.record = some chunk ∧
    retrieveDistributed plainJson soloNode s.mesh openFetch chunk = .ok [4, 5, 6] := by
  obtain ⟨mesh₁, chunk₁, hstore₁, hlocs₁⟩ :=
    solo_store emptyMesh [97] 1 (cons_ne_nil 1 [2, 3])
  obtain ⟨mesh₂, chunk, hstore₂, hlocs₂⟩ := store_viewOf mesh₁ [97] 1 (cons_ne_nil 4 [5, 6])
    tenPeers (by rw [tenPeers_store]; decide)
  have hnodes : ∀ i : Slot, (i : ℕ) < 10 →
      shardNodes soloNode.self tenNodes i ≠ soloNode.self ∧
        shardNodes soloNode.self tenNodes i ≠ [] := by decide +kernel
  have hloc i : chunk.peer i = shardNodes soloNode.self tenNodes i := by
    rw [hlocs₂ i, storeNodes, tenPeers_store]
  have hstored₁ := shardAt_stored_all hstore₁ fun i => (hlocs₁ i).trans_ne soloNode.self_ne
  have hstored₂ := shardAt_stored_all hstore₂ fun i =>
    (hlocs₂ i).trans_ne (storeNodes_ne_nil (by rw [tenPeers_store]; decide) i)
  -- the node has a copy of every shard, from the first store or from the second
  have hself i : shardAt plainJson soloNode.self mesh₂ [97] 1 soloNode.self i ≠ none := by
    by_cases hnode : soloNode.self = storeNodes soloNode.self (viewOf tenPeers) [97] 1 i
    · have hrow := (hstored₂ i).2.1
      simp only [answeredStore] at hrow
      rwa [← hnode] at hrow
    · rw [(hstored₂ i).2.2 _ hnode]
      have hrow := (hstored₁ i).2.1
      simpa only [answeredStore, solo_storeNodes] using hrow
  obtain ⟨mesh₃, hdelete, hrows⟩ := solo_delete hself
  have hfirst : Run (ChunkStep plainJson soloNode) (ChunkState.start [97] 1 emptyMesh)
      ([] ++ [.store [1, 2, 3] (answeredStore soloView)]) _ := Run.nil.snoc (.stored hstore₁)
  have hsecond := hfirst.snoc (.stored hstore₂)
  refine ⟨_, chunk, hsecond.snoc (.deleted hdelete), rfl, rfl, ?_⟩
  refine (retrieveDistributed_ok_iff ..).mpr
    ⟨?_, fetched_stored hstore₂ (fun i b hb => ?_) openFetch⟩
  · have hten : minShardsForRecovery ≤ count fun i : Slot => decide ((i : ℕ) < 10) := by decide
    obtain ⟨w, -, -, hu, hc, hrecorded⟩ := shardAt_recorded hstore₂
    refine hten.trans (count_mono fun i hi => ?_)
    obtain ⟨hpeer, hne⟩ := hnodes i (of_decide_eq_true hi)
    rw [← hloc i] at hpeer hne
    refine Option.isSome_iff_exists.mpr ⟨w i, fetched_eq_some.mpr ⟨rfl, ?_, ?_⟩⟩
    · simp [reaches, openFetch, hne]
    · rw [hu, hc, hrows, if_neg hpeer, hrecorded i hne]
  · rw [hrows] at hb
    split at hb
    · cases hb
    · exact hb

/-! ## Storing over a chunk -/

theorem fetched_overwritten {J : JsonText} {D : DistributedStorage} {mesh mesh' : MeshState}
    {u : Bytes} {c : ℤ} {data data' : Bytes} {run : StoreRun} {chunk : DistributedChunk}
    (hstore : storeDistributed J D mesh u c data run = (mesh', .ok chunk)) {encoded : EncodedData}
    (hencode : encode D.encoder data' = .ok encoded) (run' : StoreRun)
    (fetch : FetchRun) (i : Slot) :
    fetched J D (storeDistributed J D mesh' u c data' run').1 fetch chunk i =
      (fetched J D mesh' fetch chunk i).map fun b =>
        if overwrites D u c run' chunk i then encoded.shards i else b := by
  obtain ⟨w, -, -, hu, hc, hrows⟩ := shardAt_recorded hstore
  unfold fetched
  simp only [hu, hc, shardAt_storeDistributed J D mesh' u c run' hencode]
  by_cases hget : fetch.fetches i = true ∧
      reaches D.self fetch.online (chunk.peer i) = true
  · rw [if_pos hget, if_pos hget, hrows i (ne_nil_of_reaches hget.2), Option.map_some]
    have hwritten : (chunk.peer i = storeNodes D.self run'.view u c i ∧
        run'.writes D u c i = true) ↔ overwrites D u c run' chunk i = true := by
      rw [overwrites, Bool.and_eq_true, decide_eq_true_eq]
    rw [if_congr hwritten rfl rfl, apply_ite some]
  · rw [if_neg hget, if_neg hget, Option.map_none]

/-- After a later store of other data, the previous record returns the previous data just when the
shards that it fetches still belong to one codeword of it. -/
theorem overwrite_keeps_iff {J : JsonText} {D : DistributedStorage} {mesh mesh' : MeshState}
    {u : Bytes} {c : ℤ} {data data' : Bytes} {run : StoreRun} {chunk : DistributedChunk}
    (hstore : storeDistributed J D mesh u c data run = (mesh', .ok chunk)) {encoded : EncodedData}
    (hencode : encode D.encoder data' = .ok encoded) (run' : StoreRun)
    {fetch : FetchRun} (hten : minShardsForRecovery ≤ (fetched J D mesh' fetch chunk).available) :
    retrieveDistributed J D (storeDistributed J D mesh' u c data' run').1 fetch chunk = .ok data ↔
      ∃ w, D.encoder.Codeword w ∧ (joinData w).take chunk.originalSize = data ∧
        ∀ i b, fetched J D mesh' fetch chunk i = some b →
          (if overwrites D u c run' chunk i then encoded.shards i else b) = w i := by
  have hafter := fetched_overwritten hstore hencode run' fetch
  have havailable : (fetched J D (storeDistributed J D mesh' u c data' run').1 fetch
      chunk).available = (fetched J D mesh' fetch chunk).available :=
    count_congr fun i => by rw [hafter i, Option.isSome_map]
  rw [retrieveDistributed_ok_iff, havailable, and_iff_right hten]
  refine exists_congr fun w => and_congr_right fun _ => ?_
  rw [and_comm]
  refine and_congr_right fun _ => ⟨fun hagrees i b hb => ?_, fun h i b hb => ?_⟩
  · exact hagrees i _ (by rw [hafter i, hb, Option.map_some])
  · rw [hafter i, Option.map_eq_some_iff] at hb
    obtain ⟨old, hold, rfl⟩ := hb
    exact h i old hold

def failedStore (view : View) : StoreRun :=
  ⟨view, fun _ => .failed [], fun _ => .failed [], .ascending⟩

section

theorem failedStore_outcome (D : DistributedStorage) (view : View) (u : Bytes) (c : ℤ) (i : Slot) :
    ((failedStore view).outcome D u c i).handled = false := by
  unfold StoreRun.outcome route failedStore
  split
  · rfl
  · rfl

theorem failedStore_writes (D : DistributedStorage) (view : View) (u : Bytes) (c : ℤ) (i : Slot) :
    (failedStore view).writes D u c i = false := by
  have hahead l : aheadWritten (failedStore view).ahead l = [] := by
    cases l with
    | nil => rfl
    | cons j l => rfl
  rw [StoreRun.writes, hahead, failedStore_outcome]
  simp

/-- A store when the six peers do not answer. -/
abbrev darkStore : StoreRun := answeredStore (unreachable sixPeers)

theorem sixPeers_outcome (i : Slot) :
    darkStore.outcome soloNode [97] 14 i =
      if 6 ≤ (i : ℕ) then .answered else .failed (asciiBytes "failed to open stream") := by
  have hnode : storeNodes soloNode.self (unreachable sixPeers) [97] 14 i =
      shardNodes soloNode.self sixNodes i := by
    rw [storeNodes_unreachable, storeNodes, sixPeers_store]
  simp only [StoreRun.outcome, darkStore, answeredStore, hnode, route_sixNodes]

theorem sixPeers_writes (i : Slot) :
    darkStore.writes soloNode [97] 14 i = decide (6 ≤ (i : ℕ)) := by
  have hself : ∀ i : Slot, shardNodes soloNode.self sixNodes i = soloNode.self → 6 ≤ (i : ℕ) := by
    decide +kernel
  have hstarts : darkStore.starts soloNode [97] 14 = true :=
    all_eq_true.mpr fun _ _ => rfl
  rw [StoreRun.writes, hstarts, sixPeers_outcome]
  by_cases hi : 6 ≤ (i : ℕ)
  · simp [hi, Delivery.handled]
  · have hahead : i ∉ aheadWritten darkStore.ahead (remaining soloNode darkStore [97] 14) := by
      intro hmem
      have hnode := storeNodes_of_remaining (mem_of_mem_aheadWritten hmem)
      simp only [darkStore, answeredStore, storeNodes_unreachable, storeNodes,
        sixPeers_store] at hnode
      exact hi (hself i hnode)
    simp [hi, hahead, Delivery.handled]

variable (mesh : MeshState)

theorem store_fails (u : Bytes) (c : ℤ) {data : Bytes} (hne : data ≠ []) {run : StoreRun}
    (hmany : ¬ (count fun i => !(run.outcome soloNode u c i).acked) ≤ parityShards) :
    ∃ err, (storeDistributed plainJson soloNode mesh u c data run).2 = .error err := by
  obtain ⟨w, hencode, -, -⟩ := encode_ok soloNode.encoder hne
  have hok := storeDistributed_ok_iff plainJson soloNode mesh u c run hencode
  cases hstore : (storeDistributed plainJson soloNode mesh u c data run).2 with
  | error err => exact ⟨err, rfl⟩
  | ok chunk => exact absurd (hok.mp ⟨chunk, hstore⟩).2 hmany

/-- A store that fails: six of the shards are not acknowledged. -/
theorem sixPeers_store_fails :
    ∃ err, (storeDistributed plainJson soloNode mesh [97] 14 [9, 9, 9] darkStore).2 =
      .error err := by
  refine store_fails mesh [97] 14 (cons_ne_nil 9 [9, 9]) ?_
  simp only [sixPeers_outcome]
  decide

theorem failedStore_fails : ∃ err, (storeDistributed plainJson soloNode mesh
    [97] 1 [9, 9, 9] (failedStore soloView)).2 = .error err := by
  refine store_fails mesh [97] 1 (cons_ne_nil 9 [9, 9]) ?_
  simp only [StoreRun.outcome, failedStore, solo_storeNodes, route_self]
  decide

end

theorem overwrite_keeps_solo : ∃ mesh chunk err,
    storeDistributed plainJson soloNode emptyMesh [97] 1 [1, 2, 3] (answeredStore soloView) =
      (mesh, .ok chunk) ∧
    (storeDistributed plainJson soloNode mesh [97] 1 [9, 9, 9] (failedStore soloView)).2 =
      .error err ∧
    retrieveDistributed plainJson soloNode (storeDistributed plainJson soloNode mesh [97] 1
      [9, 9, 9] (failedStore soloView)).1 openFetch chunk = .ok [1, 2, 3] := by
  obtain ⟨mesh, chunk, hstore, hlocs⟩ := solo_store emptyMesh [97] 1 (cons_ne_nil 1 [2, 3])
  obtain ⟨w', hencode, -, -⟩ := encode_ok soloNode.encoder (cons_ne_nil 9 [9, 9])
  have hall i : chunk.peer i ≠ [] := (hlocs i).trans_ne soloNode.self_ne
  obtain ⟨w, hcode, hagrees, hjoin⟩ := fetched_stored hstore (fun _ _ h => h) openFetch
  obtain ⟨err, hfails⟩ := failedStore_fails mesh
  refine ⟨mesh, chunk, err, hstore, hfails, (overwrite_keeps_iff hstore hencode
    (failedStore soloView)
    (available_recorded hstore hall)).mpr ⟨w, hcode, hjoin, fun i b hb => ?_⟩⟩
  rw [overwrites, failedStore_writes, Bool.and_false, if_neg Bool.false_ne_true]
  exact hagrees i b hb

/-- Fifteen shards are stored, six on peers. A store of other data without the peers fails and
leaves nine new shards: the previous record returns nothing. -/
theorem overwrite_destroys : ∃ mesh chunk err,
    storeDistributed plainJson soloNode emptyMesh [97] 14 [1, 2, 3]
      (answeredStore (viewOf sixPeers)) = (mesh, .ok chunk) ∧
    retrieveDistributed plainJson soloNode mesh openFetch chunk = .ok [1, 2, 3] ∧
    (storeDistributed plainJson soloNode mesh [97] 14 [9, 9, 9] darkStore).2 = .error err ∧
    ∀ data, retrieveDistributed plainJson soloNode (storeDistributed plainJson soloNode mesh [97] 14
      [9, 9, 9] darkStore).1 openFetch chunk ≠ .ok data := by
  obtain ⟨mesh, chunk, hstore, hlocs⟩ := store_viewOf emptyMesh [97] 14
    (cons_ne_nil 1 [2, 3]) sixPeers (by rw [sixPeers_store]; decide)
  obtain ⟨err, hfails⟩ := sixPeers_store_fails mesh
  have hall i : chunk.peer i ≠ [] :=
    (hlocs i).trans_ne (storeNodes_ne_nil (by rw [sixPeers_store]; decide) i)
  obtain ⟨w, hcode, hagrees, hjoin⟩ := fetched_stored hstore (fun _ _ h => h) openFetch
  refine ⟨mesh, chunk, err, hstore, (retrieveDistributed_ok_iff ..).mpr
    ⟨available_recorded hstore hall, w, hcode, hagrees, hjoin⟩, hfails, fun data hret => ?_⟩
  obtain ⟨-, w', hcode', hagrees', -⟩ := (retrieveDistributed_ok_iff ..).mp hret
  have hencode : encode soloNode.encoder [9, 9, 9] = .ok ⟨fun _ => [9, 9, 9], 3, 3⟩ := rfl
  have hafter := fetched_overwritten hstore hencode darkStore openFetch
  have hnode i : chunk.peer i = storeNodes soloNode.self darkStore.view [97] 14 i := by
    rw [hlocs i, darkStore, answeredStore, storeNodes_unreachable]
  have hwritten i : overwrites soloNode [97] 14 darkStore chunk i = decide (6 ≤ (i : ℕ)) := by
    rw [overwrites, sixPeers_writes, decide_eq_true (hnode i), Bool.true_and]
  obtain ⟨b₀, hb₀⟩ := fetched_recorded hstore hall 0
  obtain ⟨b₆, hb₆⟩ := fetched_recorded hstore hall 6
  -- the first shard is the old one, the seventh is the new one
  have hold : b₀ = w' 0 := hagrees' 0 b₀ (by rw [hafter, hb₀, hwritten]; rfl)
  have hnew : [9, 9, 9] = w' 6 := hagrees' 6 [9, 9, 9] (by rw [hafter, hb₆, hwritten]; rfl)
  have hsame : w 0 = [9, 9, 9] := by
    rw [← hagrees 0 b₀ hb₀, hold, hnew, mirrorCode_shards hcode' 0 6]
  have hone : (1 : UInt8) ∈ joinData w := mem_of_mem_take (by rw [hjoin]; decide)
  obtain ⟨j, -, hj⟩ := mem_flatMap.mp hone
  rw [mirrorCode_shards hcode _ 0, hsame] at hj
  exact absurd hj (by decide)

end Zentalk.Mesh
