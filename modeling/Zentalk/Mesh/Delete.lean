import Zentalk.Mesh.Repair

/-!
# Deleting a chunk

Peers are ranked by a text, while shards are placed by the hash of that text (`delete_finds_iff`).
-/

namespace Zentalk.Mesh

open Wire Slots Decimal Option Nat
open List hiding count

/-! ## `DeleteChunk` -/

/-- What happens during a delete: what the node sees of the others, and what becomes of the
requests. -/
structure DeleteRun where
  view : View
  deliver : Slot → Delivery

/-- What the loop over the shards keeps. -/
structure Deleting where
  mesh : MeshState
  successCount : ℕ
  lastErr : Option Bytes

def minRequired : ℕ := totalShards * 2 / 3

section Operations

variable (J : JsonText) (D : DistributedStorage)

/-- One pass of the loop. -/
def deleteShard (run : DeleteRun) (userAddr : Bytes) (chunkID : ℤ) (st : Deleting) (i : Slot) :
    Deleting :=
  let peerID := deleteNodes D.self run.view userAddr chunkID i
  let out := dropShard J D.self run.view.online peerID (run.deliver i) st.mesh userAddr chunkID i
  match out.2 with
  | .error err => { st with mesh := out.1, lastErr := some err }
  | .ok _ => { st with mesh := out.1, successCount := st.successCount + 1 }

def deleteChunk (mesh : MeshState) (userAddr : Bytes) (chunkID : ℤ) (run : DeleteRun) :
    MeshState × Except Bytes Unit :=
  let st := (List.finRange totalShards).foldl (deleteShard J D run userAddr chunkID) ⟨mesh, 0, none⟩
  (st.mesh,
    if st.successCount < minRequired then
      .error (asciiBytes "failed to delete enough shards (" ++ decimal st.successCount ++
        asciiBytes "/" ++ decimal totalShards ++ asciiBytes " deleted, " ++ decimal minRequired ++
        asciiBytes " required): " ++ st.lastErr.getD (asciiBytes "%!w(<nil>)"))
    else .ok ())

/-- The delete of shard `i`, when the request has to get through. -/
def DeleteRun.outcome (run : DeleteRun) (userAddr : Bytes) (chunkID : ℤ) (i : Slot) : Delivery :=
  route D.self run.view.online (deleteNodes D.self run.view userAddr chunkID i) (run.deliver i)

/-- Shard `i` is where the delete asks for it. -/
def heldAtTarget (mesh : MeshState) (userAddr : Bytes) (chunkID : ℤ) (run : DeleteRun) (i : Slot) :
    Bool :=
  (shardAt J D.self mesh userAddr chunkID (deleteNodes D.self run.view userAddr chunkID i) i).isSome

end Operations

section

variable {J : JsonText} {D : DistributedStorage} {u : Bytes} {c : ℤ}

section

variable (J : JsonText) (D : DistributedStorage) (u : Bytes) (c : ℤ) (run : DeleteRun)

theorem deleteShard_mesh (st : Deleting) (i : Slot) :
    (deleteShard J D run u c st i).mesh = (dropShard J D.self run.view.online
      (deleteNodes D.self run.view u c i) (run.deliver i) st.mesh u c i).1 := by
  unfold deleteShard
  simp only
  split
  · rfl
  · rfl

theorem deleteShard_successCount (st : Deleting) (i : Slot) :
    (deleteShard J D run u c st i).successCount = st.successCount +
      if (run.outcome D u c i).acked && heldAtTarget J D st.mesh u c run i then 1 else 0 := by
  have hok : (dropShard J D.self run.view.online (deleteNodes D.self run.view u c i)
      (run.deliver i) st.mesh u c i).2 = .ok () ↔
      ((run.outcome D u c i).acked && heldAtTarget J D st.mesh u c run i) = true := by
    rw [dropShard_ok_iff, Bool.and_eq_true, heldAtTarget, isSome_iff_ne_none]
    rfl
  unfold deleteShard
  cases hout : (dropShard J D.self run.view.online (deleteNodes D.self run.view u c i)
      (run.deliver i) st.mesh u c i).2 with
  | error err =>
    have hmissed : ¬ ((run.outcome D u c i).acked &&
        heldAtTarget J D st.mesh u c run i) = true := by
      rw [← hok, hout]
      exact fun h => nomatch h
    simp only [hout, if_neg hmissed, add_zero]
  | ok done =>
    have hdone := hok.mp (by rw [hout])
    simp only [hout, if_pos hdone]

theorem deleteShard_owns :
    Owns (deleteShard J D run u c) (fun i st p => shardAt J D.self st.mesh u c p i)
      (fun i rows p => if (run.outcome D u c i).handled = true ∧
        p = deleteNodes D.self run.view u c i then none else rows p) where
  own st i := by
    funext p
    rw [deleteShard_mesh, shardAt_dropShard]
    simp only [and_true]
    rfl
  other st i j hij := by
    funext p
    rw [deleteShard_mesh, shardAt_dropShard]
    simp only [Ne.symm hij, and_false, if_false]

end

end

section

variable (J : JsonText) (D : DistributedStorage) (mesh : MeshState) (u : Bytes) (c : ℤ)
  (run : DeleteRun)

theorem shardAt_deleteChunk (p : PeerID) (i : Slot) :
    shardAt J D.self (deleteChunk J D mesh u c run).1 u c p i =
      if (run.outcome D u c i).handled = true ∧ p = deleteNodes D.self run.view u c i then none
      else shardAt J D.self mesh u c p i := by
  have hrows := (deleteShard_owns J D u c run).foldl (nodup_finRange totalShards)
    ⟨mesh, 0, none⟩ i
  rw [if_pos (mem_finRange i)] at hrows
  exact congrFun hrows p

/-- A delete returns nil when ten shards are where it asks for them. -/
theorem deleteChunk_ok_iff :
    (deleteChunk J D mesh u c run).2 = .ok () ↔ minRequired ≤
      count fun i => (run.outcome D u c i).acked && heldAtTarget J D mesh u c run i := by
  have hcount := (deleteShard_owns J D u c run).count (nodup_finRange totalShards)
    (fun st => st.successCount)
    (fun i rows => (run.outcome D u c i).acked && (rows (deleteNodes D.self run.view u c i)).isSome)
    (deleteShard_successCount J D u c run) ⟨mesh, 0, none⟩
  rw [zero_add] at hcount
  unfold deleteChunk
  simp only [hcount]
  split
  · next hfew => exact iff_of_false (fun h => nomatch h) (not_le.mpr hfew)
  · next hmany => exact iff_of_true rfl (Nat.le_of_not_lt hmany)

end

/-! ## A delete after a store -/

theorem shardAt_stored_all {J : JsonText} {D : DistributedStorage} {mesh mesh' : MeshState}
    {u : Bytes} {c : ℤ} {data : Bytes} {run : StoreRun} {chunk : DistributedChunk}
    (hstore : storeDistributed J D mesh u c data run = (mesh', .ok chunk))
    (hall : ∀ i, chunk.peer i ≠ []) (i : Slot) :
    chunk.peer i = storeNodes D.self run.view u c i ∧
    shardAt J D.self mesh' u c (storeNodes D.self run.view u c i) i ≠ none ∧
    ∀ p, p ≠ storeNodes D.self run.view u c i →
      shardAt J D.self mesh' u c p i = shardAt J D.self mesh u c p i := by
  obtain ⟨encoded, hencode, hok⟩ := encode_of_stored hstore
  have hloc := (recorded_node hencode hok (hall i)).2
  obtain ⟨w, -, -, -, -, hrows⟩ := shardAt_recorded hstore
  refine ⟨hloc, ?_, fun p hp => ?_⟩
  · rw [← hloc, hrows i (hall i)]
    exact some_ne_none _
  · have hrow := shardAt_storeDistributed J D mesh u c run hencode p i
    rwa [hstore, if_neg fun h => hp h.1] at hrow

/-- A delete right after a full store, with every request answered, leaves no shard on any node just
when its ranking is that of the store and no shard of an earlier store is elsewhere. -/
theorem delete_finds_iff {J : JsonText} {D : DistributedStorage} {mesh mesh' : MeshState}
    {u : Bytes} {c : ℤ} {data : Bytes} {run : StoreRun} {chunk : DistributedChunk}
    (hstore : storeDistributed J D mesh u c data run = (mesh', .ok chunk))
    (hall : ∀ i, chunk.peer i ≠ []) {del : DeleteRun}
    (hview : del.view = run.view) (hreach : ∀ i, (del.outcome D u c i).acked = true) :
    ((∀ i, deleteNodes D.self del.view u c i = chunk.peer i) ∧
      (deleteChunk J D mesh' u c del).2 = .ok () ∧
      ∀ p i, shardAt J D.self (deleteChunk J D mesh' u c del).1 u c p i = none) ↔
    (∀ i, deleteNodes D.self run.view u c i = storeNodes D.self run.view u c i) ∧
      ∀ p i, p ≠ storeNodes D.self run.view u c i → shardAt J D.self mesh u c p i = none := by
  have hstored := shardAt_stored_all hstore hall
  have hafter p (i : Slot) := shardAt_deleteChunk J D mesh' u c del p i
  simp only [handled_of_acked (hreach _), true_and] at hafter
  rw [deleteChunk_ok_iff]
  simp only [hafter, hview, heldAtTarget, hreach, Bool.true_and]
  constructor
  · rintro ⟨hnodes, -, hgone⟩
    have hsame i : deleteNodes D.self run.view u c i = storeNodes D.self run.view u c i :=
      (hnodes i).trans (hstored i).1
    refine ⟨hsame, fun p i hp => ?_⟩
    have hrow := hgone p i
    rwa [hsame i, if_neg hp, (hstored i).2.2 p hp] at hrow
  · rintro ⟨hsame, hclean⟩
    refine ⟨fun i => (hsame i).trans (hstored i).1.symm, ?_, fun p i => ?_⟩
    · have hheld : totalShards ≤ count fun i => (shardAt J D.self mesh' u c
          (deleteNodes D.self run.view u c i) i).isSome := by
        refine (le_count_iff _).mpr fun i => ?_
        rw [hsame i]
        exact isSome_iff_ne_none.mpr (hstored i).2.1
      exact le_trans (by decide) hheld
    · rw [hsame i]
      split
      · rfl
      · next hp => rw [(hstored i).2.2 p hp, hclean p i hp]

/-! ## A second delete -/

/-- A second delete of the same nodes returns nil and leaves no shard just when the first one has
left at least ten shards where they are asked for, and no others. -/
theorem delete_retry_iff {J : JsonText} {D : DistributedStorage} {mesh : MeshState} {u : Bytes}
    {c : ℤ} {first second : DeleteRun}
    (hsame : ∀ i, deleteNodes D.self second.view u c i = deleteNodes D.self first.view u c i)
    (hreach : ∀ i, heldAtTarget J D (deleteChunk J D mesh u c first).1 u c second i = true →
      (second.outcome D u c i).acked = true) :
    ((deleteChunk J D (deleteChunk J D mesh u c first).1 u c second).2 = .ok () ∧
      ∀ p i, shardAt J D.self
        (deleteChunk J D (deleteChunk J D mesh u c first).1 u c second).1 u c p i = none) ↔
    (minRequired ≤ count fun i =>
      heldAtTarget J D mesh u c first i && !(first.outcome D u c i).handled) ∧
    ∀ p i, p ≠ deleteNodes D.self first.view u c i → shardAt J D.self mesh u c p i = none := by
  -- what is where it is asked for after the first delete
  have hleft i : heldAtTarget J D (deleteChunk J D mesh u c first).1 u c second i =
      (heldAtTarget J D mesh u c first i && !(first.outcome D u c i).handled) := by
    rw [heldAtTarget, hsame i, shardAt_deleteChunk, heldAtTarget]
    cases (first.outcome D u c i).handled with
    | false => simp
    | true => simp
  have hhits : (count fun i => (second.outcome D u c i).acked &&
        heldAtTarget J D (deleteChunk J D mesh u c first).1 u c second i) =
      count fun i => heldAtTarget J D mesh u c first i && !(first.outcome D u c i).handled := by
    refine count_congr fun i => ?_
    rw [← hleft i]
    cases hheld : heldAtTarget J D (deleteChunk J D mesh u c first).1 u c second i with
    | false => exact Bool.and_false _
    | true => rw [hreach i hheld, Bool.and_true]
  rw [deleteChunk_ok_iff, hhits]
  refine and_congr_right fun _ => ⟨fun hgone p i hp => ?_, fun hclean p i => ?_⟩
  · have hrow := hgone p i
    rwa [shardAt_deleteChunk, hsame i, if_neg fun h => hp h.2, shardAt_deleteChunk,
      if_neg fun h => hp h.2] at hrow
  · rw [shardAt_deleteChunk, hsame i]
    split
    · rfl
    · next hkept =>
      by_cases hp : p = deleteNodes D.self first.view u c i
      · -- a shard that is still there would have been deleted
        by_contra hsome
        refine hkept ⟨handled_of_acked (hreach i ?_), hp⟩
        rw [heldAtTarget, hsame i, ← hp]
        exact isSome_iff_ne_none.mpr hsome
      · rw [shardAt_deleteChunk, if_neg fun h => hp h.2, hclean p i hp]

/-! ## Peers -/

def peerWith (b : UInt8) : PeerID := [0, 36, 8, 1, 18, 32, b] ++ List.replicate 31 0

/-- The peers are connected, and every node can be reached. -/
def viewOf (peers : List PeerID) : View := ⟨peers, fun _ => true, fun _ => true⟩

/-- The peers are connected, but no other node can be reached. -/
def unreachable (peers : List PeerID) : View := ⟨peers, fun _ => true, fun _ => false⟩

def answeredDelete (view : View) : DeleteRun := ⟨view, fun _ => .answered⟩

def failedDelete (view : View) : DeleteRun := ⟨view, fun _ => .failed []⟩

def twoPeers : List PeerID := [peerWith 0, peerWith 128]

def sixPeers : List PeerID := [0, 32, 64, 96, 128, 160].map peerWith

theorem reaches_viewOf (D : DistributedStorage) (peers : List PeerID) {p : PeerID} (h : p ≠ []) :
    reaches D.self (viewOf peers).online p = true := by
  simp [reaches, viewOf, h]

theorem storeNodes_unreachable (self : PeerID) (peers : List PeerID) (u : Bytes) (c : ℤ)
    (i : Slot) : storeNodes self (unreachable peers) u c i =
      storeNodes self (viewOf peers) u c i := by
  rw [storeNodes, storeNodes]
  rfl

theorem deleteNodes_unreachable (self : PeerID) (peers : List PeerID) (u : Bytes) (c : ℤ)
    (i : Slot) : deleteNodes self (unreachable peers) u c i =
      deleteNodes self (viewOf peers) u c i := by
  rw [deleteNodes, deleteNodes]
  rfl

theorem shardNodes_ne_nil {nodes : List PeerID} (h : [] ∉ nodes) (i : Slot) :
    shardNodes soloNode.self nodes i ≠ [] := by
  rw [shardNodes, getD_eq_getElem?_getD]
  cases hi : nodes[(i : ℕ)]? with
  | none => exact soloNode.self_ne
  | some p =>
    rintro rfl
    exact h (mem_of_getElem? hi)

theorem storeNodes_ne_nil {view : View} {u : Bytes} {c : ℤ}
    (h : [] ∉ findStorageNodes soloNode.self view (generateStorageKey u c) totalShards) (i : Slot) :
    storeNodes soloNode.self view u c i ≠ [] := by
  rw [storeNodes]
  exact shardNodes_ne_nil h i

theorem store_viewOf (mesh : MeshState) (u : Bytes) (c : ℤ) {data : Bytes} (hne : data ≠ [])
    (peers : List PeerID) (hnodes : [] ∉
      findStorageNodes soloNode.self (viewOf peers) (generateStorageKey u c) totalShards) :
    ∃ mesh' chunk, storeDistributed plainJson soloNode mesh u c data
        (answeredStore (viewOf peers)) = (mesh', .ok chunk) ∧
      ∀ i, chunk.peer i = storeNodes soloNode.self (viewOf peers) u c i :=
  store_answered plainJson soloNode mesh u c hne (viewOf peers) fun i =>
    reaches_viewOf soloNode peers (storeNodes_ne_nil hnodes i)

theorem delete_viewOf {u : Bytes} {c : ℤ} {peers : List PeerID}
    (hnodes : [] ∉ findStorageNodes soloNode.self (viewOf peers) (chunkText u c) totalShards)
    (i : Slot) : ((answeredDelete (viewOf peers)).outcome soloNode u c i).acked = true := by
  have hreach : reaches soloNode.self (viewOf peers).online
      (deleteNodes soloNode.self (viewOf peers) u c i) = true := by
    rw [deleteNodes]
    exact reaches_viewOf soloNode peers (shardNodes_ne_nil hnodes i)
  rw [DeleteRun.outcome, answeredDelete, route, if_pos hreach]
  rfl

theorem twoPeers_store : findStorageNodes soloNode.self (viewOf twoPeers)
    (generateStorageKey [97] 1) totalShards = [peerWith 0, peerWith 128, soloNode.self] := by
  decide +kernel

theorem twoPeers_delete : findStorageNodes soloNode.self (viewOf twoPeers) (chunkText [97] 1)
    totalShards = [peerWith 128, peerWith 0, soloNode.self] := by
  decide +kernel

def sixNodes : List PeerID := [128, 160, 64, 96, 0, 32].map peerWith ++ [soloNode.self]

theorem sixPeers_store : findStorageNodes soloNode.self (viewOf sixPeers)
    (generateStorageKey [97] 14) totalShards = sixNodes := by
  decide +kernel

theorem sixPeers_delete : findStorageNodes soloNode.self (viewOf sixPeers) (chunkText [97] 14)
    totalShards = sixNodes := by
  decide +kernel

theorem solo_deleteNodes (u : Bytes) (c : ℤ) (i : Slot) :
    deleteNodes soloNode.self soloView u c i = soloNode.self := by
  rw [deleteNodes, shardNodes_of_nil _ rfl]

theorem solo_outcome (u : Bytes) (c : ℤ) (i : Slot) :
    (answeredDelete soloView).outcome soloNode u c i = .answered := by
  simp only [DeleteRun.outcome, answeredDelete, solo_deleteNodes, route_self]

theorem route_sixNodes (i : Slot) : route soloNode.self (unreachable sixPeers).online
    (shardNodes soloNode.self sixNodes i) .answered =
      if 6 ≤ (i : ℕ) then .answered else .failed (asciiBytes "failed to open stream") := by
  have hreach : ∀ i : Slot, reaches soloNode.self (fun _ => false)
      (shardNodes soloNode.self sixNodes i) = decide (6 ≤ (i : ℕ)) := by decide
  simp only [route, unreachable, hreach i, decide_eq_true_eq]

/-- A node without peers finds all shards that it has stored. -/
theorem delete_finds_solo : ∃ mesh chunk,
    storeDistributed plainJson soloNode emptyMesh [97] 1 [1, 2, 3] (answeredStore soloView) =
      (mesh, .ok chunk) ∧
    (deleteChunk plainJson soloNode mesh [97] 1 (answeredDelete soloView)).2 = .ok () ∧
    ∀ p i, shardAt plainJson soloNode.self
      (deleteChunk plainJson soloNode mesh [97] 1 (answeredDelete soloView)).1 [97] 1 p i =
        none := by
  obtain ⟨mesh, chunk, hstore, hlocs⟩ := solo_store emptyMesh [97] 1 (cons_ne_nil 1 [2, 3])
  have hacked i : ((answeredDelete soloView).outcome soloNode [97] 1 i).acked = true := by
    rw [solo_outcome]
    rfl
  have hall i : chunk.peer i ≠ [] :=
    (hlocs i).trans_ne soloNode.self_ne
  have hfound := (delete_finds_iff hstore hall rfl hacked).mpr
    ⟨fun i => (solo_deleteNodes [97] 1 i).trans (solo_storeNodes [97] 1 i).symm,
      fun _ _ _ => rfl⟩
  exact ⟨mesh, chunk, hstore, hfound.2⟩

/-- With two peers the delete asks for the first shard on the wrong node. -/
theorem delete_misses_shard : ∃ mesh chunk,
    storeDistributed plainJson soloNode emptyMesh [97] 1 [1, 2, 3]
      (answeredStore (viewOf twoPeers)) = (mesh, .ok chunk) ∧
    (∀ i, chunk.peer i ≠ []) ∧
    (∀ i, ((answeredDelete (viewOf twoPeers)).outcome soloNode [97] 1 i).acked = true) ∧
    deleteNodes soloNode.self (viewOf twoPeers) [97] 1 0 ≠ chunk.peer 0 ∧
    shardAt plainJson soloNode.self
      (deleteChunk plainJson soloNode mesh [97] 1 (answeredDelete (viewOf twoPeers))).1 [97] 1
      (chunk.peer 0) 0 ≠ none := by
  obtain ⟨mesh, chunk, hstore, hlocs⟩ := store_viewOf emptyMesh [97] 1 (cons_ne_nil 1 [2, 3])
    twoPeers (by rw [twoPeers_store]; decide)
  have hall i : chunk.peer i ≠ [] :=
    (hlocs i).trans_ne (storeNodes_ne_nil (by rw [twoPeers_store]; decide) i)
  have hother : deleteNodes soloNode.self (viewOf twoPeers) [97] 1 0 ≠
      (chunk.peer 0) := by
    rw [hlocs 0, deleteNodes, storeNodes, twoPeers_store, twoPeers_delete]
    decide
  obtain ⟨hloc, hrow, -⟩ := shardAt_stored_all hstore hall 0
  refine ⟨mesh, chunk, hstore, hall, delete_viewOf (by rw [twoPeers_delete]; decide), hother, ?_⟩
  rw [shardAt_deleteChunk, if_neg fun h => hother h.2.symm, hloc]
  exact hrow

theorem delete_retry_solo : ∃ mesh chunk,
    storeDistributed plainJson soloNode emptyMesh [97] 1 [1, 2, 3] (answeredStore soloView) =
      (mesh, .ok chunk) ∧
    (deleteChunk plainJson soloNode mesh [97] 1 (failedDelete soloView)).2 ≠ .ok () ∧
    (deleteChunk plainJson soloNode (deleteChunk plainJson soloNode mesh [97] 1
      (failedDelete soloView)).1 [97] 1 (answeredDelete soloView)).2 = .ok () := by
  obtain ⟨mesh, chunk, hstore, hlocs⟩ := solo_store emptyMesh [97] 1 (cons_ne_nil 1 [2, 3])
  have hacked i : ((answeredDelete soloView).outcome soloNode [97] 1 i).acked = true := by
    rw [solo_outcome]
    rfl
  have hstored := shardAt_stored_all hstore fun i => (hlocs i).trans_ne soloNode.self_ne
  have hsame i : deleteNodes soloNode.self (answeredDelete soloView).view [97] 1 i =
      deleteNodes soloNode.self (failedDelete soloView).view [97] 1 i := rfl
  have hfails i : ((failedDelete soloView).outcome soloNode [97] 1 i).acked = false := by
    simp only [DeleteRun.outcome, failedDelete, solo_deleteNodes, route_self]
    rfl
  refine ⟨mesh, chunk, hstore, ?_, ((delete_retry_iff hsame fun i _ => hacked i).mpr
    ⟨?_, fun p i hp => ?_⟩).1⟩
  · rw [Ne, deleteChunk_ok_iff]
    simp only [hfails, Bool.false_and]
    decide
  · have hleft : totalShards ≤ count fun i =>
        heldAtTarget plainJson soloNode mesh [97] 1 (failedDelete soloView) i &&
          !((failedDelete soloView).outcome soloNode [97] 1 i).handled := by
      refine (le_count_iff _).mpr fun i => ?_
      have hrow := (hstored i).2.1
      simp only [answeredStore, solo_storeNodes] at hrow
      simp only [heldAtTarget, DeleteRun.outcome, failedDelete, solo_deleteNodes, route_self]
      rw [isSome_iff_ne_none.mpr hrow]
      rfl
    exact le_trans (by decide) hleft
  · simp only [failedDelete, solo_deleteNodes] at hp
    rw [(hstored i).2.2 p (by simpa only [answeredStore, solo_storeNodes] using hp)]
    rfl

/-- A first delete leaves six shards. The second only counts these, and fails too. -/
theorem delete_retry_fails : ∃ mesh chunk,
    storeDistributed plainJson soloNode emptyMesh [97] 14 [1, 2, 3]
      (answeredStore (viewOf sixPeers)) = (mesh, .ok chunk) ∧
    (∀ i, chunk.peer i = deleteNodes soloNode.self (viewOf sixPeers) [97] 14 i) ∧
    (deleteChunk plainJson soloNode mesh [97] 14 (answeredDelete (unreachable sixPeers))).2 ≠
      .ok () ∧
    (∀ i, ((answeredDelete (viewOf sixPeers)).outcome soloNode [97] 14 i).acked = true) ∧
    (deleteChunk plainJson soloNode (deleteChunk plainJson soloNode mesh [97] 14
      (answeredDelete (unreachable sixPeers))).1 [97] 14 (answeredDelete (viewOf sixPeers))).2 ≠
      .ok () := by
  obtain ⟨mesh, chunk, hstore, hlocs⟩ := store_viewOf emptyMesh [97] 14
    (cons_ne_nil 1 [2, 3]) sixPeers (by rw [sixPeers_store]; decide)
  -- only the shards of the node itself are deleted first
  have hfirst i : (answeredDelete (unreachable sixPeers)).outcome soloNode [97] 14 i =
      if 6 ≤ (i : ℕ) then .answered else .failed (asciiBytes "failed to open stream") := by
    have hnode : deleteNodes soloNode.self (unreachable sixPeers) [97] 14 i =
        shardNodes soloNode.self sixNodes i := by
      rw [deleteNodes_unreachable, deleteNodes, sixPeers_delete]
    simp only [DeleteRun.outcome, answeredDelete, hnode, route_sixNodes]
  refine ⟨mesh, chunk, hstore, fun i => ?_, ?_, delete_viewOf (by rw [sixPeers_delete]; decide), ?_⟩
  · rw [hlocs i, storeNodes, deleteNodes, sixPeers_store, sixPeers_delete]
  · rw [Ne, deleteChunk_ok_iff, not_le]
    have hnine : (count fun i : Slot => decide (6 ≤ (i : ℕ))) < minRequired := by decide
    refine (count_mono fun i hi => ?_).trans_lt hnine
    rw [Bool.and_eq_true, hfirst i] at hi
    split at hi
    · next h => exact decide_eq_true h
    · exact absurd hi.1 (by decide)
  · rw [Ne, deleteChunk_ok_iff, not_le]
    have hsix : (count fun i : Slot => !decide (6 ≤ (i : ℕ))) < minRequired := by decide
    refine (count_mono fun i hi => ?_).trans_lt hsix
    rw [Bool.and_eq_true, heldAtTarget, shardAt_deleteChunk, hfirst i] at hi
    by_contra hlocal
    have hlocal' : 6 ≤ (i : ℕ) := by simpa using hlocal
    rw [if_pos hlocal', if_pos ⟨rfl, (deleteNodes_unreachable _ sixPeers [97] 14 i).symm⟩] at hi
    exact absurd hi.2 (by decide)

end Zentalk.Mesh
