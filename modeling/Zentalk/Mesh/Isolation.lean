import Zentalk.Mesh.Delete

/-!
# Chunks of different users and numbers

`Untouched` says that two meshes agree on all rows but those of one chunk (`chunks_isolated`).
-/

namespace Zentalk.Mesh

open Wire Slots

/-! ## Operations on a chunk -/

/-- An operation of some node on the chunk `c` of the user `u`. A repair is given the record of the
chunk. -/
inductive ChunkCall (u : Bytes) (c : ℤ)
  | store (D : DistributedStorage) (data : Bytes) (run : StoreRun)
  | repair (D : DistributedStorage) (chunk : DistributedChunk) (hu : chunk.userAddr = u)
      (hc : chunk.chunkID = c) (run : RepairRun)
  | delete (D : DistributedStorage) (run : DeleteRun)

def ChunkCall.exec {u : Bytes} {c : ℤ} (J : JsonText) (mesh : MeshState) :
    ChunkCall u c → MeshState
  | .store D data run => (storeDistributed J D mesh u c data run).1
  | .repair D chunk _ _ run => (repairChunk J D mesh run chunk).1
  | .delete D run => (deleteChunk J D mesh u c run).1

def execAll {u : Bytes} {c : ℤ} (J : JsonText) (calls : List (ChunkCall u c)) (mesh : MeshState) :
    MeshState :=
  calls.foldl (ChunkCall.exec J) mesh

def Untouched (J : JsonText) (u : Bytes) (c : ℤ) (mesh mesh' : MeshState) : Prop :=
  ∀ p key, (∀ self i, key ≠ rowKey J self p u c i) →
    (mesh'.node p).chunks key = (mesh.node p).chunks key

section Relation

variable {J : JsonText} {u : Bytes} {c : ℤ} {mesh mesh' mesh'' : MeshState}

theorem Untouched.refl : Untouched J u c mesh mesh := fun _ _ _ => rfl

theorem Untouched.trans (h : Untouched J u c mesh mesh') (h' : Untouched J u c mesh' mesh'') :
    Untouched J u c mesh mesh'' := fun p key hkey => (h' p key hkey).trans (h p key hkey)

end Relation

section

variable {J : JsonText} {u : Bytes} {c : ℤ} {mesh : MeshState}

variable {self : PeerID} {online : PeerID → Bool} {peer : PeerID} {d : Delivery} {i : Slot}

theorem chunks_putShard_nil (p : PeerID) (key : Bytes × ℤ) :
    ((putShard J self online peer d mesh u c i []).1.node p).chunks key =
      (mesh.node p).chunks key := by
  unfold putShard
  split
  · rw [(localChange_spec _ p key).1]
    simp [LocalStorage.storeChunk]
  · rw [clientStoreChunk, (sendRequest_spec _ p key).1]
    simp only [handleStoreChunk, LocalStorage.storeChunk, dif_pos]
    split
    · next h => rw [h.2]
    · rfl

theorem untouched_putShard (data : Bytes) :
    Untouched J u c mesh (putShard J self online peer d mesh u c i data).1 := by
  intro p key hkey
  by_cases hne : data = []
  · rw [hne, chunks_putShard_nil]
  · rw [chunks_putShard hne, if_neg]
    rintro ⟨-, rfl, hrow⟩
    exact hkey self i hrow

theorem untouched_dropShard :
    Untouched J u c mesh (dropShard J self online peer d mesh u c i).1 := by
  intro p key hkey
  rw [chunks_dropShard, if_neg]
  rintro ⟨-, rfl, hrow⟩
  exact hkey self i hrow

/-! ### The loops -/

variable {D : DistributedStorage}

theorem untouched_storeAhead (D : DistributedStorage) (ahead : Slot → Delivery)
    (online : PeerID → Bool) (w : Shards) (l : List Slot) (mesh : MeshState) :
    Untouched J u c mesh (storeAhead J D ahead online u c w l mesh).1 := by
  induction l generalizing mesh with
  | nil => exact .refl
  | cons i l ih =>
    rw [storeAhead]
    split
    · exact untouched_putShard _
    · exact (untouched_putShard _).trans (ih _)

/-! ### The operations -/

theorem untouched_storeShards (run : StoreRun) (encoded : EncodedData) :
    Untouched J u c mesh (storeShards J D run u c encoded mesh).1 := by
  have hstep st (i : Slot) (h : Untouched J u c mesh st.mesh) :
      Untouched J u c mesh (storeShard J D run u c encoded.shards st i).mesh := by
    rw [storeShard_mesh]
    exact h.trans (untouched_putShard _)
  have hall := foldl_keeps hstep run.order.slots (s := ⟨mesh, Locations.unset, []⟩) .refl
  unfold storeShards
  dsimp only
  split
  · exact hall
  · exact hall

section

variable (J : JsonText) (D : DistributedStorage) (mesh : MeshState)

theorem untouched_store (data : Bytes) (run : StoreRun) :
    Untouched J u c mesh (storeDistributed J D mesh u c data run).1 := by
  unfold storeDistributed
  split
  · exact .refl
  · next encoded _ =>
    have hahead := untouched_storeAhead (J := J) (u := u) (c := c) D run.ahead run.view.online
      encoded.shards (remaining D run u c) mesh
    dsimp only
    split
    · exact hahead
    · exact hahead.trans (untouched_storeShards run encoded)

theorem untouched_repair (run : RepairRun) (chunk : DistributedChunk) :
    Untouched J chunk.userAddr chunk.chunkID mesh (repairChunk J D mesh run chunk).1 := by
  unfold repairChunk
  simp only
  split
  · exact .refl
  · split
    · exact .refl
    · split
      · exact .refl
      · split
        · exact .refl
        · next w _ =>
          refine foldl_keeps
            (I := fun st : Repairing => Untouched J chunk.userAddr chunk.chunkID mesh st.mesh)
            (fun st i h => ?_) _ .refl
          rw [repairShard_mesh]
          exact h.trans (untouched_putShard _)

theorem untouched_delete (run : DeleteRun) :
    Untouched J u c mesh (deleteChunk J D mesh u c run).1 := by
  refine foldl_keeps (I := fun st : Deleting => Untouched J u c mesh st.mesh)
    (fun st i h => ?_) _ .refl
  rw [deleteShard_mesh]
  exact h.trans untouched_dropShard

end

end

/-- An operation on a chunk leaves the rows of all others. -/
theorem untouched_exec {J : JsonText} {u : Bytes} {c : ℤ} (call : ChunkCall u c)
    (mesh : MeshState) : Untouched J u c mesh (call.exec J mesh) := by
  cases call with
  | store D data run => exact untouched_store J D mesh data run
  | repair D chunk hu hc run =>
    show Untouched J u c mesh (repairChunk J D mesh run chunk).1
    rw [← hu, ← hc]
    exact untouched_repair J D mesh run chunk
  | delete D run => exact untouched_delete J D mesh run

/-! ## Isolation -/

section

variable {J : JsonText}

theorem rowKey_of_valid {u : Bytes} (h : J.Valid u) (self p : PeerID) (c : ℤ) (i : Slot) :
    rowKey J self p u c i = (shardKey u c i, (i : ℤ)) := by
  have hcoerce : J.coerce u = u := h
  rw [rowKey, coerce_shardKey, hcoerce, ite_self]

theorem rowKey_ne {u₁ u₂ : Bytes} {c₁ c₂ : ℤ} (h₁ : J.Valid u₁) (h₂ : J.Valid u₂)
    (hne : (u₁, c₁) ≠ (u₂, c₂)) (self₁ self₂ p : PeerID) (i j : Slot) :
    rowKey J self₁ p u₁ c₁ i ≠ rowKey J self₂ p u₂ c₂ j := by
  rw [rowKey_of_valid h₁, rowKey_of_valid h₂]
  intro heq
  obtain ⟨hkey, hindex⟩ := Prod.mk.inj heq
  obtain rfl : i = j := Fin.ext (by omega)
  obtain ⟨hu, hc⟩ := shardKey_inj hkey
  exact hne (by rw [hu, hc])

theorem retrieveDistributed_congr {D : DistributedStorage} {mesh mesh' : MeshState}
    {chunk : DistributedChunk} (h : ∀ p i,
      shardAt J D.self mesh' chunk.userAddr chunk.chunkID p i =
        shardAt J D.self mesh chunk.userAddr chunk.chunkID p i) (fetch : FetchRun) :
    retrieveDistributed J D mesh' fetch chunk = retrieveDistributed J D mesh fetch chunk := by
  have hshard : retrieveShard J D mesh' fetch chunk = retrieveShard J D mesh fetch chunk := by
    funext st j
    simp only [retrieveShard, getShard_eq, h]
  rw [retrieveDistributed, retrieveDistributed, hshard]

end

/-- No operations on a chunk change a shard of another chunk, or what a retrieval of it returns. -/
theorem chunks_isolated {J : JsonText} {u₁ u₂ : Bytes} {c₁ c₂ : ℤ} (h₁ : J.Valid u₁)
    (h₂ : J.Valid u₂) (hne : (u₁, c₁) ≠ (u₂, c₂)) (calls : List (ChunkCall u₂ c₂))
    (mesh : MeshState) (D : DistributedStorage) :
    (∀ p i, shardAt J D.self (execAll J calls mesh) u₁ c₁ p i = shardAt J D.self mesh u₁ c₁ p i) ∧
    ∀ (fetch : FetchRun) (chunk : DistributedChunk), chunk.userAddr = u₁ → chunk.chunkID = c₁ →
      retrieveDistributed J D (execAll J calls mesh) fetch chunk =
        retrieveDistributed J D mesh fetch chunk := by
  have hall : Untouched J u₂ c₂ mesh (execAll J calls mesh) :=
    foldl_keeps (fun m call h => h.trans (untouched_exec call m)) calls .refl
  have hrows p (i : Slot) : shardAt J D.self (execAll J calls mesh) u₁ c₁ p i =
      shardAt J D.self mesh u₁ c₁ p i :=
    hall p _ fun self j => rowKey_ne h₁ h₂ hne D.self self p i j
  refine ⟨hrows, fun fetch chunk hu hc => ?_⟩
  subst hu hc
  exact retrieveDistributed_congr hrows fetch

theorem chunks_isolated_solo : ∃ mesh chunk,
    storeDistributed plainJson soloNode emptyMesh [97] 1 [1, 2, 3] (answeredStore soloView) =
      (mesh, .ok chunk) ∧
    ∀ calls : List (ChunkCall [97] 2),
      retrieveDistributed plainJson soloNode (execAll plainJson calls mesh) openFetch chunk =
        retrieveDistributed plainJson soloNode mesh openFetch chunk := by
  obtain ⟨mesh, chunk, hstore, -⟩ := solo_store emptyMesh [97] 1 (List.cons_ne_nil 1 [2, 3])
  obtain ⟨w, -, -, hu, hc, -⟩ := shardAt_recorded hstore
  have hvalid : plainJson.Valid [97] := rfl
  exact ⟨mesh, chunk, hstore, fun calls =>
    (chunks_isolated hvalid hvalid (by decide) calls mesh soloNode).2 openFetch chunk hu hc⟩

end Zentalk.Mesh
