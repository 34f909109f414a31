import Mathlib.Data.Set.Finite.Basic
import Zentalk.Lib.Run
import Zentalk.Mesh.Shards

/-!
# Requests for single shards

The three handlers look for a shard in different columns (`shard_coherent_iff`).
-/

namespace Zentalk.Mesh

open Wire Decimal Runs List

/-! ## Rows of the table -/

/-- `Chunk`, without the time of storage. -/
structure Chunk where
  userAddr : Bytes
  chunkID : ℤ
  data : Bytes

def Chunk.key (chunk : Chunk) : Bytes × ℤ := (chunk.userAddr, chunk.chunkID)

namespace LocalStorage

/-- `ListAllChunks` may return these rows: each row of the table is there once, and their order by
the time of storage is any order here. -/
structure Lists (s : LocalStorage) (rows : List Chunk) : Prop where
  nodup : (rows.map Chunk.key).Nodup
  mem_iff : ∀ chunk, chunk ∈ rows ↔ s.chunks chunk.key = some chunk.data

def remove (s : LocalStorage) (p : Bytes × ℤ → Bool) : LocalStorage where
  chunks key := if p key then none else s.chunks key
  ne_nil key := by
    split
    · intro h
      cases h
    · exact s.ne_nil key

def deleteAllChunks (s : LocalStorage) (userAddr : Bytes) : LocalStorage :=
  s.remove fun key => key.1 = userAddr

/-- `Cleanup`, with the rows that are too old. -/
def cleanup (s : LocalStorage) (old : Bytes × ℤ → Bool) : LocalStorage := s.remove old

end LocalStorage

/-! ## The requests -/

structure ShardInfo where
  shardKey : Bytes
  shardIndex : ℤ
  size : ℕ
  userAddr : Bytes
  chunkID : ℤ

/-- `RPCResponse` with the fields for shards. -/
structure ShardResponse extends RPCResponse where
  shardInfo : Option ShardInfo
  shardInfos : List ShardInfo

def ShardResponse.failed (error : Bytes) : ShardResponse := ⟨⟨false, [], error⟩, none, []⟩

structure StoreShardRequest where
  shardKey : Bytes
  shardIndex : ℤ
  data : Bytes
  userAddr : Bytes
  chunkID : ℤ

/-- The row under which the shard is stored. -/
def StoreShardRequest.row (req : StoreShardRequest) : Bytes × ℤ := (req.shardKey, req.shardIndex)

/-- `handleStoreShard` of a request that was parsed. -/
def handleStoreShard (s : LocalStorage) (req : StoreShardRequest) : LocalStorage × ShardResponse :=
  match s.storeChunk req.shardKey req.shardIndex req.data with
  | .error err => (s, .failed (asciiBytes "failed to store shard: " ++ err))
  | .ok s' =>
    (s', ⟨⟨true, [], []⟩,
      some ⟨req.shardKey, req.shardIndex, req.data.length, req.userAddr, req.chunkID⟩, []⟩)

/-- `handleGetShard` of a request that was parsed. -/
def handleGetShard (s : LocalStorage) (shardKey : Bytes) : ShardResponse :=
  match s.getChunk shardKey 0 with
  | .error err => .failed (asciiBytes "failed to get shard: " ++ err)
  | .ok data => ⟨⟨true, data, []⟩, none, []⟩

/-- The loop of `handleShardStatus` does not pass over the chunk. -/
def Chunk.shown (userAddr : Bytes) (chunkID : ℤ) (chunk : Chunk) : Bool :=
  if userAddr ≠ [] ∧ chunk.userAddr ≠ userAddr then false
  else if userAddr ≠ [] ∧ 0 < chunkID ∧ chunk.chunkID ≠ chunkID then false
  else true

/-- What `handleShardStatus` says about a chunk. -/
def Chunk.shardInfo (chunk : Chunk) : ShardInfo where
  shardKey := chunk.userAddr
  shardIndex := chunk.chunkID
  size := chunk.data.length
  userAddr := chunk.userAddr
  chunkID := chunk.chunkID

/-- `handleShardStatus` of a request that was parsed, with what `ListAllChunks` returned. -/
def handleShardStatus (listed : Except Bytes (List Chunk)) (userAddr : Bytes) (chunkID : ℤ) :
    ShardResponse :=
  match listed with
  | .error err => .failed (asciiBytes "failed to list chunks: " ++ err)
  | .ok chunks =>
    ⟨⟨true, [], []⟩, none, (chunks.filter (Chunk.shown userAddr chunkID)).map Chunk.shardInfo⟩

/-! ## Runs of calls -/

/-- The calls that change the table, by requests and by the node itself. -/
inductive StorageCall
  | storeChunk (userAddr : Bytes) (chunkID : ℤ) (data : Bytes)
  | storeShard (req : StoreShardRequest)
  | deleteShard (userAddr : Bytes) (chunkID : ℤ) (shardIndex : Slot)
      (signed : Option (Except Bytes Unit))
  | deleteChunk (userAddr : Bytes) (chunkID : ℤ)
  | deleteAllChunks (userAddr : Bytes)
  | cleanup (old : Bytes × ℤ → Bool)

def LocalStorage.after (s : LocalStorage) : StorageCall → LocalStorage
  | .storeChunk userAddr chunkID data => (handleStoreChunk s userAddr chunkID data).1
  | .storeShard req => (handleStoreShard s req).1
  | .deleteShard userAddr chunkID shardIndex signed =>
    (handleDeleteShard s userAddr chunkID shardIndex signed).1
  | .deleteChunk userAddr chunkID =>
    match s.deleteChunk userAddr chunkID with
    | .error _ => s
    | .ok s' => s'
  | .deleteAllChunks userAddr => s.deleteAllChunks userAddr
  | .cleanup old => s.cleanup old

def StorageStep (s : LocalStorage) (call : StorageCall) (s' : LocalStorage) : Prop :=
  s' = s.after call

/-- What a call stores in a row (`some (some data)`), or that it deletes it (`some none`). -/
def StorageCall.writes (key : Bytes × ℤ) : StorageCall → Option (Option Bytes)
  | .storeChunk userAddr chunkID data =>
    if data ≠ [] ∧ key = (userAddr, chunkID) then some (some data) else none
  | .storeShard req => if req.data ≠ [] ∧ key = req.row then some (some req.data) else none
  | .deleteShard userAddr chunkID shardIndex signed =>
    match signed with
    | some (.error _) => none
    | _ =>
      if key = (shardKey userAddr chunkID shardIndex, (shardIndex : ℤ)) then some none else none
  | .deleteChunk userAddr chunkID => if key = (userAddr, chunkID) then some none else none
  | .deleteAllChunks userAddr => if key.1 = userAddr then some none else none
  | .cleanup old => if old key then some none else none

section

variable {s s' : LocalStorage} {calls : List StorageCall} {req : StoreShardRequest}
  {key : Bytes × ℤ}

theorem storeChunk_cases (s : LocalStorage) (userAddr : Bytes) (chunkID : ℤ) (data : Bytes) :
    (data = [] ∧ ∃ err, s.storeChunk userAddr chunkID data = .error err) ∨
      (data ≠ [] ∧ ∃ s', s.storeChunk userAddr chunkID data = .ok s' ∧
        ∀ key, s'.chunks key = if key = (userAddr, chunkID) then some data else s.chunks key) := by
  rcases eq_or_ne data [] with rfl | hne
  · exact .inl ⟨rfl, _, rfl⟩
  · exact .inr ⟨hne, storeChunk_ok s userAddr chunkID hne⟩

theorem chunks_after_deleteChunk (userAddr : Bytes) (chunkID : ℤ) :
    (s.after (.deleteChunk userAddr chunkID)).chunks key =
      if key = (userAddr, chunkID) then none else s.chunks key := by
  rw [LocalStorage.after]
  rcases deleteChunk_spec s userAddr chunkID with ⟨hnone, err, herr⟩ | ⟨-, hok⟩
  · rw [herr]
    dsimp only
    split
    · next hkey => rw [hkey, hnone]
    · rfl
  · rw [hok]
    exact drop_chunks s _ key

theorem after_deleteShard (userAddr : Bytes) (chunkID : ℤ) (shardIndex : Slot)
    {signed : Option (Except Bytes Unit)} (haccepted : ∀ err, signed ≠ some (.error err)) :
    s.after (.deleteShard userAddr chunkID shardIndex signed) =
      s.after (.deleteChunk (shardKey userAddr chunkID shardIndex) shardIndex) := by
  rw [LocalStorage.after, LocalStorage.after, handleDeleteShard.eq_def]
  rcases signed with _ | (err | done)
  · cases s.deleteChunk (shardKey userAddr chunkID shardIndex) shardIndex <;> rfl
  · exact absurd rfl (haccepted err)
  · cases s.deleteChunk (shardKey userAddr chunkID shardIndex) shardIndex <;> rfl

theorem chunks_after (call : StorageCall) :
    (s.after call).chunks key = (call.writes key).getD (s.chunks key) := by
  cases call with
  | storeChunk userAddr chunkID data =>
    rw [LocalStorage.after, handleStoreChunk, StorageCall.writes]
    rcases storeChunk_cases s userAddr chunkID data with ⟨rfl, err, herr⟩ | ⟨hne, s', hok, hrows⟩
    · rfl
    · simp only [hok, hrows, hne, ne_eq, not_false_eq_true, true_and]
      split <;> rfl
  | storeShard req =>
    rw [LocalStorage.after, handleStoreShard, StorageCall.writes]
    rcases storeChunk_cases s req.shardKey req.shardIndex req.data with
      ⟨hnil, err, herr⟩ | ⟨hne, s', hok, hrows⟩
    · rw [herr, if_neg fun h => h.1 hnil]
      rfl
    · simp only [hok, hrows, hne, ne_eq, not_false_eq_true, true_and, StoreShardRequest.row]
      split <;> rfl
  | deleteShard userAddr chunkID shardIndex signed =>
    rcases Classical.em (∃ err, signed = some (.error err)) with ⟨err, rfl⟩ | hrefused
    · rfl
    · have haccepted := not_exists.mp hrefused
      rw [after_deleteShard userAddr chunkID shardIndex haccepted, chunks_after_deleteChunk,
        StorageCall.writes]
      · split <;> rfl
      · exact haccepted
  | deleteChunk userAddr chunkID =>
    rw [StorageCall.writes, chunks_after_deleteChunk]
    split <;> rfl
  | deleteAllChunks userAddr =>
    rw [LocalStorage.after, StorageCall.writes, LocalStorage.deleteAllChunks, LocalStorage.remove]
    simp only [decide_eq_true_eq]
    split <;> rfl
  | cleanup old =>
    rw [LocalStorage.after, StorageCall.writes, LocalStorage.cleanup, LocalStorage.remove]
    dsimp only
    split <;> rfl

theorem chunks_run (hrun : Run StorageStep s calls s')
    (hkept : ∀ call ∈ calls, call.writes key = none) : s'.chunks key = s.chunks key := by
  induction hrun with
  | nil => rfl
  | @snoc calls call s₁ s₂ _ hstep ih =>
    obtain rfl : s₂ = _ := hstep
    rw [chunks_after, hkept call (mem_append_right _ mem_cons_self), Option.getD_none]
    exact ih fun call' hcall => hkept call' (mem_append_left _ hcall)

/-! ## The rows can be listed -/

def LocalStorage.Finite (s : LocalStorage) : Prop := {key | s.chunks key ≠ none}.Finite

theorem finite_empty : LocalStorage.empty.Finite := by
  have hrows : {key | LocalStorage.empty.chunks key ≠ none} = ∅ :=
    Set.eq_empty_of_forall_notMem fun _ h => h rfl
  rw [LocalStorage.Finite, hrows]
  exact Set.finite_empty

theorem stored_unique {call : StorageCall} {key' : Bytes × ℤ} {data data' : Bytes}
    (h : call.writes key = some (some data)) (h' : call.writes key' = some (some data')) :
    key = key' := by
  cases call with
  | storeChunk userAddr chunkID stored =>
    simp only [StorageCall.writes, Option.ite_none_right_eq_some] at h h'
    rw [h.1.2, h'.1.2]
  | storeShard req =>
    simp only [StorageCall.writes, Option.ite_none_right_eq_some] at h h'
    rw [h.1.2, h'.1.2]
  | deleteShard userAddr chunkID shardIndex signed =>
    unfold StorageCall.writes at h
    dsimp only at h
    split at h
    · cases h
    · split at h <;> cases h
  | deleteChunk userAddr chunkID =>
    rw [StorageCall.writes] at h
    split at h <;> cases h
  | deleteAllChunks userAddr =>
    rw [StorageCall.writes] at h
    split at h <;> cases h
  | cleanup old =>
    rw [StorageCall.writes] at h
    split at h <;> cases h

theorem finite_after (hfinite : s.Finite) (call : StorageCall) : (s.after call).Finite := by
  have hstored : {key | ∃ data, call.writes key = some (some data)}.Finite := by
    refine Set.Subsingleton.finite ?_
    rintro key ⟨data, h⟩ key' ⟨data', h'⟩
    exact stored_unique h h'
  refine (hfinite.union hstored).subset fun key hkey => ?_
  rw [Set.mem_ofPred_eq, chunks_after] at hkey
  match hwrites : call.writes key with
  | none =>
    rw [hwrites] at hkey
    exact .inl hkey
  | some none =>
    rw [hwrites] at hkey
    exact absurd rfl hkey
  | some (some data) => exact .inr ⟨data, hwrites⟩

theorem finite_run (hfinite : s.Finite) (hrun : Run StorageStep s calls s') : s'.Finite := by
  refine hrun.invariant hfinite ?_
  intro call s s' hs hstep
  obtain rfl : s' = _ := hstep
  exact finite_after hs call

theorem LocalStorage.Finite.exists_lists (hfinite : s.Finite) : ∃ rows, s.Lists rows := by
  let row (key : Bytes × ℤ) : Chunk := ⟨key.1, key.2, (s.chunks key).getD []⟩
  have hkey : Chunk.key ∘ row = id := rfl
  obtain ⟨keys, hkeys⟩ := Set.Finite.exists_finset hfinite
  refine ⟨keys.toList.map row, ?_, fun chunk => ?_⟩
  · rw [map_map, hkey, map_id]
    exact Finset.nodup_toList _
  · simp only [mem_map, Finset.mem_toList, hkeys]
    constructor
    · rintro ⟨key, hsome, rfl⟩
      obtain ⟨data, hdata⟩ := Option.ne_none_iff_exists'.mp hsome
      have hrow : (row key).data = data := by simp [row, hdata]
      rw [hrow]
      exact hdata
    · intro hchunk
      have hsome : s.chunks chunk.key ≠ none := by simp [hchunk]
      refine ⟨chunk.key, hsome, ?_⟩
      simp only [row, hchunk, Option.getD_some]
      rfl

/-! ## The three requests agree -/

def ShardInfo.SameShard (info ack : ShardInfo) : Prop :=
  info.shardKey = ack.shardKey ∧ info.shardIndex = ack.shardIndex ∧ info.size = ack.size

/-- Whatever is done to other rows, a request for the stored shard returns its data, and the status
for its user and chunk lists it as it was acknowledged. -/
def Coherent (s : LocalStorage) (req : StoreShardRequest) : Prop :=
  ∀ calls s' rows, Run StorageStep (handleStoreShard s req).1 calls s' →
    (∀ call ∈ calls, call.writes req.row = none) → s'.Lists rows →
    handleGetShard s' req.shardKey = ⟨⟨true, req.data, []⟩, none, []⟩ ∧
    ∃ ack ∈ (handleStoreShard s req).2.shardInfo,
      ∃ info ∈ (handleShardStatus (.ok rows) req.userAddr req.chunkID).shardInfos,
        info.SameShard ack

theorem handleStoreShard_ok (hack : (handleStoreShard s req).2.success = true) :
    req.data ≠ [] ∧ (handleStoreShard s req).1 = s.after (.storeShard req) ∧
      (handleStoreShard s req).2.shardInfo =
        some ⟨req.shardKey, req.shardIndex, req.data.length, req.userAddr, req.chunkID⟩ := by
  rcases storeChunk_cases s req.shardKey req.shardIndex req.data with
    ⟨-, err, herr⟩ | ⟨hne, s', hok, -⟩
  · rw [handleStoreShard, herr] at hack
    cases hack
  · refine ⟨hne, rfl, ?_⟩
    rw [handleStoreShard, hok]

theorem chunks_stored (hack : (handleStoreShard s req).2.success = true) :
    (handleStoreShard s req).1.chunks req.row = some req.data := by
  obtain ⟨hne, hafter, -⟩ := handleStoreShard_ok hack
  rw [hafter, chunks_after, StorageCall.writes, if_pos ⟨hne, rfl⟩, Option.getD_some]

theorem handleGetShard_of_row {shardKey data : Bytes} (hrow : s.chunks (shardKey, 0) = some data) :
    handleGetShard s shardKey = ⟨⟨true, data, []⟩, none, []⟩ := by
  rw [handleGetShard, LocalStorage.getChunk, hrow]

theorem shown_iff {userAddr : Bytes} {chunkID : ℤ} {chunk : Chunk} :
    chunk.shown userAddr chunkID = true ↔
      userAddr = [] ∨ chunk.userAddr = userAddr ∧ (chunkID ≤ 0 ∨ chunk.chunkID = chunkID) := by
  unfold Chunk.shown
  rcases eq_or_ne userAddr [] with hempty | hgiven
  · simp [hempty]
  · rcases eq_or_ne chunk.userAddr userAddr with hsame | hother
    · rcases lt_or_ge 0 chunkID with hpos | hle
      · simp [hgiven, hsame, hpos, hpos.not_ge]
      · simp [hgiven, hsame, hle, hle.not_gt]
    · simp [hgiven, hother]

theorem mem_shardInfos {rows : List Chunk} {userAddr : Bytes} {chunkID : ℤ} {info : ShardInfo} :
    info ∈ (handleShardStatus (.ok rows) userAddr chunkID).shardInfos ↔
      ∃ chunk ∈ rows, (userAddr = [] ∨ chunk.userAddr = userAddr ∧
        (chunkID ≤ 0 ∨ chunk.chunkID = chunkID)) ∧ chunk.shardInfo = info := by
  rw [handleShardStatus, mem_map]
  simp only [mem_filter, shown_iff, and_assoc]

theorem Coherent.shardIndex_eq_zero (hfinite : (handleStoreShard s req).1.Finite)
    (hcoherent : Coherent s req) : req.shardIndex = 0 := by
  by_contra hindex
  let zero : StoreShardRequest := ⟨req.shardKey, 0, req.data ++ [0], [], 0⟩
  have hrun : Run StorageStep (handleStoreShard s req).1 [.storeShard zero]
      ((handleStoreShard s req).1.after (.storeShard zero)) := .cons rfl .nil
  obtain ⟨rows, hrows⟩ := (finite_run hfinite hrun).exists_lists
  have hkept : ∀ call ∈ [StorageCall.storeShard zero], call.writes req.row = none := by
    intro call hcall
    rw [mem_singleton.mp hcall]
    exact if_neg fun h => hindex (congrArg Prod.snd h.2)
  obtain ⟨hget, -⟩ := hcoherent _ _ _ hrun hkept hrows
  have hzero : ((handleStoreShard s req).1.after (.storeShard zero)).chunks (req.shardKey, 0) =
      some (req.data ++ [0]) := by
    rw [chunks_after, StorageCall.writes, if_pos ⟨by simp [zero], rfl⟩, Option.getD_some]
  rw [handleGetShard_of_row hzero] at hget
  have hdata : req.data ++ [0] = req.data := congrArg (fun r => r.data) hget
  simp at hdata

/-- A stored shard is returned and listed, until it is overwritten or deleted, exactly if it has the
index zero, and the user is not given, or has the key as address and the ID of the chunk is not
positive. -/
theorem shard_coherent_iff {before : List StorageCall} (hbefore : Run StorageStep .empty before s)
    (hack : (handleStoreShard s req).2.success = true) :
    Coherent s req ↔
      req.shardIndex = 0 ∧ (req.userAddr = [] ∨ req.userAddr = req.shardKey ∧ req.chunkID ≤ 0) := by
  obtain ⟨-, hafter, hinfo⟩ := handleStoreShard_ok hack
  have hfinite : (handleStoreShard s req).1.Finite := by
    rw [hafter]
    exact finite_after (finite_run finite_empty hbefore) _
  constructor
  · intro hcoherent
    have hindex := hcoherent.shardIndex_eq_zero hfinite
    refine ⟨hindex, ?_⟩
    obtain ⟨rows, hrows⟩ := hfinite.exists_lists
    obtain ⟨-, ack, hack, info, hmem, hkey, hidx, -⟩ := hcoherent [] _ rows .nil (by simp) hrows
    rw [hinfo] at hack
    obtain rfl := Option.mem_some.mp hack
    obtain ⟨chunk, -, hshown, rfl⟩ := mem_shardInfos.mp hmem
    have hchunk : chunk.chunkID = 0 := hidx.trans hindex
    rcases hshown with hempty | ⟨huser, hid⟩
    · exact .inl hempty
    · refine .inr ⟨huser.symm.trans hkey, ?_⟩
      rcases hid with hle | hid
      · exact hle
      · exact (hid.symm.trans hchunk).le
  · rintro ⟨hindex, hshown⟩ calls s' rows hrun hkept hrows
    have hrow : s'.chunks req.row = some req.data := by
      rw [chunks_run hrun hkept, chunks_stored hack]
    have hmem : ⟨req.shardKey, req.shardIndex, req.data⟩ ∈ rows := (hrows.mem_iff _).mpr hrow
    rw [StoreShardRequest.row, hindex] at hrow
    have hlisted := mem_shardInfos.mpr ⟨_, hmem,
      hshown.imp_right fun ⟨huser, hle⟩ => ⟨huser.symm, .inl hle⟩, rfl⟩
    exact ⟨handleGetShard_of_row hrow, _, hinfo, _, hlisted, rfl, rfl, rfl⟩

end

def oneByteShard (shardIndex : ℤ) (userAddr : Bytes) : StoreShardRequest where
  shardKey := asciiBytes "user_1_shard_1"
  shardIndex := shardIndex
  data := [7]
  userAddr := userAddr
  chunkID := 1

/-- The first shard of a user who is not given. -/
theorem shard_coherent_zero : Coherent .empty (oneByteShard 0 []) :=
  (shard_coherent_iff .nil rfl).mpr ⟨rfl, .inl rfl⟩

/-- The shard with index one is stored, but neither returned nor listed. -/
theorem shard_unreachable :
    (handleStoreShard .empty (oneByteShard 1 (asciiBytes "user"))).2.success = true ∧
    (handleGetShard (handleStoreShard .empty (oneByteShard 1 (asciiBytes "user"))).1
      (asciiBytes "user_1_shard_1")).success = false ∧
    ∃ rows, (handleStoreShard .empty (oneByteShard 1 (asciiBytes "user"))).1.Lists rows ∧
      (handleShardStatus (.ok rows) (asciiBytes "user") 1).shardInfos = [] := by
  have hrows : ∀ key, (handleStoreShard .empty (oneByteShard 1 (asciiBytes "user"))).1.chunks key =
      if key = (asciiBytes "user_1_shard_1", 1) then some [7] else none :=
    fun key => Function.update_apply ..
  refine ⟨rfl, rfl, [⟨asciiBytes "user_1_shard_1", 1, [7]⟩], ⟨by decide, ?_⟩, rfl⟩
  rintro ⟨userAddr, chunkID, data⟩
  rw [mem_singleton, hrows]
  constructor
  · rintro ⟨⟩
    exact if_pos rfl
  · intro hchunk
    split at hchunk
    · next hkey =>
      cases hkey
      cases hchunk
      rfl
    · cases hchunk

end Zentalk.Mesh
