import Zentalk.Mesh.Repair

/-!
# What a health check and a repair notice

A shard that could not be stored counts as shard 0 (`status_exact_iff`).
-/

namespace Zentalk.Mesh

open Wire Slots Function Option Bool
open List hiding count

/-! ## What `GetShardStatus` reports -/

def Order.Precedes (order : Order) (i j : Slot) : Prop :=
  ∃ before after, order.slots = before ++ i :: after ∧ j ∈ after

variable {before after : List Slot}

theorem Order.notMem_of_split {order : Order} {i : Slot} (h : order.slots = before ++ i :: after) :
    i ∉ before ∧ i ∉ after := by
  have hnodup := h ▸ order.nodup
  rw [nodup_append, nodup_cons] at hnodup
  exact ⟨fun hi => hnodup.2.2 i hi i mem_cons_self rfl, hnodup.2.1.1⟩

theorem Order.precedes_iff {order : Order} {i j : Slot} (h : order.slots = before ++ i :: after) :
    order.Precedes i j ↔ j ∈ after := by
  refine ⟨?_, fun hj => ⟨before, after, h, hj⟩⟩
  rintro ⟨before', after', heq, hj⟩
  obtain ⟨hbefore, hafter⟩ := Order.notMem_of_split h
  obtain ⟨-, -, rfl⟩ := (append_cons_inj_of_notMem hbefore hafter).mp (h.symm.trans heq)
  exact hj

/-- The node of the location `i` is the node itself, or answers the ping. -/
def answers (D : DistributedStorage) (run : RepairRun) (chunk : DistributedChunk) (i : Slot) :
    Bool :=
  let peer := chunk.peer i
  peer = D.self || (reaches D.self run.view.online peer && run.pings i)

section

variable {D : DistributedStorage} {run : RepairRun} {chunk : DistributedChunk} {i j : Slot}

theorem pingShard_eq (D : DistributedStorage) (run : RepairRun) (chunk : DistributedChunk) :
    pingShard D run chunk = fun status i =>
      update status (chunk.locations.loc i).shardIndex (answers D run chunk i) := by
  funext status i
  unfold pingShard answers
  by_cases hself : chunk.peer i = D.self
  · simp [hself]
  · simp [hself]

/-- No answer comes from a location that is not set. -/
theorem answers_of_zero (h : chunk.locations.loc i = .zero) : answers D run chunk i = false := by
  simp [answers, DistributedChunk.peer, h, ShardLocation.zero, reaches, D.self_ne.symm]

/-- The goroutines that report on a shard: its own, and on the first one those of unset locations.
-/
theorem reports_on (h : (chunk.locations.loc j).shardIndex = i) :
    j = i ∨ i = 0 ∧ chunk.locations.loc j = .zero := by
  rcases chunk.locations.placed j with hzero | hindex
  · rw [hzero] at h
    exact .inr ⟨h.symm, hzero⟩
  · exact .inl (hindex.symm.trans h)

theorem zero_iff {J : JsonText} {mesh mesh' : MeshState} {u : Bytes} {c : ℤ} {data : Bytes}
    {store : StoreRun} (hstore : storeDistributed J D mesh u c data store = (mesh', .ok chunk))
    (i : Slot) : chunk.locations.loc i = .zero ↔ (store.outcome D u c i).acked = false := by
  obtain ⟨encoded, hencode, hok⟩ := encode_of_stored hstore
  rw [(storeDistributed_chunk hencode hok).2.2.2 i]
  split
  · next hacked =>
    have hne := ne_nil_of_reaches (reaches_of_handled (handled_of_acked hacked))
    refine iff_of_false (fun h => hne (congrArg ShardLocation.peerID h)) ?_
    rw [hacked]
    exact Bool.noConfusion
  · next hfailed => exact iff_of_true rfl (not_eq_true _ ▸ hfailed)

end

theorem getShardStatus_of_ne_zero (D : DistributedStorage) (run : RepairRun)
    (chunk : DistributedChunk) {i : Slot} (hi : i ≠ 0) :
    getShardStatus D run chunk i = answers D run chunk i := by
  rw [getShardStatus, pingShard_eq]
  refine foldl_write _ _ (fun j _ hj => ?_) ?_
  · rcases reports_on hj with rfl | ⟨hzero, -⟩
    · rfl
    · exact absurd hzero hi
  · rcases chunk.locations.placed i with hzero | hindex
    · exact .inl (answers_of_zero hzero).symm
    · exact .inr ⟨i, run.pingOrder.mem i, hindex⟩

/-- For the first shard the report of the last goroutine counts. -/
theorem getShardStatus_zero_iff (D : DistributedStorage) (run : RepairRun)
    (chunk : DistributedChunk) : getShardStatus D run chunk 0 = true ↔
      answers D run chunk 0 = true ∧
        ∀ j, run.pingOrder.Precedes 0 j → chunk.locations.loc j ≠ .zero := by
  obtain ⟨before, after, hslots⟩ := append_of_mem (run.pingOrder.mem 0)
  have hothers : ∀ j ∈ after, (chunk.locations.loc j).shardIndex = 0 →
      chunk.locations.loc j = .zero := by
    intro j hj h
    rcases reports_on h with rfl | ⟨-, hzero⟩
    · exact absurd hj (Order.notMem_of_split hslots).2
    · exact hzero
  have hown : (chunk.locations.loc 0).shardIndex = 0 := by
    rcases chunk.locations.placed 0 with hzero | hindex
    · rw [hzero]
      rfl
    · exact hindex
  simp only [Order.precedes_iff hslots]
  rw [getShardStatus, pingShard_eq, hslots, foldl_append, foldl_cons, hown]
  by_cases hset : ∀ j ∈ after, chunk.locations.loc j ≠ .zero
  · have hlast := foldl_write _ (answers D run chunk)
      (fun j hj h => absurd (hothers j hj h) (hset j hj))
      (.inl (update_self 0 (answers D run chunk 0) (before.foldl (fun status i =>
        update status (chunk.locations.loc i).shardIndex (answers D run chunk i))
        fun _ => false)))
    rw [hlast, and_iff_left hset]
  · refine iff_of_false ?_ fun h => hset h.2
    obtain ⟨j, hj, hzero⟩ : ∃ j ∈ after, chunk.locations.loc j = .zero := by simpa using hset
    rw [foldl_write (fun j => (chunk.locations.loc j).shardIndex) (answers D run chunk)
      (fun k hk h => answers_of_zero (hothers k hk h))
      (.inr ⟨j, hj, congrArg ShardLocation.shardIndex hzero⟩)]
    exact false_ne_true

/-- `GetShardStatus` reports just the stored shards whose node answers, unless shard 0 is one of
them and the goroutine of a shard that could not be stored finishes after its own. -/
theorem status_exact_iff {J : JsonText} {D : DistributedStorage} {mesh mesh' : MeshState}
    {u : Bytes} {c : ℤ} {data : Bytes} {store : StoreRun} {chunk : DistributedChunk}
    (hstore : storeDistributed J D mesh u c data store = (mesh', .ok chunk)) (run : RepairRun) :
    (∀ i, getShardStatus D run chunk i = true ↔
      (store.outcome D u c i).acked = true ∧ answers D run chunk i = true) ↔
    ¬ ((store.outcome D u c 0).acked = true ∧ answers D run chunk 0 = true ∧
      ∃ j, run.pingOrder.Precedes 0 j ∧ (store.outcome D u c j).acked = false) := by
  have hzero := zero_iff hstore
  have hstored i (h : answers D run chunk i = true) : (store.outcome D u c i).acked = true := by
    rw [← not_eq_false, ← hzero]
    intro hi
    rw [answers_of_zero hi] at h
    cases h
  constructor
  · rintro hall ⟨hacked, hanswers, j, hj, hfailed⟩
    have hstatus := (hall 0).mpr ⟨hacked, hanswers⟩
    exact ((getShardStatus_zero_iff D run chunk).mp hstatus).2 j hj ((hzero j).mpr hfailed)
  · intro hnot i
    by_cases hi : i = 0
    · subst hi
      rw [getShardStatus_zero_iff]
      refine ⟨fun h => ⟨hstored 0 h.1, h.1⟩, fun h => ⟨h.2, fun j hj hj0 => hnot ?_⟩⟩
      exact ⟨h.1, h.2, j, hj, (hzero j).mp hj0⟩
    · rw [getShardStatus_of_ne_zero D run chunk hi]
      exact ⟨fun h => ⟨hstored i h, h⟩, fun h => h.2⟩

def Order.descending : Order := ⟨(List.finRange totalShards).reverse, reverse_perm _⟩

/-- A store without peers in which shard 3 cannot be stored. -/
def partialStore : StoreRun :=
  ⟨soloView, fun _ => .answered, fun i => if i = 3 then .failed [] else .answered, .ascending⟩

def answeredPings (order : Order) : RepairRun := { answeredRepair soloView with pingOrder := order }

theorem partialStore_outcome (i : Slot) :
    (partialStore.outcome soloNode [97] 1 i).acked = decide (i ≠ 3) := by
  have hdeliver : ∀ i : Slot, (partialStore.deliver i).acked = decide (i ≠ 3) := by decide
  rw [StoreRun.outcome, show partialStore.view = soloView from rfl, solo_storeNodes, route_self,
    hdeliver]

theorem partialStore_ok : ∃ mesh chunk,
    storeDistributed plainJson soloNode emptyMesh [97] 1 [1, 2, 3] partialStore =
      (mesh, .ok chunk) ∧ ∀ run, answers soloNode run chunk 0 = true := by
  have hfew : (count fun i => !(partialStore.outcome soloNode [97] 1 i).acked) ≤ parityShards := by
    simp only [partialStore_outcome]
    decide
  obtain ⟨mesh, chunk, hstore, hlocs⟩ := exists_stored plainJson soloNode emptyMesh
    (cons_ne_nil 1 [2, 3]) partialStore (all_eq_true.mpr fun _ _ => rfl) hfew
  refine ⟨mesh, chunk, hstore, fun run => ?_⟩
  have hloc := hlocs 0
  rw [partialStore_outcome, if_pos (by decide),
    storeNodes_of_nil soloNode.self rfl [97] 1 0] at hloc
  simp [answers, DistributedChunk.peer, hloc]

theorem status_exact_descending : ∃ mesh chunk,
    storeDistributed plainJson soloNode emptyMesh [97] 1 [1, 2, 3] partialStore =
      (mesh, .ok chunk) ∧
    ∀ i, getShardStatus soloNode (answeredPings .descending) chunk i = true ↔
      (partialStore.outcome soloNode [97] 1 i).acked = true ∧
        answers soloNode (answeredPings .descending) chunk i = true := by
  obtain ⟨mesh, chunk, hstore, -⟩ := partialStore_ok
  refine ⟨mesh, chunk, hstore, (status_exact_iff hstore (answeredPings .descending)).mpr ?_⟩
  rintro ⟨-, -, j, hj, -⟩
  have hslots : (answeredPings .descending).pingOrder.slots =
      (List.finRange totalShards).tail.reverse ++ 0 :: [] := by decide
  cases (Order.precedes_iff hslots).mp hj

/-- In ascending order shard 0 is reported as missing: the goroutine of shard 3 reports on it last.
-/
theorem status_overwritten : ∃ mesh chunk,
    storeDistributed plainJson soloNode emptyMesh [97] 1 [1, 2, 3] partialStore =
      (mesh, .ok chunk) ∧
    (partialStore.outcome soloNode [97] 1 0).acked = true ∧
    answers soloNode (answeredPings .ascending) chunk 0 = true ∧
    getShardStatus soloNode (answeredPings .ascending) chunk 0 = false := by
  obtain ⟨mesh, chunk, hstore, hanswers⟩ := partialStore_ok
  refine ⟨mesh, chunk, hstore, partialStore_outcome 0, hanswers _, ?_⟩
  have hslots : (answeredPings .ascending).pingOrder.slots =
      [] ++ 0 :: (List.finRange totalShards).tail := by decide
  have hlast : (answeredPings .ascending).pingOrder.Precedes 0 3 :=
    (Order.precedes_iff hslots).mpr (by decide)
  rw [← not_eq_true, getShardStatus_zero_iff]
  rintro ⟨-, hset⟩
  exact hset 3 hlast ((zero_iff hstore 3).mpr (partialStore_outcome 3))

/-! ## Altered shards -/

/-- What is documented of sizes, and of `Reconstruct` when it is given shards that do not belong
together: it needs ten of them, of one size, and fills in the others without verifying them. -/
structure ReedSolomon.Unchecked (R : ReedSolomon) : Prop where
  sizes : ∀ w, R.Codeword w → ∀ i j, (w i).length = (w j).length
  reconstructs : ∀ (p : Fetched) (n : ℕ), n ≠ 0 → (∀ i b, p i = some b → b.length = n) →
    minShardsForRecovery ≤ p.available → ∃ w, R.reconstruct p = .ok w ∧ ∀ i, (w i).length = n

/-- No other shard than those in `w` is put on any node, and when a fetched shard was altered,
nothing is written and the repair fails. -/
def Contained (J : JsonText) (D : DistributedStorage) (mesh : MeshState) (run : RepairRun)
    (chunk : DistributedChunk) (w : Shards) : Prop :=
  let out := repairChunk J D mesh run chunk
  (∀ peer i b, shardAt J D.self out.1 chunk.userAddr chunk.chunkID peer i = some b →
    shardAt J D.self mesh chunk.userAddr chunk.chunkID peer i = some b ∨ b = w i) ∧
  (0 < (repairFetched J D mesh run chunk).altered w → out.1 = mesh ∧ ∃ err, out.2.2 = .error err)

section

variable {J : JsonText} {D : DistributedStorage} {mesh : MeshState} {run : RepairRun}
  {chunk : DistributedChunk} {w : Shards}

theorem repairChunk_of_reconstruct (hmissing : ∃ i, getShardStatus D run chunk i = false)
    (hten : minShardsForRecovery ≤ (repairFetched J D mesh run chunk).available)
    (hrec : D.encoder.reconstruct (repairFetched J D mesh run chunk) = .ok w) :
    repairChunk J D mesh run chunk = storeMissing J D mesh run chunk w := by
  have hsome : ¬ healthExcellent ≤ count (getShardStatus D run chunk) := by
    intro hall
    obtain ⟨i, hi⟩ := hmissing
    rw [(le_count_iff _).mp hall i] at hi
    cases hi
  have hpings := hten.trans available_repairFetched_le
  unfold repairChunk
  simp only [fetchAvailable_spec]
  rw [if_neg hsome, if_neg (Nat.not_lt.mpr hpings), if_neg (Nat.not_lt.mpr hten), hrec]

theorem putShard_of_unreached {online : PeerID → Bool} {peer : PeerID} {d : Delivery} {i : Slot}
    {b : Bytes} {u : Bytes} {c : ℤ} (h : reaches D.self online peer = false) :
    (putShard J D.self online peer d mesh u c i b).1 = mesh := by
  have hself : peer ≠ D.self := by
    rintro rfl
    rw [reaches_self] at h
    cases h
  simp [putShard, hself, clientStoreChunk, sendRequest, route, h]

theorem storeMissing_unreached (J : JsonText) (mesh : MeshState) (hw : ∀ i, w i ≠ [])
    (h : ∀ i, getShardStatus D run chunk i = false → reaches D.self run.view.online
      (run.target D chunk i) = false) :
    (storeMissing J D mesh run chunk w).1 = mesh ∧
      ∃ err, (storeMissing J D mesh run chunk w).2.2 = .error err := by
  constructor
  · refine List.foldlRecOn (motive := fun st : Repairing => st.mesh = mesh) _ _ rfl ?_
    intro st hst i hi
    have hstatus : getShardStatus D run chunk i = false := by
      simpa using (mem_filter.mp hi).2
    rw [repairShard_mesh, putShard_of_unreached (h i hstatus), hst]
  · cases hout : (storeMissing J D mesh run chunk w).2.2 with
    | error err => exact ⟨err, rfl⟩
    | ok done =>
      obtain ⟨i, hi, hacked⟩ := (storeMissing_ok_iff J D mesh run chunk hw).mp hout
      have hreach := reaches_of_handled (handled_of_acked hacked)
      rw [h i hi] at hreach
      cases hreach

theorem exists_reconstructed (hR : D.encoder.Unchecked) (hcode : D.encoder.Codeword w)
    {p : Fetched} (hten : minShardsForRecovery ≤ p.available) (hsizes : p.SameSizes w) :
    ∃ w', D.encoder.reconstruct p = .ok w' ∧ ∀ i, w' i ≠ [] := by
  have hsize : (w 0).length ≠ 0 := mt length_eq_zero_iff.mp (D.encoder.ne_nil w hcode 0)
  obtain ⟨w', hrec, hlen⟩ := hR.reconstructs p (w 0).length hsize
    (fun i b hb => (hsizes i b hb).trans (hR.sizes w hcode i 0)) hten
  refine ⟨w', hrec, fun i hi => hsize ?_⟩
  rw [← hlen i, hi, length_nil]

section Repairing

variable (run) (hmissing : ∃ i, getShardStatus D run chunk i = false)
  (hten : minShardsForRecovery ≤ (repairFetched J D mesh run chunk).available)

include hmissing hten

theorem contained_of_intact (hcode : D.encoder.Codeword w)
    (hintact : (repairFetched J D mesh run chunk).altered w = 0) :
    Contained J D mesh run chunk w := by
  have hrec := D.encoder.recovers _ w hcode (Fetched.altered_eq_zero_iff.mp hintact) hten
  have hrows := (storeMissing_repaired J D mesh run chunk (D.encoder.ne_nil w hcode)).rows
  refine ⟨fun peer i b hb => ?_, fun h => absurd hintact (Nat.ne_of_gt h)⟩
  rw [repairChunk_of_reconstruct hmissing hten hrec, hrows] at hb
  split at hb
  · exact .inr (some.inj hb).symm
  · exact .inl hb

variable {w' : Shards} (hrec : D.encoder.reconstruct (repairFetched J D mesh run chunk) = .ok w')
  (hne : ∀ i, w' i ≠ [])

include hrec hne

theorem contained_of_unreached
    (h : ∀ i, getShardStatus D run chunk i = false → reaches D.self run.view.online
      (run.target D chunk i) = false) :
    Contained J D mesh run chunk w := by
  obtain ⟨hmesh, herr⟩ := storeMissing_unreached J mesh hne h
  rw [← repairChunk_of_reconstruct hmissing hten hrec] at hmesh herr
  refine ⟨fun peer i b hb => .inl ?_, fun _ => ⟨hmesh, herr⟩⟩
  rwa [hmesh] at hb

theorem not_contained (haltered : 0 < (repairFetched J D mesh run chunk).altered w)
    (hstored : ∃ i, getShardStatus D run chunk i = false ∧ (run.outcome D chunk i).acked = true) :
    ¬ Contained J D mesh run chunk w := by
  intro hcontained
  obtain ⟨-, err, herr⟩ := hcontained.2 haltered
  rw [repairChunk_of_reconstruct hmissing hten hrec,
    (storeMissing_ok_iff J D mesh run chunk hne).mpr hstored] at herr
  cases herr

end Repairing

end

/-- A repair that has fetched ten shards, and has others to store, is contained just when none of
the fetched ones was altered or no node that it would write to can be reached. -/
theorem repair_contained_iff {J : JsonText} {D : DistributedStorage} {mesh : MeshState}
    {run : RepairRun} {chunk : DistributedChunk} {w : Shards} (hR : D.encoder.Unchecked)
    (hcode : D.encoder.Codeword w) (hmissing : ∃ i, getShardStatus D run chunk i = false)
    (hten : minShardsForRecovery ≤ (repairFetched J D mesh run chunk).available)
    (hsizes : (repairFetched J D mesh run chunk).SameSizes w) :
    (∀ deliver, Contained J D mesh { run with deliver } chunk w) ↔
      (repairFetched J D mesh run chunk).altered w = 0 ∨
      ∀ i, getShardStatus D run chunk i = false → reaches D.self run.view.online
        (run.target D chunk i) = false := by
  obtain ⟨w', hrec, hne⟩ := exists_reconstructed hR hcode hten hsizes
  -- what a repair fetches does not depend on what becomes of the requests that store shards
  constructor
  · intro hall
    by_contra hnot
    push Not at hnot
    obtain ⟨haltered, i, hstatus, hreach⟩ := hnot
    set answered : RepairRun := { run with deliver := fun _ => .answered } with hanswered
    have hacked : (answered.outcome D chunk i).acked = true := by
      simp [RepairRun.outcome, route, hreach, hanswered, Delivery.acked]
    exact not_contained answered hmissing hten hrec hne (Nat.pos_of_ne_zero haltered)
      ⟨i, hstatus, hacked⟩ (hall _)
  · rintro (hintact | hunreached) deliver
    · exact contained_of_intact { run with deliver } hmissing hten hcode hintact
    · exact contained_of_unreached { run with deliver } hmissing hten hrec hne hunreached

theorem mirrorCode_unchecked : mirrorCode.Unchecked where
  sizes w hcode i j := by rw [mirrorCode_shards hcode i j]
  reconstructs p n _ hsizes hten := by
    obtain ⟨i, b, hfirst, hi⟩ := Fetched.exists_first hten
    have hb := hsizes i b hi
    refine ⟨fun j => (p j).getD b, by simp [mirrorCode, hfirst], fun j => ?_⟩
    simp only
    cases hj : p j with
    | none => exact hb
    | some b' => exact hsizes j b' hj

theorem exists_altered : ∃ mesh w b, soloNode.encoder.Codeword w ∧ b ≠ w 0 ∧
    b.length = (w 0).length ∧ ∀ i,
      shardAt plainJson soloNode.self mesh [97] 1 soloNode.self i =
        some (update w 0 b i) := by
  obtain ⟨home, w, hcode, hrows⟩ := exists_home
  obtain ⟨x, rest, hx⟩ := exists_cons_of_ne_nil (soloNode.encoder.ne_nil w hcode 0)
  refine ⟨(putShard plainJson soloNode.self darkView.online soloNode.self .answered home
    [97] 1 0 ((x + 1) :: rest)).1, w, (x + 1) :: rest, hcode, ?_, by simp [hx], fun i => ?_⟩
  · simp [hx]
  · rw [shardAt_putShard (cons_ne_nil _ _), route_self, hrows i, update_apply]
    by_cases hi : i = 0 <;> simp [hi, Delivery.handled]

abbrev strayFetched (mesh : MeshState) : Fetched :=
  repairFetched plainJson soloNode mesh (answeredRepair darkView) strayChunk

section Stray

variable {mesh : MeshState} {r : Shards}
  (hrows : ∀ i, shardAt plainJson soloNode.self mesh [97] 1 soloNode.self i = some (r i))

include hrows

theorem stray_fetched (i : Slot) : strayFetched mesh i = if i ≠ 3 then some (r i) else none := by
  simp only [repairFetched, strayChunk_status, decide_eq_true_eq]
  split
  · next hi =>
    obtain ⟨hreach, hrow⟩ := fetchable_stray.mpr ⟨hi, hrows i⟩
    exact getShard_eq true ▸ (if_pos ⟨rfl, hreach⟩).trans hrow
  · rfl

theorem stray_available : (strayFetched mesh).available = 14 := by
  have hsome : (strayFetched mesh).available = count fun i : Slot => decide (i ≠ 3) := by
    refine count_congr fun i => ?_
    rw [stray_fetched hrows i]
    by_cases hi : i = 3 <;> simp [hi]
  rw [hsome]
  decide

/-- The first shard is copied to the missing one. -/
theorem stray_repaired : (strayRepair mesh).2.2 = .ok () ∧
    shardAt plainJson soloNode.self (strayRepair mesh).1 [97] 1 soloNode.self 3 = some (r 0) := by
  have hfetched := stray_fetched hrows
  have hten : minShardsForRecovery ≤ (strayFetched mesh).available := by
    rw [stray_available hrows]
    decide
  have hne i : r i ≠ [] := fun h =>
    shardAt_ne_nil soloNode.self i ((hrows i).trans (congrArg some h))
  have hfirst : (strayFetched mesh).first = some (r 0) := by
    have hlist : List.finRange totalShards = 0 :: (List.finRange totalShards).tail := by decide
    have hzero := hfetched 0
    rw [if_pos (by decide)] at hzero
    rw [Fetched.first, hlist, List.findSome?_cons, hzero]
  have hrec : soloNode.encoder.reconstruct (strayFetched mesh) =
      .ok fun i => if i ≠ 3 then r i else r 0 := by
    refine (mirrorCode_reconstruct hfirst).trans (congrArg Except.ok (funext fun i => ?_))
    rw [hfetched]
    by_cases hi : i = 3 <;> simp [hi]
  have hne' (i : Slot) : (if i ≠ 3 then r i else r 0) ≠ [] := by
    split
    · exact hne i
    · exact hne 0
  rw [strayRepair, repairChunk_of_reconstruct ⟨3, strayChunk_status 3⟩ hten hrec]
  refine ⟨(storeMissing_ok_iff _ _ _ _ _ hne').mpr ⟨3, strayChunk_status 3, strayChunk_acked⟩, ?_⟩
  have hnode : soloNode.self = storeNodes soloNode.self darkView [97] 1 3 :=
    (storeNodes_of_nil _ rfl [97] 1 3).symm
  have hrow := (storeMissing_repaired plainJson soloNode mesh (answeredRepair darkView) strayChunk
    hne').rows soloNode.self 3
  rw [if_pos ⟨strayChunk_status 3, handled_of_acked strayChunk_acked, hnode⟩] at hrow
  exact hrow

end Stray

/-- A repair that has fetched fourteen shards as they were. -/
theorem repair_contained_stray : ∃ mesh w, soloNode.encoder.Codeword w ∧
    minShardsForRecovery ≤ (strayFetched mesh).available ∧
    ∀ deliver, Contained plainJson soloNode mesh { answeredRepair darkView with deliver }
      strayChunk w := by
  obtain ⟨mesh, w, hcode, hrows⟩ := exists_home
  have hten : minShardsForRecovery ≤ (strayFetched mesh).available := by
    rw [stray_available hrows]
    decide
  have hagrees : (strayFetched mesh).Agrees w := by
    intro i b hb
    rw [stray_fetched hrows i, ite_none_right_eq_some] at hb
    exact (some.inj hb.2).symm
  refine ⟨mesh, w, hcode, hten, (repair_contained_iff mirrorCode_unchecked hcode
    ⟨3, strayChunk_status 3⟩ hten ?_).mpr (.inl (Fetched.altered_eq_zero_iff.mpr hagrees))⟩
  exact fun i b hb => congrArg List.length (hagrees i b hb)

/-- Shard 0 was altered. The repair rebuilds shard 3 from it, stores it and returns nil. -/
theorem repair_spreads_alteration : ∃ mesh w b, soloNode.encoder.Codeword w ∧
    (strayFetched mesh).SameSizes w ∧
    (strayFetched mesh).altered w = 1 ∧
    minShardsForRecovery + 1 ≤ (strayFetched mesh).available ∧
    shardAt plainJson soloNode.self mesh [97] 1 soloNode.self 3 = some (w 3) ∧
    (strayRepair mesh).2.2 = .ok () ∧
    shardAt plainJson soloNode.self (strayRepair mesh).1 [97] 1 soloNode.self 3 = some b ∧
    b ≠ w 3 := by
  obtain ⟨mesh, w, b, hcode, hb, hlen, hrows⟩ := exists_altered
  obtain ⟨hnil, hstored⟩ := stray_repaired hrows
  refine ⟨mesh, w, b, hcode, fun i b' hb' => ?_, ?_, ?_, ?_, hnil, ?_, ?_⟩
  · rw [stray_fetched hrows i, ite_none_right_eq_some] at hb'
    rw [← some.inj hb'.2, update_apply]
    split
    · next hi => rw [hi, hlen]
    · rfl
  · have hone : (strayFetched mesh).altered w = count fun i : Slot => decide (i = 0) := by
      refine count_congr fun i => ?_
      rw [stray_fetched hrows i, update_apply]
      by_cases hi : i = 0
      · simp [hi, hb]
      · by_cases hi3 : i = 3 <;> simp [hi, hi3]
    rw [hone]
    decide
  · rw [stray_available hrows]
    decide
  · rw [hrows 3]
    rfl
  · rw [hstored, update_self]
  · rwa [mirrorCode_shards hcode 3 0]

end Zentalk.Mesh
