import Zentalk.Lib.Sha256
import Zentalk.Mesh.Erasure

/-!
# Which node holds which shard

`FindClosestNodes` ranks the peers by their distance to the hash of a key.
-/

namespace Zentalk.Mesh

open Wire Decimal List

/-- A `peer.ID`; the empty one is the zero value. -/
abbrev PeerID := Bytes

/-! ## Ranking -/

/-- `xorDistanceBytes`: the shorter string is padded with zeros. -/
def xorDistanceBytes : Bytes → Bytes → Bytes
  | [], b => b
  | a, [] => a
  | x :: a, y :: b => (x ^^^ y) :: xorDistanceBytes a b

def compareDistances : Bytes → Bytes → Ordering
  | x :: a, y :: b => if x < y then .lt else if x > y then .gt else compareDistances a b
  | [], [] => .eq
  | [], _ :: _ => .lt
  | _ :: _, [] => .gt

structure PeerDistance where
  id : PeerID
  distance : Bytes

/-- The inner loop of `sortPeersByDistance`, with `m` comparisons to make. -/
def bubble : ℕ → List PeerDistance → List PeerDistance
  | m + 1, a :: b :: rest =>
    if compareDistances a.distance b.distance = .gt then b :: bubble m (a :: rest)
    else a :: bubble m (b :: rest)
  | _, peers => peers

def sortPeersByDistance (peers : List PeerDistance) : List PeerDistance :=
  (range (peers.length - 1)).foldl (fun l i => bubble (peers.length - i - 1) l) peers

/-- What a node knows of the other nodes during an operation: its connected peers in the order of
`Network().Peers()`, which of them have an address in the peerstore, and which nodes a request
reaches. -/
structure View where
  peers : List PeerID
  addressed : PeerID → Bool
  online : PeerID → Bool

def hashKey (key : Bytes) : Bytes := Sha256.sum256 key

/-- `FindClosestNodes`, without the addresses it returns. A negative count takes no peers, as zero
does. -/
def findClosestNodes (view : View) (key : Bytes) (count : ℕ) : List PeerID :=
  let peerDistances := (view.peers.filter view.addressed).map fun id =>
    (⟨id, xorDistanceBytes (hashKey key) id⟩ : PeerDistance)
  ((sortPeersByDistance peerDistances).take count).map PeerDistance.id

/-- `findStorageNodes` of the node `self`. -/
def findStorageNodes (self : PeerID) (view : View) (key : Bytes) (count : ℕ) : List PeerID :=
  let peerIDs := (findClosestNodes view key count).filter fun id => id ≠ self
  if peerIDs.length < count then peerIDs ++ [self] else peerIDs

/-- The node itself has the shards for which there are too few peers. -/
def shardNodes (self : PeerID) (nodes : List PeerID) : Slot → PeerID := fun i => nodes.getD i self

/-! ## Keys -/

/-- The text `"%s:%d"` of a user and a chunk. -/
def chunkText (userAddr : Bytes) (chunkID : ℤ) : Bytes :=
  userAddr ++ asciiBytes ":" ++ decimal chunkID

def generateStorageKey (userAddr : Bytes) (chunkID : ℤ) : Bytes :=
  (Sha256.sum256 (chunkText userAddr chunkID)).flatMap hexByte

/-- What stands after the user in the key of a shard. -/
def shardSuffix (chunkID : ℤ) (i : Slot) : Bytes :=
  asciiBytes "_" ++ decimal chunkID ++ asciiBytes "_shard_" ++ decimal i

/-- The key `"%s_%d_shard_%d"` of a shard. -/
def shardKey (userAddr : Bytes) (chunkID : ℤ) (i : Slot) : Bytes :=
  userAddr ++ shardSuffix chunkID i

/-- Where `StoreDistributed` and `RepairChunk` put the shards of a chunk. -/
@[irreducible] def storeNodes (self : PeerID) (view : View) (userAddr : Bytes) (chunkID : ℤ) :
    Slot → PeerID :=
  shardNodes self (findStorageNodes self view (generateStorageKey userAddr chunkID) totalShards)

/-- Where `DeleteChunk` looks for the shards of a chunk. -/
@[irreducible] def deleteNodes (self : PeerID) (view : View) (userAddr : Bytes) (chunkID : ℤ) :
    Slot → PeerID :=
  shardNodes self (findStorageNodes self view (chunkText userAddr chunkID) totalShards)

theorem underscore_notMem_decimal (z : ℤ) : (95 : UInt8) ∉ decimal z := by
  intro h
  rcases mem_decimal h with h | h
  · exact absurd h (by decide)
  · exact absurd h.2 (by decide)

/-- The last underscore before `_shard_` ends the user. -/
theorem shardKey_inj {u u' : Bytes} {c c' : ℤ} {i : Slot} (h : shardKey u c i = shardKey u' c' i) :
    u = u' ∧ c = c' := by
  have hcut : u ++ 95 :: decimal c = u' ++ 95 :: decimal c' := by
    simp only [shardKey, shardSuffix, ← append_assoc] at h
    have h := append_cancel_right (append_cancel_right h)
    rwa [append_assoc, append_assoc] at h
  obtain ⟨hu, hc⟩ := append_cons_inj (underscore_notMem_decimal c) (underscore_notMem_decimal c')
    hcut
  exact ⟨hu, decimal_inj hc⟩

theorem ascii_shardSuffix (c : ℤ) (i : Slot) : ∀ x ∈ shardSuffix c i, x.toNat < 128 := by
  have hdecimal z : ∀ x ∈ decimal z, x.toNat < 128 := by
    intro x hx
    rcases mem_decimal hx with h | h
    · omega
    · omega
  have hscore : ∀ x ∈ asciiBytes "_", x.toNat < 128 := by decide +kernel
  have hshard : ∀ x ∈ asciiBytes "_shard_", x.toNat < 128 := by decide +kernel
  intro x hx
  simp only [shardSuffix, mem_append] at hx
  rcases hx with ((hx | hx) | hx) | hx
  · exact hscore x hx
  · exact hdecimal c x hx
  · exact hshard x hx
  · exact hdecimal i x hx

theorem shardNodes_of_nil (self : PeerID) {view : View} (h : view.peers = []) (key : Bytes)
    (i : Slot) : shardNodes self (findStorageNodes self view key totalShards) i = self := by
  have hnodes : findStorageNodes self view key totalShards = [self] := by
    rw [findStorageNodes, findClosestNodes, h]
    rfl
  rw [shardNodes, hnodes]
  cases hi : (i : ℕ) with
  | zero => rfl
  | succ n => rfl

theorem storeNodes_of_nil (self : PeerID) {view : View} (h : view.peers = []) (u : Bytes) (c : ℤ)
    (i : Slot) : storeNodes self view u c i = self := by
  rw [storeNodes, shardNodes_of_nil self h]

end Zentalk.Mesh
