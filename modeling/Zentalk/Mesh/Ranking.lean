import Zentalk.Lib.Nearest
import Zentalk.Mesh.Placement
import Mathlib.Data.List.Lex

/-!
# The ranking of the peers

Every node that knows the same peers places shards on the same nodes
(`findClosestNodes_ranking`).
-/

namespace Zentalk.Mesh

open Wire Ranking List

/-! ## Distances -/

/-- A distance as `compareDistances` compares it: byte by byte, and a shorter one first. -/
def rank (distance : Bytes) : List ℕ := distance.map UInt8.toNat

section

variable {a b : Bytes}

theorem rank_inj (h : rank a = rank b) : a = b :=
  map_injective_iff.mpr (fun _ _ => UInt8.toNat_inj.mp) h

/-- `compareDistances` is the lexicographic comparison. -/
theorem compareDistances_iff (a b : Bytes) :
    (compareDistances a b = .lt ↔ rank a < rank b) ∧
      (compareDistances a b = .gt ↔ rank b < rank a) := by
  induction a generalizing b with
  | nil => cases b <;> simp [compareDistances, rank]
  | cons x a ih =>
    cases b with
    | nil => simp [compareDistances, rank]
    | cons y b =>
      obtain ⟨hlt, hgt⟩ := ih b
      unfold rank at hlt hgt
      simp only [compareDistances, rank, map_cons, cons_lt_cons_iff,
        UInt8.lt_iff_toNat_lt, gt_iff_lt]
      rcases Nat.lt_trichotomy x.toNat y.toNat with h | h | h
      · simp [h, h.ne', h.not_gt]
      · simp [h, hlt, hgt]
      · simp [h, h.ne', h.not_gt]

theorem compareDistances_lt_iff : compareDistances a b = .lt ↔ rank a < rank b :=
  (compareDistances_iff a b).1

theorem compareDistances_gt_iff : compareDistances a b = .gt ↔ rank b < rank a :=
  (compareDistances_iff a b).2

theorem xorDistanceBytes_inj {h a b : Bytes} (ha : h.length ≤ a.length) (hb : h.length ≤ b.length)
    (heq : xorDistanceBytes h a = xorDistanceBytes h b) : a = b := by
  induction h generalizing a b with
  | nil => simpa [xorDistanceBytes] using heq
  | cons z h ih =>
    cases a with
    | nil => cases ha
    | cons x a =>
      cases b with
      | nil => cases hb
      | cons y b =>
        obtain ⟨hhead, htail⟩ := cons.inj heq
        rw [(UInt8.xor_right_inj z).mp hhead,
          ih (Nat.le_of_succ_le_succ ha) (Nat.le_of_succ_le_succ hb) htail]

end

/-! ## The bubble sort -/

/-- The last `n` peers are sorted, and no other one is farther. -/
def Settled (n : ℕ) (l : List PeerDistance) : Prop :=
  ∃ front back, l = front ++ back ∧ back.length = n ∧ SortedBy (fun p => rank p.distance) back ∧
    ∀ a ∈ front, ∀ b ∈ back, rank a.distance ≤ rank b.distance

section

theorem bubble_cons_cons (m : ℕ) (a b : PeerDistance) (rest : List PeerDistance) :
    bubble (m + 1) (a :: b :: rest) =
      if compareDistances a.distance b.distance = .gt then b :: bubble m (a :: rest)
      else a :: bubble m (b :: rest) := rfl

theorem bubble_perm (m : ℕ) (l : List PeerDistance) : (bubble m l).Perm l := by
  induction m generalizing l with
  | zero => exact .refl l
  | succ m ih =>
    match l with
    | [] => exact .refl _
    | [a] => exact .refl _
    | a :: b :: rest =>
      rw [bubble_cons_cons]
      split
      · exact ((ih _).cons b).trans (.swap ..)
      · exact (ih _).cons a

theorem bubble_append {m : ℕ} {front : List PeerDistance} (h : m < front.length)
    (back : List PeerDistance) : bubble m (front ++ back) = bubble m front ++ back := by
  induction m generalizing front with
  | zero => rfl
  | succ m ih =>
    match front with
    | [a] => simp at h
    | a :: b :: rest =>
      have hlen x : m < (x :: rest).length := by simpa using h
      rw [cons_append, cons_append, bubble_cons_cons, bubble_cons_cons]
      split
      · exact congrArg (b :: ·) (ih (hlen a))
      · exact congrArg (a :: ·) (ih (hlen b))

variable {l : List PeerDistance}

/-- A pass over a whole list moves the farthest peer to the end. -/
theorem bubble_last {m : ℕ} (h : l.length = m + 1) :
    ∃ front last, bubble m l = front ++ [last] ∧
      ∀ a ∈ l, rank a.distance ≤ rank last.distance := by
  induction m generalizing l with
  | zero =>
    obtain ⟨a, rfl⟩ := length_eq_one_iff.mp h
    exact ⟨[], a, rfl, by simp⟩
  | succ m ih =>
    match l with
    | a :: b :: rest =>
      have hlen x : (x :: rest).length = m + 1 := by simpa using h
      rw [bubble_cons_cons]
      split
      · next hgt =>
        obtain ⟨front, last, heq, hlast⟩ := ih (hlen a)
        have hba := (compareDistances_gt_iff.mp hgt).le
        refine ⟨b :: front, last, by rw [heq, cons_append], fun c hc => ?_⟩
        rcases mem_cons.mp hc with rfl | hc
        · exact hlast c mem_cons_self
        · rcases mem_cons.mp hc with rfl | hc
          · exact hba.trans (hlast a mem_cons_self)
          · exact hlast c (mem_cons_of_mem a hc)
      · next hle =>
        obtain ⟨front, last, heq, hlast⟩ := ih (hlen b)
        have hab : rank a.distance ≤ rank b.distance :=
          not_lt.mp fun h => hle (compareDistances_gt_iff.mpr h)
        refine ⟨a :: front, last, by rw [heq, cons_append], fun c hc => ?_⟩
        rcases mem_cons.mp hc with rfl | hc
        · exact hab.trans (hlast b mem_cons_self)
        · exact hlast c hc

/-- Each pass settles one more place. -/
theorem settled_bubble {n : ℕ} (h : Settled n l) (hn : n < l.length) :
    Settled (n + 1) (bubble (l.length - n - 1) l) := by
  obtain ⟨front, back, rfl, rfl, hsorted, hfar⟩ := h
  rw [length_append] at hn ⊢
  have hfront : front.length = (front.length + back.length - back.length - 1) + 1 := by omega
  obtain ⟨front', last, heq, hlast⟩ := bubble_last hfront
  have hperm := heq ▸ bubble_perm _ front
  have hmem : last ∈ front := hperm.subset (by simp)
  refine ⟨front', last :: back, ?_, rfl, ?_, ?_⟩
  · rw [bubble_append (by omega), heq, append_assoc]
    rfl
  · exact pairwise_cons.mpr ⟨fun b hb => hfar last hmem b hb, hsorted⟩
  · intro a ha b hb
    have ha' : a ∈ front := hperm.subset (mem_append_left _ ha)
    rcases mem_cons.mp hb with rfl | hb
    · exact hlast a ha'
    · exact hfar a ha' b hb

/-- After `n` passes the last `n` places are settled. -/
theorem passes_spec (peers : List PeerDistance) {n : ℕ} (hn : n ≤ peers.length) :
    ((range n).foldl (fun l i => bubble (peers.length - i - 1) l) peers).Perm peers ∧
      Settled n ((range n).foldl (fun l i => bubble (peers.length - i - 1) l) peers) := by
  induction n with
  | zero => exact ⟨.refl _, peers, [], by simp, rfl, .nil, by simp⟩
  | succ n ih =>
    obtain ⟨hperm, hsettled⟩ := ih (Nat.le_of_succ_le hn)
    rw [range_succ, foldl_append, foldl_cons, foldl_nil]
    have hmore := settled_bubble hsettled (hn.trans_eq hperm.length_eq.symm)
    rw [hperm.length_eq] at hmore
    exact ⟨(bubble_perm _ _).trans hperm, hmore⟩

end

variable (peers : List PeerDistance)

theorem sortPeersByDistance_perm : (sortPeersByDistance peers).Perm peers :=
  (passes_spec peers (Nat.sub_le _ 1)).1

/-- The last pass leaves one peer in front, which is the nearest. -/
theorem sortPeersByDistance_sorted :
    SortedBy (fun p => rank p.distance) (sortPeersByDistance peers) := by
  obtain ⟨hperm, front, back, heq, hlen, hsorted, hfar⟩ := passes_spec peers (Nat.sub_le _ 1)
  rw [sortPeersByDistance, heq]
  have hfront : front.length ≤ 1 := by
    have htotal := hperm.length_eq
    rw [heq, length_append] at htotal
    omega
  match front with
  | [] => exact hsorted
  | [a] => exact pairwise_cons.mpr ⟨fun b hb => hfar a (by simp) b hb, hsorted⟩

/-! ## The nearest peers -/

def keyDistance (key : Bytes) (id : PeerID) : Bytes := xorDistanceBytes (hashKey key) id

section

theorem exists_ranked (view : View) (key : Bytes) : ∃ ids : List PeerID,
    (∀ count, findClosestNodes view key count = ids.take count) ∧
      ids.Perm (view.peers.filter view.addressed) ∧
      SortedBy (fun id => rank (keyDistance key id)) ids := by
  set peers := (view.peers.filter view.addressed).map fun id =>
    (⟨id, keyDistance key id⟩ : PeerDistance) with hpeers
  have hperm : (sortPeersByDistance peers).Perm peers := sortPeersByDistance_perm peers
  refine ⟨(sortPeersByDistance peers).map PeerDistance.id, fun count => map_take, ?_, ?_⟩
  · refine (hperm.map PeerDistance.id).trans ?_
    rw [hpeers, map_map]
    exact .of_eq (map_id _)
  · have hdistance : ∀ p ∈ sortPeersByDistance peers, p.distance = keyDistance key p.id := by
      intro p hp
      obtain ⟨id, -, rfl⟩ := mem_map.mp (hperm.subset hp)
      rfl
    refine pairwise_map.mpr ((sortPeersByDistance_sorted peers).imp_of_mem ?_)
    intro a b ha hb (hab : rank a.distance ≤ rank b.distance)
    rw [hdistance a ha, hdistance b hb] at hab
    exact hab

variable {view : View} (hsize : ∀ id ∈ view.peers, 32 ≤ id.length)

include hsize

theorem rank_keyDistance_inj (key : Bytes) {a b : PeerID} (ha : a ∈ view.peers)
    (hb : b ∈ view.peers) (h : rank (keyDistance key a) = rank (keyDistance key b)) : a = b := by
  have hlen : (hashKey key).length = 32 := Sha256.length_sum256 key
  exact xorDistanceBytes_inj (hlen ▸ hsize a ha) (hlen ▸ hsize b hb) (rank_inj h)

/-- The order in which the peers are listed does not matter. -/
theorem findClosestNodes_perm (key : Bytes) {peers : List PeerID} (hperm : peers.Perm view.peers)
    (count : ℕ) : findClosestNodes { view with peers } key count =
      findClosestNodes view key count := by
  obtain ⟨ids, htake, hids, hsorted⟩ := exists_ranked view key
  obtain ⟨ids', htake', hids', hsorted'⟩ := exists_ranked { view with peers } key
  have hmem : ∀ id ∈ ids, id ∈ view.peers := fun id hid =>
    (mem_filter.mp (hids.subset hid)).1
  have heq : ids' = ids := by
    have hall : ids'.Perm ids := hids'.trans ((hperm.filter _).trans hids.symm)
    refine hall.eq_of_pairwise (fun a b ha hb hab hba => ?_) hsorted' hsorted
    exact rank_keyDistance_inj hsize key (hmem a (hall.subset ha)) (hmem b hb) (hab.antisymm hba)
  rw [htake, htake', heq]

end

/-- For peers with different identifiers not shorter than a hash, `FindClosestNodes` returns the
nearest ones with an address, in the strict order of their distances, however the peers are listed.
-/
theorem findClosestNodes_ranking (view : View) (key : Bytes) (count : ℤ)
    (hdistinct : view.peers.Nodup) (hsize : ∀ id ∈ view.peers, 32 ≤ id.length) :
    (findClosestNodes view key count.toNat).length =
      min count.toNat (view.peers.filter view.addressed).length ∧
    (∀ id ∈ findClosestNodes view key count.toNat, id ∈ view.peers ∧ view.addressed id = true) ∧
    (findClosestNodes view key count.toNat).Pairwise (fun a b =>
      compareDistances (keyDistance key a) (keyDistance key b) = .lt) ∧
    (∀ id ∈ view.peers, view.addressed id = true → id ∉ findClosestNodes view key count.toNat →
      ∀ a ∈ findClosestNodes view key count.toNat,
        compareDistances (keyDistance key a) (keyDistance key id) = .lt) ∧
    ∀ peers : List PeerID, peers.Perm view.peers →
      findClosestNodes { view with peers } key count.toNat =
        findClosestNodes view key count.toNat := by
  obtain ⟨ids, htake, hids, hsorted⟩ := exists_ranked view key
  have hnearest : Nearest (fun id => rank (keyDistance key id)) count.toNat
      (view.peers.filter view.addressed) (findClosestNodes view key count.toNat) :=
    htake count.toNat ▸ .take hsorted hids
  have hnodup : ((view.peers.filter view.addressed).map
      fun id => rank (keyDistance key id)).Nodup := by
    refine (hdistinct.filter _).map_on fun a ha b hb h => ?_
    exact rank_keyDistance_inj hsize key (mem_filter.mp ha).1 (mem_filter.mp hb).1 h
  refine ⟨hnearest.length_eq, fun id hid => mem_filter.mp (hnearest.subset hid), ?_, ?_,
    fun peers hperm => findClosestNodes_perm hsize key hperm count.toNat⟩
  · exact (hnearest.increasing hnodup).imp compareDistances_lt_iff.mpr
  · intro id hid haddr hnot a ha
    have hlearned := mem_filter.mpr ⟨hid, haddr⟩
    exact compareDistances_lt_iff.mpr (hnearest.lt_of_not_mem hnodup hlearned hnot a ha)

/-- Three peers of which one has no address. -/
theorem findClosestNodes_ranking_three :
    let view : View := ⟨[replicate 32 1, replicate 33 2, replicate 32 3],
      fun id => id ≠ replicate 32 3, fun _ => true⟩
    (findClosestNodes view [97] 5).length = 2 ∧
    ∀ peers : List PeerID, peers.Perm view.peers →
      findClosestNodes { view with peers } [97] 5 = findClosestNodes view [97] 5 := by
  intro view
  have hdistinct : view.peers.Nodup := by decide
  have hsize : ∀ id ∈ view.peers, 32 ≤ id.length := by decide
  obtain ⟨hlen, -, -, -, hperm⟩ := findClosestNodes_ranking view [97] 5 hdistinct hsize
  exact ⟨hlen, hperm⟩

theorem storeNodes_perm {view : View} (hsize : ∀ id ∈ view.peers, 32 ≤ id.length)
    {peers : List PeerID} (hperm : peers.Perm view.peers) (self : PeerID) (userAddr : Bytes)
    (chunkID : ℤ) : storeNodes self { view with peers } userAddr chunkID =
      storeNodes self view userAddr chunkID := by
  rw [storeNodes, storeNodes, findStorageNodes, findStorageNodes,
    findClosestNodes_perm hsize _ hperm]

end Zentalk.Mesh
