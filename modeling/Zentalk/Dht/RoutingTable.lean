import Zentalk.Dht.NodeId
import Zentalk.Lib.Nearest
import Mathlib.Data.List.FinRange

/-!
# The routing table

`routing_table.go`: 160 buckets of at most `K` contacts (`findClosest_nearest`).
-/

namespace Zentalk.Dht

open Wire Ranking List NodeID

/-- The replication parameter `K`, which is also the size of a bucket. -/
def K : ℕ := 20

def bucketCount : ℕ := 160

/-- `Contact`: an identifier and an address `IP:Port`. -/
structure Contact where
  id : NodeID
  address : Bytes
deriving DecidableEq

def Contact.far (target : NodeID) (c : Contact) : ℕ := NodeID.distance c.id target

/-! ## The index of a bucket -/

/-- The inner loop of `getBucketIndex`: the first bit of a byte that is set, from the left. -/
def highBit (b : UInt8) : Option ℕ :=
  (List.range 8).find? fun n => b &&& (1 <<< UInt8.ofNat (7 - n)) ≠ 0

/-- The outer loop of `getBucketIndex`, from byte `i` on. -/
def bucketLoop : ℕ → Bytes → Option ℕ
  | _, [] => none
  | i, b :: rest =>
    if b ≠ 0 then
      match highBit b with
      | some n => some (i * 8 + n)
      | none => bucketLoop (i + 1) rest
    else bucketLoop (i + 1) rest

theorem highBit_lt {b : UInt8} {n : ℕ} (h : highBit b = some n) : n < 8 :=
  mem_range.mp (mem_of_find?_eq_some h)

theorem bucketLoop_lt {i n : ℕ} {b : Bytes} (h : bucketLoop i b = some n) :
    n < (i + b.length) * 8 := by
  induction b generalizing i with
  | nil => cases h
  | cons x b ih =>
    have hskip (h : bucketLoop (i + 1) b = some n) : n < (i + (x :: b).length) * 8 := by
      have hlt := ih h
      rw [length_cons]
      omega
    rw [bucketLoop] at h
    split at h
    · split at h
      · next m hm =>
        have hlt := highBit_lt hm
        obtain rfl := Option.some.inj h
        rw [length_cons]
        omega
      · exact hskip h
    · exact hskip h

theorem bucketIndex_lt (self id : NodeID) :
    (bucketLoop 0 (NodeID.xor self id).bytes).getD (bucketCount - 1) < bucketCount := by
  cases h : bucketLoop 0 (xor self id).bytes with
  | none => decide
  | some n =>
    have hlt := bucketLoop_lt h
    rw [ByteArr.length_bytes] at hlt
    exact hlt

def getBucketIndex (self id : NodeID) : Fin bucketCount :=
  ⟨(bucketLoop 0 (NodeID.xor self id).bytes).getD (bucketCount - 1), bucketIndex_lt self id⟩

/-! ## Buckets -/

/-- `Bucket`: bucket `i` of the node `owner`, least recently seen first. -/
structure Bucket (owner : NodeID) (i : Fin bucketCount) where
  contacts : List Contact
  index : ∀ c ∈ contacts, getBucketIndex owner c.id = i
  ne_self : ∀ c ∈ contacts, c.id ≠ owner
  nodup : (contacts.map Contact.id).Nodup
  size_le : contacts.length ≤ K

namespace Bucket

variable {owner : NodeID} {i : Fin bucketCount}

/-- `NewBucket`. -/
def empty (owner : NodeID) (i : Fin bucketCount) : Bucket owner i :=
  ⟨[], nofun, nofun, .nil, by simp⟩

/-- `Bucket.AddContact` on the list: a known contact moves to the back, a new one needs room. -/
def addTo (contacts : List Contact) (contact : Contact) : List Contact × Bool :=
  match contacts.find? fun c => c.id = contact.id with
  | some c => (contacts.eraseP (fun c => c.id = contact.id) ++ [c], true)
  | none => if contacts.length < K then (contacts ++ [contact], true) else (contacts, false)

variable (contacts : List Contact)

theorem map_id_eraseP (id : NodeID) :
    (contacts.eraseP fun c => c.id = id).map Contact.id = (contacts.map Contact.id).erase id := by
  rw [erase_eq_eraseP', eraseP_map]
  rfl

theorem addTo_outcomes (contact : Contact) :
    (contact.id ∈ contacts.map Contact.id ∧ (addTo contacts contact).2 = true ∧
      (addTo contacts contact).1.Perm contacts ∧ (addTo contacts contact).1.map Contact.id =
        (contacts.map Contact.id).erase contact.id ++ [contact.id]) ∨
    contact.id ∉ contacts.map Contact.id ∧ addTo contacts contact =
      if contacts.length < K then (contacts ++ [contact], true) else (contacts, false) := by
  unfold addTo
  split
  · next c hc =>
    obtain ⟨hid, before, after, rfl, hbefore⟩ := List.find?_eq_some_iff_append.mp hc
    have herase : (before ++ c :: after).eraseP (fun c => c.id = contact.id) = before ++ after := by
      rw [eraseP_append_right _ fun b hb => by simpa using hbefore b hb]
      simp [of_decide_eq_true hid]
    have hback : (after ++ [c]).Perm (c :: after) := perm_append_comm
    refine .inl ⟨by simp [of_decide_eq_true hid], rfl, ?_, ?_⟩
    · rw [herase, append_assoc]
      exact hback.append_left before
    · rw [map_append, map_id_eraseP, map_singleton, of_decide_eq_true hid]
  · next hnone =>
    refine .inr ⟨fun hmem => ?_, rfl⟩
    obtain ⟨c, hc, hid⟩ := mem_map.mp hmem
    simpa [hid] using List.find?_eq_none.mp hnone c hc

theorem addTo_cases (contact : Contact) :
    (addTo contacts contact).1.Perm contacts ∨
      (addTo contacts contact).1 = contacts ++ [contact] ∧
        contact.id ∉ contacts.map Contact.id ∧ contacts.length < K := by
  rcases addTo_outcomes contacts contact with ⟨-, -, hperm, -⟩ | ⟨hnew, heq⟩
  · exact .inl hperm
  · rw [heq]
    split
    · next hroom => exact .inr ⟨rfl, hnew, hroom⟩
    · exact .inl (.refl _)

/-- `Bucket.AddContact`, for a contact that belongs there. -/
def addContact (b : Bucket owner i) (contact : Contact)
    (hindex : getBucketIndex owner contact.id = i)
    (hself : contact.id ≠ owner) : Bucket owner i × Bool :=
  have hadd := addTo_cases b.contacts contact
  ({ contacts := (addTo b.contacts contact).1
     index := by
      intro c hc
      rcases hadd with hperm | ⟨heq, -, -⟩
      · exact b.index c (hperm.subset hc)
      · rw [heq, mem_append, mem_singleton] at hc
        rcases hc with hc | rfl
        · exact b.index c hc
        · exact hindex
     ne_self := by
      intro c hc
      rcases hadd with hperm | ⟨heq, -, -⟩
      · exact b.ne_self c (hperm.subset hc)
      · rw [heq, mem_append, mem_singleton] at hc
        rcases hc with hc | rfl
        · exact b.ne_self c hc
        · exact hself
     nodup := by
      rcases hadd with hperm | ⟨heq, hnew, -⟩
      · exact (hperm.map Contact.id).nodup_iff.mpr b.nodup
      · rw [heq, map_append, nodup_append]
        refine ⟨b.nodup, nodup_singleton _, ?_⟩
        rintro a ha b hb rfl
        obtain rfl := mem_singleton.mp hb
        exact hnew ha
     size_le := by
      rcases hadd with hperm | ⟨heq, -, hroom⟩
      · exact hperm.length_eq.trans_le b.size_le
      · rw [heq, length_append]
        exact hroom },
   (addTo b.contacts contact).2)

def removeContact (b : Bucket owner i) (id : NodeID) : Bucket owner i where
  contacts := b.contacts.eraseP fun c => c.id = id
  index c hc := b.index c (mem_of_mem_eraseP hc)
  ne_self c hc := b.ne_self c (mem_of_mem_eraseP hc)
  nodup := b.nodup.sublist ((eraseP_sublist).map Contact.id)
  size_le := (eraseP_sublist).length_le.trans b.size_le

end Bucket

/-! ## The table -/

structure RoutingTable where
  self : NodeID
  buckets : (i : Fin bucketCount) → Bucket self i

namespace RoutingTable

/-- `NewRoutingTable`. -/
def new (self : NodeID) : RoutingTable := ⟨self, Bucket.empty self⟩

/-- `RoutingTable.AddContact`: the node itself is never added. -/
def addContact (rt : RoutingTable) (contact : Contact) : RoutingTable × Bool :=
  if hself : contact.id = rt.self then (rt, false)
  else
    let bucketIndex := getBucketIndex rt.self contact.id
    let out := (rt.buckets bucketIndex).addContact contact rfl hself
    ({ rt with buckets := Function.update rt.buckets bucketIndex out.1 }, out.2)

def removeContact (rt : RoutingTable) (id : NodeID) : RoutingTable :=
  let bucketIndex := getBucketIndex rt.self id
  { rt with
    buckets := Function.update rt.buckets bucketIndex
      ((rt.buckets bucketIndex).removeContact id) }

def getContact (rt : RoutingTable) (id : NodeID) : Option Contact :=
  (rt.buckets (getBucketIndex rt.self id)).contacts.find? fun c => c.id = id

/-- `GetAllContacts`: the contacts of all buckets. -/
def allContacts (rt : RoutingTable) : List Contact :=
  (List.finRange bucketCount).flatMap fun i => (rt.buckets i).contacts

/-- `FindClosest`. The slice `allContacts[:count]` panics for a negative count. -/
def findClosest (rt : RoutingTable) (target : NodeID) (count : ℤ) : Option (List Contact) :=
  let allContacts := exchangeSort (fun a b => NodeID.closerTo a.id target b.id) rt.allContacts
  if count < allContacts.length then
    if count < 0 then none else some (allContacts.take count.toNat)
  else some allContacts

theorem ne_self_of_mem {rt : RoutingTable} {c : Contact} (h : c ∈ rt.allContacts) :
    c.id ≠ rt.self := by
  obtain ⟨i, -, hc⟩ := mem_flatMap.mp h
  exact (rt.buckets i).ne_self c hc

variable (rt : RoutingTable)

theorem allContacts_nodup : (rt.allContacts.map Contact.id).Nodup := by
  rw [allContacts, map_flatMap, nodup_flatMap]
  refine ⟨fun i _ => (rt.buckets i).nodup, ?_⟩
  refine (nodup_finRange bucketCount).imp fun {i j} hne id hi hj => hne ?_
  obtain ⟨c, hc, rfl⟩ := mem_map.mp hi
  obtain ⟨c', hc', hid⟩ := mem_map.mp hj
  rw [← (rt.buckets i).index c hc, ← hid, (rt.buckets j).index c' hc']

theorem findClosest_spec {rt : RoutingTable} {target : NodeID} {count : ℤ} {l : List Contact}
    (h : rt.findClosest target count = some l) :
    SortedBy (Contact.far target) l ∧ l.length ≤ count.toNat ∧ (∀ c ∈ l, c ∈ rt.allContacts) ∧
      (l.map Contact.id).Nodup := by
  set all := exchangeSort (fun a b => closerTo a.id target b.id) rt.allContacts with hall
  have hperm : all.Perm rt.allContacts := exchangeSort_perm _
  have hsorted : SortedBy (Contact.far target) all :=
    exchangeSort_sorted (fun a b => closerTo_iff a.id target b.id) _
  have hnodup : (all.map Contact.id).Nodup :=
    (hperm.map Contact.id).nodup_iff.mpr rt.allContacts_nodup
  unfold findClosest at h
  simp only at h
  split at h
  · split at h
    · cases h
    · obtain rfl := Option.some.inj h
      have hsub := take_sublist count.toNat all
      exact ⟨hsorted.sublist hsub, length_take_le _ _, fun c hc => hperm.subset (hsub.subset hc),
        hnodup.sublist (hsub.map Contact.id)⟩
  · obtain rfl := Option.some.inj h
    exact ⟨hsorted, by omega, fun c hc => hperm.subset hc, hnodup⟩

theorem allContacts_far_nodup (target : NodeID) :
    (rt.allContacts.map (Contact.far target)).Nodup := by
  have hids := pairwise_map.mp rt.allContacts_nodup
  exact pairwise_map.mpr (hids.imp fun hne heq => hne (distance_inj heq))

theorem findClosest_eq (target : NodeID) (count : ℕ) :
    rt.findClosest target count = some ((exchangeSort
      (fun a b => NodeID.closerTo a.id target b.id) rt.allContacts).take count) := by
  unfold findClosest
  simp only
  split
  · rw [if_neg (by omega), Int.toNat_natCast]
  · rw [take_of_length_le (by omega)]

/-- `FindClosest` returns the nearest contacts, as many as asked for or all of them, nearest first.
-/
theorem findClosest_nearest (rt : RoutingTable) (target : NodeID) (count : ℕ) :
    ∃ l, rt.findClosest target count = some l ∧ l.length = min count rt.allContacts.length ∧
      (∀ c ∈ l, c ∈ rt.allContacts) ∧ (l.map Contact.id).Nodup ∧
      l.Pairwise (fun a b => NodeID.distance a.id target < NodeID.distance b.id target) ∧
      ∀ c ∈ rt.allContacts, c ∉ l →
        ∀ a ∈ l, NodeID.distance a.id target < NodeID.distance c.id target := by
  have hsorted := exchangeSort_sorted (fun a b : Contact => closerTo_iff a.id target b.id)
    rt.allContacts
  have hnearest : Nearest (Contact.far target) count rt.allContacts _ :=
    .take hsorted (exchangeSort_perm rt.allContacts)
  have hfar := rt.allContacts_far_nodup target
  have heq := rt.findClosest_eq target count
  obtain ⟨-, -, hmem, hnodup⟩ := findClosest_spec heq
  exact ⟨_, heq, hnearest.length_eq, hmem, hnodup, hnearest.increasing hfar,
    fun c hc hnot => hnearest.lt_of_not_mem hfar hc hnot⟩

end RoutingTable

end Zentalk.Dht
