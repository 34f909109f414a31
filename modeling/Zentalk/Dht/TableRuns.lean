import Zentalk.Dht.RoutingTable
import Zentalk.Lib.Run
import Mathlib.Data.Nat.Bitwise

/-!
# The routing table over a run of calls

What the buckets hold can be read off the log of the calls (`routingTable_invariant`).
-/

namespace Zentalk.Dht

open Wire Runs List Function Option ByteArr RoutingTable Run Nat

/-! ## Leading bits -/

/-- Bit `n` of a byte string, from the left. -/
def bitAt (b : Bytes) (n : ℕ) : Bool := (b.getD (n / 8) 0).toNat.testBit (7 - n % 8)

/-- `id` has exactly the first `n` bits in common with `self`. -/
def SharesExactly (self id : NodeID) (n : ℕ) : Prop :=
  (∀ m < n, bitAt self.bytes m = bitAt id.bytes m) ∧ bitAt self.bytes n ≠ bitAt id.bytes n

section

/-- The first set bit of a byte string is bit `n`. -/
def FirstBit (b : Bytes) (n : ℕ) : Prop := (∀ m < n, bitAt b m = false) ∧ bitAt b n = true

variable {b : Bytes} {n : ℕ}

theorem FirstBit.unique {m : ℕ} (hm : FirstBit b m) (hn : FirstBit b n) : m = n := by
  rcases lt_trichotomy m n with hlt | heq | hgt
  · exact absurd hm.2 (by simp [hn.1 m hlt])
  · exact heq
  · exact absurd hn.2 (by simp [hm.1 n hgt])

theorem mask_ne_zero_iff (b : UInt8) {k : ℕ} (hk : k < 8) :
    b &&& (1 <<< UInt8.ofNat k) ≠ 0 ↔ b.toNat.testBit k = true := by
  have hshift : (UInt8.ofNat k).toNat % 8 = k := by
    rw [UInt8.toNat_ofNat']
    omega
  have hmask : UInt8.toNat 1 <<< k % 2 ^ 8 = 2 ^ k := by
    rw [show UInt8.toNat 1 = 1 from rfl, one_shiftLeft]
    exact Nat.mod_eq_of_lt (Nat.pow_lt_pow_right (by norm_num) hk)
  rw [ne_eq, ← UInt8.toNat_inj, UInt8.toNat_and, UInt8.toNat_shiftLeft, hshift, hmask, and_two_pow]
  simp

theorem highBit_some {b : UInt8} (h : highBit b = some n) :
    b.toNat.testBit (7 - n) = true ∧ ∀ m < n, b.toNat.testBit (7 - m) = false := by
  obtain ⟨hbit, hrange, hbefore⟩ := find?_range_eq_some.mp h
  refine ⟨(mask_ne_zero_iff b (by omega)).mp (of_decide_eq_true hbit), fun m hm => ?_⟩
  have hno := hbefore m hm
  rw [Bool.not_eq_true', decide_eq_false_iff_not, mask_ne_zero_iff b (by omega)] at hno
  exact Bool.eq_false_iff.mpr hno

theorem eq_zero_of_highBit {b : UInt8} (h : highBit b = none) : b = 0 := by
  have hno := find?_eq_none.mp h
  refine UInt8.toNat_inj.mp (eq_of_testBit_eq fun k => ?_)
  rw [show UInt8.toNat 0 = 0 from rfl, zero_testBit]
  by_cases hk : k < 8
  · have hbit := hno (7 - k) (mem_range.mpr (by omega))
    rw [show 7 - (7 - k) = k by omega, decide_eq_true_eq, mask_ne_zero_iff b hk] at hbit
    exact Bool.eq_false_iff.mpr hbit
  · exact Nat.testBit_lt_two_pow (b.toNat_lt.trans_le (Nat.pow_le_pow_right (by norm_num)
      (Nat.le_of_not_lt hk)))

theorem bitAt_cons_of_lt (x : UInt8) (b : Bytes) (h : n < 8) :
    bitAt (x :: b) n = x.toNat.testBit (7 - n) := by
  rw [bitAt, div_eq_of_lt h, mod_eq_of_lt h, getD_cons_zero]

theorem bitAt_cons_add (x : UInt8) (b : Bytes) (n : ℕ) : bitAt (x :: b) (n + 8) = bitAt b n := by
  rw [bitAt, bitAt, add_div_right n (by norm_num), add_mod_right, getD_cons_succ]

theorem bitAt_zero_cons (b : Bytes) (h : n < 8) : bitAt (0 :: b) n = false := by
  rw [bitAt_cons_of_lt _ _ h, show UInt8.toNat 0 = 0 from rfl, zero_testBit]

theorem FirstBit.zero_cons (h : FirstBit b n) : FirstBit (0 :: b) (n + 8) := by
  refine ⟨fun m hm => ?_, by rw [bitAt_cons_add, h.2]⟩
  by_cases hlt : m < 8
  · exact bitAt_zero_cons b hlt
  · obtain ⟨k, rfl⟩ := Nat.exists_eq_add_of_le' (Nat.le_of_not_lt hlt)
    rw [bitAt_cons_add]
    exact h.1 k (by omega)

theorem bucketLoop_some {i : ℕ} (h : bucketLoop i b = some n) :
    ∃ m, n = i * 8 + m ∧ FirstBit b m := by
  induction b generalizing i with
  | nil => cases h
  | cons x b ih =>
    have hskip (hx : x = 0) (h : bucketLoop (i + 1) b = some n) :
        ∃ m, n = i * 8 + m ∧ FirstBit (x :: b) m := by
      obtain ⟨m, rfl, hfirst⟩ := ih h
      subst hx
      exact ⟨m + 8, by omega, hfirst.zero_cons⟩
    rw [bucketLoop] at h
    split at h
    · split at h
      · next m hm =>
        obtain rfl := some.inj h
        have hlt := highBit_lt hm
        obtain ⟨hbit, hbefore⟩ := highBit_some hm
        refine ⟨m, rfl, fun k hk => ?_, ?_⟩
        · rw [bitAt_cons_of_lt _ _ (hk.trans hlt)]
          exact hbefore k hk
        · rw [bitAt_cons_of_lt _ _ hlt]
          exact hbit
      · next hnone => exact hskip (eq_zero_of_highBit hnone) h
    · next hx => exact hskip (by simpa using hx) h

theorem bucketLoop_none {i : ℕ} (h : bucketLoop i b = none) : ∀ x ∈ b, x = 0 := by
  induction b generalizing i with
  | nil => simp
  | cons y b ih =>
    rw [bucketLoop] at h
    split at h
    · next hy =>
      split at h
      · cases h
      · next hnone => exact absurd (eq_zero_of_highBit hnone) hy
    · next hy =>
      rw [ne_eq, not_not] at hy
      simpa [hy] using ih h

theorem bitAt_zipWith_xor {a : Bytes} (h : a.length = b.length) (n : ℕ) :
    bitAt (zipWith (· ^^^ ·) a b) n = (bitAt a n ^^ bitAt b n) := by
  have hbyte : (zipWith (· ^^^ ·) a b).getD (n / 8) 0 =
      a.getD (n / 8) 0 ^^^ b.getD (n / 8) 0 := by
    by_cases hlt : n / 8 < a.length
    · simp [hlt, h ▸ hlt]
    · simp [hlt, h ▸ hlt]
  rw [bitAt, hbyte, UInt8.toNat_xor, testBit_xor]
  rfl

/-- The bits shared come before the first set bit of the XOR. -/
theorem sharesExactly_iff (self id : NodeID) (n : ℕ) :
    SharesExactly self id n ↔ FirstBit (NodeID.xor self id).bytes n := by
  have hbit m : bitAt (NodeID.xor self id).bytes m =
      (bitAt self.bytes m ^^ bitAt id.bytes m) := bitAt_zipWith_xor (by simp) m
  unfold SharesExactly FirstBit
  simp [hbit]

theorem xor_eq_zero {a : Bytes} (h : a.length = b.length)
    (hzero : ∀ x ∈ zipWith (· ^^^ ·) a b, x = 0) : a = b := by
  induction a generalizing b with
  | nil => exact (length_eq_zero_iff.mp h.symm).symm
  | cons x a ih =>
    obtain ⟨y, b, rfl⟩ := exists_cons_of_length_eq_add_one h.symm
    rw [zipWith_cons_cons, forall_mem_cons, UInt8.xor_eq_zero_iff] at hzero
    rw [hzero.1, ih (by simpa using h) hzero.2]

theorem bucketLoop_of_ne {self id : NodeID} (hne : id ≠ self) :
    ∃ n, bucketLoop 0 (NodeID.xor self id).bytes = some n ∧
      FirstBit (NodeID.xor self id).bytes n := by
  cases h : bucketLoop 0 (NodeID.xor self id).bytes with
  | none => exact absurd (ByteArr.ext (xor_eq_zero (by simp) (bucketLoop_none h))).symm hne
  | some n =>
    obtain ⟨m, rfl, hfirst⟩ := bucketLoop_some h
    rw [zero_mul, zero_add]
    exact ⟨m, rfl, hfirst⟩

end

theorem getBucketIndex_eq_iff {self id : NodeID} (hne : id ≠ self) (i : Fin bucketCount) :
    getBucketIndex self id = i ↔ SharesExactly self id i := by
  obtain ⟨n, hloop, hfirst⟩ := bucketLoop_of_ne hne
  have hindex : (getBucketIndex self id : ℕ) = n := by simp [getBucketIndex, hloop]
  rw [sharesExactly_iff, Fin.ext_iff, hindex]
  exact ⟨fun heq => heq ▸ hfirst, hfirst.unique⟩

/-! ## Calls and what the log of them says -/

/-- A call on the table: `AddContact` with what it returned, or `RemoveContact`. -/
inductive TableCall
  | add (contact : Contact) (accepted : Bool)
  | remove (id : NodeID)
deriving DecidableEq

inductive TableStep : RoutingTable → TableCall → RoutingTable → Prop
  | add {rt rt' : RoutingTable} {contact : Contact} {accepted : Bool} :
      rt.addContact contact = (rt', accepted) → TableStep rt (.add contact accepted) rt'
  | remove {rt : RoutingTable} {id : NodeID} : TableStep rt (.remove id) (rt.removeContact id)

def TableCall.accepts (id : NodeID) : TableCall → Bool
  | .add contact true => contact.id = id
  | _ => false

def lastAccepted (calls : List TableCall) (id : NodeID) : Option ℕ :=
  (calls.zipIdx.filter fun call => call.1.accepts id).getLast?.map Prod.snd

/-- `id` was accepted, and not removed since. -/
def AcceptedSince (calls : List TableCall) (id : NodeID) : Prop :=
  ∃ pre contact post, calls = pre ++ .add contact true :: post ∧ contact.id = id ∧
    .remove id ∉ post

section

/-! ## How one more call changes what the log says -/

theorem lastAccepted_snoc (calls : List TableCall) (call : TableCall) (id : NodeID) :
    lastAccepted (calls ++ [call]) id =
      if call.accepts id then some calls.length else lastAccepted calls id := by
  unfold lastAccepted
  rw [zipIdx_append, filter_append, getLast?_append]
  cases h : call.accepts id with
  | true => simp [h]
  | false => simp [h]

variable {calls : List TableCall} {id owner : NodeID} {call : TableCall} {contact : Contact}
  {rt rt' : RoutingTable}

theorem lastAccepted_lt {n : ℕ} (h : lastAccepted calls id = some n) : n < calls.length := by
  obtain ⟨⟨call, m⟩, hlast, rfl⟩ := map_eq_some_iff.mp h
  have hmem := mem_of_mem_filter (mem_of_getLast? hlast)
  simpa using (mem_zipIdx hmem).2.1

theorem append_cons_eq_snoc {pre post : List TableCall} {x : TableCall}
    (h : calls ++ [call] = pre ++ x :: post) :
    (post = [] ∧ x = call ∧ pre = calls) ∨ ∃ post', post = post' ++ [call] ∧
      calls = pre ++ x :: post' := by
  rcases eq_nil_or_concat post with rfl | ⟨post', y, rfl⟩
  · obtain ⟨rfl, hx⟩ := append_inj' h rfl
    cases hx
    exact .inl ⟨rfl, rfl, rfl⟩
  · rw [concat_eq_append, ← cons_append, ← append_assoc] at h
    obtain ⟨rfl, hx⟩ := append_inj' h rfl
    cases hx
    exact .inr ⟨post', concat_eq_append, rfl⟩

theorem acceptedSince_snoc_add (calls : List TableCall) (contact : Contact) (accepted : Bool)
    (id : NodeID) :
    AcceptedSince (calls ++ [.add contact accepted]) id ↔
      (accepted = true ∧ contact.id = id) ∨ AcceptedSince calls id := by
  constructor
  · rintro ⟨pre, c, post, heq, hid, hpost⟩
    rcases append_cons_eq_snoc heq with ⟨-, hx, -⟩ | ⟨post', rfl, rfl⟩
    · cases hx
      exact .inl ⟨rfl, hid⟩
    · exact .inr ⟨pre, c, post', rfl, hid, fun hmem => hpost (mem_append_left _ hmem)⟩
  · rintro (⟨rfl, hid⟩ | ⟨pre, c, post, rfl, hid, hpost⟩)
    · exact ⟨calls, contact, [], rfl, hid, not_mem_nil⟩
    · refine ⟨pre, c, post ++ [.add contact accepted], by simp, hid, ?_⟩
      simpa using hpost

theorem acceptedSince_snoc_remove (calls : List TableCall) (removed id : NodeID) :
    AcceptedSince (calls ++ [.remove removed]) id ↔ id ≠ removed ∧ AcceptedSince calls id := by
  constructor
  · rintro ⟨pre, c, post, heq, hid, hpost⟩
    rcases append_cons_eq_snoc heq with ⟨-, hx, -⟩ | ⟨post', rfl, rfl⟩
    · cases hx
    · rw [mem_append, mem_singleton, TableCall.remove.injEq, not_or] at hpost
      exact ⟨hpost.2, pre, c, post', rfl, hid, hpost.1⟩
  · rintro ⟨hne, pre, c, post, rfl, hid, hpost⟩
    refine ⟨pre, c, post ++ [.remove removed], by simp, hid, ?_⟩
    simpa using ⟨hpost, hne⟩

/-! ## How one call changes the identifiers of a bucket -/

/-- The identifiers of a bucket, least recently accepted first. -/
def ids (rt : RoutingTable) (i : Fin bucketCount) : List NodeID :=
  (rt.buckets i).contacts.map Contact.id

variable {contacts : List Contact}

theorem addTo_true (h : (Bucket.addTo contacts contact).2 = true) :
    (Bucket.addTo contacts contact).1.map Contact.id =
      (contacts.map Contact.id).erase contact.id ++ [contact.id] := by
  rcases Bucket.addTo_outcomes contacts contact with ⟨-, -, -, hids⟩ | ⟨hnew, heq⟩
  · exact hids
  · rw [heq] at h ⊢
    split at h
    · next hroom => rw [if_pos hroom, map_append, erase_of_not_mem hnew, map_singleton]
    · cases h

/-- An `AddContact` that returns false changes nothing. -/
theorem addTo_false (h : (Bucket.addTo contacts contact).2 = false) :
    (Bucket.addTo contacts contact).1 = contacts := by
  rcases Bucket.addTo_outcomes contacts contact with ⟨-, htrue, -⟩ | ⟨-, heq⟩
  · cases htrue.symm.trans h
  · rw [heq] at h ⊢
    split at h
    · cases h
    · next hfull => rw [if_neg hfull]

theorem addContact_ids {accepted : Bool} (h : rt.addContact contact = (rt', accepted)) :
    rt'.self = rt.self ∧ ∀ i, ids rt' i =
      if accepted = true ∧ getBucketIndex rt.self contact.id = i
      then (ids rt i).erase contact.id ++ [contact.id] else ids rt i := by
  unfold addContact at h
  split at h
  · cases h
    exact ⟨rfl, fun i => by simp⟩
  · simp only [Prod.mk.injEq] at h
    obtain ⟨rfl, hok⟩ := h
    refine ⟨rfl, fun i => ?_⟩
    unfold ids
    by_cases hi : getBucketIndex rt.self contact.id = i
    · subst hi
      simp only [update_self]
      cases accepted with
      | true =>
        exact addTo_true hok
      | false =>
        exact congrArg (map Contact.id) (addTo_false hok)
    · simp only [update_of_ne (Ne.symm hi)]
      rw [if_neg fun hc => hi hc.2]

theorem addContact_mem_iff (h : rt.addContact contact = (rt', true)) (id : NodeID) :
    (∃ i, id ∈ ids rt' i) ↔ contact.id = id ∨ ∃ i, id ∈ ids rt i := by
  have hids := (addContact_ids h).2
  simp only [true_and] at hids
  constructor
  · rintro ⟨i, hi⟩
    rw [hids] at hi
    split at hi
    · rw [mem_append, mem_singleton] at hi
      rcases hi with hi | rfl
      · exact .inr ⟨i, mem_of_mem_erase hi⟩
      · exact .inl rfl
    · exact .inr ⟨i, hi⟩
  · rintro (rfl | ⟨i, hi⟩)
    · refine ⟨getBucketIndex rt.self contact.id, ?_⟩
      rw [hids, if_pos rfl]
      exact mem_append_right _ mem_cons_self
    · refine ⟨i, ?_⟩
      rw [hids]
      split
      · rcases eq_or_ne id contact.id with rfl | hne
        · exact mem_append_right _ mem_cons_self
        · exact mem_append_left _ ((mem_erase_of_ne hne).mpr hi)
      · exact hi

theorem removeContact_ids (rt : RoutingTable) (id : NodeID) (i : Fin bucketCount) :
    ids (rt.removeContact id) i =
      if getBucketIndex rt.self id = i then (ids rt i).erase id else ids rt i := by
  unfold ids removeContact
  by_cases hi : getBucketIndex rt.self id = i
  · subst hi
    simp only [update_self, if_pos]
    exact Bucket.map_id_eraseP _ id
  · simp only [update_of_ne (Ne.symm hi), if_neg hi]

theorem mem_ids_index {i : Fin bucketCount} (h : id ∈ ids rt i) :
    getBucketIndex rt.self id = i := by
  obtain ⟨c, hc, rfl⟩ := mem_map.mp h
  exact (rt.buckets i).index c hc

theorem id_of_getContact {c : Contact} (h : rt.getContact id = some c) : c.id = id := by
  have hid := find?_some h
  exact of_decide_eq_true hid

/-- `GetContact` finds what the buckets hold. -/
theorem getContact_isSome_iff (rt : RoutingTable) (id : NodeID) :
    (∃ c, rt.getContact id = some c) ↔ ∃ i, id ∈ ids rt i := by
  rw [← isSome_iff_exists, getContact, find?_isSome]
  constructor
  · rintro ⟨c, hc, hid⟩
    exact ⟨_, mem_map.mpr ⟨c, hc, of_decide_eq_true hid⟩⟩
  · rintro ⟨i, hi⟩
    rw [mem_ids_index hi]
    obtain ⟨c, hc, rfl⟩ := mem_map.mp hi
    exact ⟨c, hc, decide_eq_true rfl⟩

/-! ## The invariant -/

def AcceptedBefore (calls : List TableCall) (a b : NodeID) : Prop :=
  ∃ m n, lastAccepted calls a = some m ∧ lastAccepted calls b = some n ∧ m < n

theorem AcceptedBefore.congr {calls' : List TableCall} {a b : NodeID}
    (ha : lastAccepted calls' a = lastAccepted calls a)
    (hb : lastAccepted calls' b = lastAccepted calls b) (h : AcceptedBefore calls a b) :
    AcceptedBefore calls' a b := by
  rw [AcceptedBefore, ha, hb]
  exact h

/-- What the log says about the buckets. -/
structure TableInv (owner : NodeID) (calls : List TableCall) (rt : RoutingTable) : Prop where
  self_eq : rt.self = owner
  order : ∀ i, (ids rt i).Pairwise (AcceptedBefore calls)
  stamped : ∀ i, ∀ id ∈ ids rt i, ∃ n, lastAccepted calls id = some n
  present : ∀ id, (∃ i, id ∈ ids rt i) ↔ AcceptedSince calls id

theorem TableInv.new (owner : NodeID) : TableInv owner [] (.new owner) where
  self_eq := rfl
  order _ := .nil
  stamped _ _ h := absurd h not_mem_nil
  present id := by
    refine iff_of_false ?_ ?_
    · rintro ⟨i, hi⟩
      exact not_mem_nil hi
    · rintro ⟨pre, c, post, heq, -, -⟩
      simp at heq

theorem lastAccepted_snoc_of_not (h : call.accepts id = false) :
    lastAccepted (calls ++ [call]) id = lastAccepted calls id := by
  rw [lastAccepted_snoc, h, if_neg (by simp)]

section

variable (inv : TableInv owner calls rt)

include inv

theorem TableInv.reject (h : rt.addContact contact = (rt', false)) :
    TableInv owner (calls ++ [.add contact false]) rt' := by
  obtain ⟨hself, hids⟩ := addContact_ids h
  have hstay i : ids rt' i = ids rt i := by rw [hids i, if_neg (by simp)]
  have hstamp id : lastAccepted (calls ++ [.add contact false]) id =
      lastAccepted calls id := lastAccepted_snoc_of_not rfl
  refine ⟨hself.trans inv.self_eq, fun i => ?_, fun i id hid => ?_, fun id => ?_⟩
  · rw [hstay]
    exact (inv.order i).imp fun hab => hab.congr (hstamp _) (hstamp _)
  · rw [hstamp]
    exact inv.stamped i id (hstay i ▸ hid)
  · rw [acceptedSince_snoc_add]
    simpa [hstay] using inv.present id

theorem TableInv.accept (h : rt.addContact contact = (rt', true)) :
    TableInv owner (calls ++ [.add contact true]) rt' := by
  obtain ⟨hself, hids⟩ := addContact_ids h
  simp only [true_and] at hids
  have hother {id : NodeID} (hne : id ≠ contact.id) :
      lastAccepted (calls ++ [.add contact true]) id = lastAccepted calls id :=
    lastAccepted_snoc_of_not (by simpa [TableCall.accepts] using hne.symm)
  have hnew : lastAccepted (calls ++ [.add contact true]) contact.id = some calls.length := by
    rw [lastAccepted_snoc, if_pos (by simp [TableCall.accepts])]
  refine ⟨hself.trans inv.self_eq, fun i => ?_, fun i id hid => ?_, fun id => ?_⟩
  · rw [hids]
    split
    · have hne_erase {id : NodeID} (hid : id ∈ (ids rt i).erase contact.id) :
          id ≠ contact.id ∧ id ∈ ids rt i := (rt.buckets i).nodup.mem_erase_iff.mp hid
      rw [pairwise_append]
      refine ⟨?_, pairwise_singleton _ _, fun a ha b hb => ?_⟩
      · refine Pairwise.imp_of_mem ?_ ((inv.order i).sublist erase_sublist)
        intro a b ha hb hab
        exact hab.congr (hother (hne_erase ha).1) (hother (hne_erase hb).1)
      · obtain rfl := mem_singleton.mp hb
        obtain ⟨hne, hmem⟩ := hne_erase ha
        obtain ⟨n, hn⟩ := inv.stamped i a hmem
        exact ⟨n, calls.length, (hother hne).trans hn, hnew, lastAccepted_lt hn⟩
    · next hi =>
      -- a bucket that does not get the contact does not hold it either
      have hne_of {id : NodeID} (hid : id ∈ ids rt i) : id ≠ contact.id := by
        rintro rfl
        exact hi (mem_ids_index hid)
      refine Pairwise.imp_of_mem ?_ (inv.order i)
      intro a b ha hb hab
      exact hab.congr (hother (hne_of ha)) (hother (hne_of hb))
  · rcases eq_or_ne id contact.id with rfl | hne
    · exact ⟨calls.length, hnew⟩
    · obtain ⟨j, hj⟩ := ((addContact_mem_iff h id).mp ⟨i, hid⟩).resolve_left hne.symm
      rw [hother hne]
      exact inv.stamped j id hj
  · rw [acceptedSince_snoc_add, ← inv.present, addContact_mem_iff h]
    simp only [true_and]

theorem TableInv.add {accepted : Bool} (h : rt.addContact contact = (rt', accepted)) :
    TableInv owner (calls ++ [.add contact accepted]) rt' := by
  cases accepted with
  | false => exact inv.reject h
  | true => exact inv.accept h

theorem TableInv.remove (id : NodeID) :
    TableInv owner (calls ++ [.remove id]) (rt.removeContact id) := by
  have hids := removeContact_ids rt id
  have hstamp x : lastAccepted (calls ++ [.remove id]) x = lastAccepted calls x :=
    lastAccepted_snoc_of_not rfl
  have hsub i : (ids (rt.removeContact id) i).Sublist (ids rt i) := by
    rw [hids]
    split
    · exact erase_sublist
    · exact .refl _
  have hmem x (i : Fin bucketCount) : x ∈ ids (rt.removeContact id) i ↔ x ≠ id ∧ x ∈ ids rt i := by
    rw [hids]
    split
    · exact (rt.buckets i).nodup.mem_erase_iff
    · next hi =>
      refine ⟨fun hx => ⟨?_, hx⟩, And.right⟩
      rintro rfl
      exact hi (mem_ids_index hx)
  refine ⟨inv.self_eq, fun i => ?_, fun i x hx => ?_, fun x => ?_⟩
  · exact ((inv.order i).sublist (hsub i)).imp fun hab => hab.congr (hstamp _) (hstamp _)
  · rw [hstamp]
    exact inv.stamped i x ((hsub i).subset hx)
  · simp only [acceptedSince_snoc_remove, ← inv.present, hmem]
    exact exists_and_left

theorem TableInv.step (h : TableStep rt call rt') : TableInv owner (calls ++ [call]) rt' := by
  cases h with
  | add hadd => exact inv.add hadd
  | remove => exact inv.remove _

end

theorem tableInv_run (h : Run TableStep (.new owner) calls rt) : TableInv owner calls rt :=
  h.trace_invariant (.new owner) fun _ _ _ _ => TableInv.step

end

/-- After any calls: at most `K` contacts in a bucket, each identifier once and the node's own not
at all; bucket `i` has those that share `i` bits; a bucket is in the order of the last accepted
`AddContact`; and `GetContact` finds what was accepted and not removed since. -/
theorem routingTable_invariant {self : NodeID} {calls : List TableCall} {rt : RoutingTable}
    (h : Run TableStep (.new self) calls rt) :
    (∀ i, (rt.buckets i).contacts.length ≤ K) ∧
    (rt.allContacts.map Contact.id).Nodup ∧
    (∀ c ∈ rt.allContacts, c.id ≠ self) ∧
    (∀ c ∈ rt.allContacts, ∀ i : Fin bucketCount,
      c ∈ (rt.buckets i).contacts ↔ SharesExactly self c.id i) ∧
    (∀ i, (rt.buckets i).contacts.Pairwise fun a b =>
      ∃ m n, lastAccepted calls a.id = some m ∧ lastAccepted calls b.id = some n ∧ m < n) ∧
    ∀ id, (∃ c, rt.getContact id = some c ∧ c.id = id) ↔ AcceptedSince calls id := by
  have inv := tableInv_run h
  obtain rfl := inv.self_eq
  refine ⟨fun i => (rt.buckets i).size_le, rt.allContacts_nodup,
    fun c hc => ne_self_of_mem hc, fun c hc i => ?_, fun i => ?_, fun id => ?_⟩
  · rw [← getBucketIndex_eq_iff (ne_self_of_mem hc)]
    refine ⟨fun hmem => (rt.buckets i).index c hmem, fun hindex => ?_⟩
    obtain ⟨j, -, hj⟩ := mem_flatMap.mp hc
    rw [← hindex, (rt.buckets j).index c hj]
    exact hj
  · exact pairwise_map.mp (inv.order i)
  · rw [← inv.present, ← getContact_isSome_iff]
    exact exists_congr fun c => and_iff_left_of_imp id_of_getContact

def startingWith (b : UInt8) : Contact := ⟨ofSlice 20 [b], []⟩

def sampleCalls : List TableCall :=
  [.add (startingWith 128) true, .add (startingWith 64) true, .add (startingWith 128) true] ++
    [.remove (startingWith 64).id]

theorem step_add {rt : RoutingTable} {contact : Contact} (h : (rt.addContact contact).2 = true) :
    TableStep rt (.add contact true) (rt.addContact contact).1 := by
  rw [← h]
  exact .add rfl

theorem sampleCalls_run : ∃ rt, Run TableStep (.new (zero 20)) sampleCalls rt := by
  refine ⟨_, snoc (cons (step_add ?_) (cons (step_add ?_) (cons (step_add ?_) nil))) .remove⟩
  all_goals decide +kernel

theorem routingTable_sampleCalls :
    (∃ rt, Run TableStep (.new (zero 20)) sampleCalls rt) ∧
      ∀ rt, Run TableStep (.new (zero 20)) sampleCalls rt →
        (∃ c, rt.getContact (startingWith 128).id = some c ∧ c.id = (startingWith 128).id) ∧
          ¬ ∃ c, rt.getContact (startingWith 64).id = some c ∧ c.id = (startingWith 64).id := by
  refine ⟨sampleCalls_run, fun rt h => ?_⟩
  have hget := (routingTable_invariant h).2.2.2.2.2
  constructor
  · refine (hget _).mpr ⟨[.add (startingWith 128) true, .add (startingWith 64) true],
      startingWith 128, [.remove (startingWith 64).id], rfl, rfl, ?_⟩
    decide +kernel
  · intro hfound
    exact ((acceptedSince_snoc_remove _ _ _).mp ((hget _).mp hfound)).1 rfl

/-! ## Addresses -/

def TableCall.concerns (id : NodeID) : TableCall → Bool
  | .add contact _ => contact.id = id
  | .remove removed => removed = id

section

variable {rt rt' : RoutingTable} {c contact : Contact}

theorem mem_allContacts :
    c ∈ rt.allContacts ↔ c ∈ (rt.buckets (getBucketIndex rt.self c.id)).contacts := by
  constructor
  · intro h
    obtain ⟨i, -, hi⟩ := mem_flatMap.mp h
    rwa [(rt.buckets i).index c hi]
  · exact fun h => mem_flatMap.mpr ⟨_, mem_finRange _, h⟩

theorem eq_of_id_eq {c' : Contact} (h : c ∈ rt.allContacts) (h' : c' ∈ rt.allContacts)
    (hid : c.id = c'.id) : c = c' :=
  inj_on_of_nodup_map rt.allContacts_nodup h h' hid

theorem getContact_eq_some_iff {id : NodeID} :
    rt.getContact id = some c ↔ c ∈ rt.allContacts ∧ c.id = id := by
  constructor
  · intro h
    obtain rfl := id_of_getContact h
    exact ⟨mem_allContacts.mpr (mem_of_find?_eq_some h), rfl⟩
  · rintro ⟨hc, rfl⟩
    obtain ⟨c', hc'⟩ := (getContact_isSome_iff rt c.id).mpr
      ⟨_, mem_map.mpr ⟨c, mem_allContacts.mp hc, rfl⟩⟩
    have hid := id_of_getContact hc'
    have hmem : c' ∈ rt.allContacts :=
      mem_allContacts.mpr (hid ▸ mem_of_find?_eq_some hc')
    rw [hc', eq_of_id_eq hmem hc hid]

/-- `AddContact` leaves the known contacts as they were, and adds an unknown one. -/
theorem mem_addTo {contacts : List Contact} :
    c ∈ (Bucket.addTo contacts contact).1 ↔ c ∈ contacts ∨ c = contact ∧
      (Bucket.addTo contacts contact).2 = true ∧ contact.id ∉ contacts.map Contact.id := by
  rcases Bucket.addTo_outcomes contacts contact with ⟨hknown, -, hperm, -⟩ | ⟨hnew, heq⟩
  · rw [hperm.mem_iff]
    simp [hknown]
  · rw [heq]
    split
    · simp [hnew]
    · simp

theorem mem_addContact {accepted : Bool} (h : rt.addContact contact = (rt', accepted))
    (c : Contact) :
    c ∈ rt'.allContacts ↔ c ∈ rt.allContacts ∨
      c = contact ∧ accepted = true ∧ rt.getContact contact.id = none := by
  have hnone : rt.getContact contact.id = none ↔ contact.id ∉
      (rt.buckets (getBucketIndex rt.self contact.id)).contacts.map Contact.id := by
    simp [getContact]
  unfold addContact at h
  split at h
  · cases h
    simp
  · obtain ⟨rfl, rfl⟩ := h
    rw [mem_allContacts, mem_allContacts, hnone]
    simp only
    by_cases hi : getBucketIndex rt.self c.id = getBucketIndex rt.self contact.id
    · rw [hi, update_self]
      exact mem_addTo
    · rw [update_of_ne hi]
      refine ⟨.inl, fun hc => hc.resolve_right ?_⟩
      rintro ⟨rfl, -⟩
      exact hi rfl

theorem mem_removeContact (rt : RoutingTable) (id : NodeID) (c : Contact) :
    c ∈ (rt.removeContact id).allContacts ↔ c ∈ rt.allContacts ∧ c.id ≠ id := by
  rw [mem_allContacts, mem_allContacts]
  unfold removeContact
  simp only
  by_cases hi : getBucketIndex rt.self c.id = getBucketIndex rt.self id
  · rw [hi, update_self]
    unfold Bucket.removeContact
    constructor
    · intro hc
      refine ⟨mem_of_mem_eraseP hc, fun hid => ?_⟩
      have hmem : c.id ∈ ((rt.buckets (getBucketIndex rt.self id)).contacts.map
          Contact.id).erase id := Bucket.map_id_eraseP _ id ▸ mem_map_of_mem hc
      exact ((rt.buckets _).nodup.mem_erase_iff.mp hmem).1 hid
    · exact fun hc => (mem_eraseP_of_neg (by simpa using hc.2)).mpr hc.1
  · rw [update_of_ne hi]
    refine ⟨fun hc => ⟨hc, ?_⟩, And.left⟩
    rintro rfl
    exact hi rfl

/-- A call leaves the contacts alone that it is not about. -/
theorem getContact_step {call : TableCall} {id : NodeID} (h : TableStep rt call rt')
    (hcall : call.concerns id = false) : rt'.getContact id = rt.getContact id := by
  refine ext fun c => ?_
  rw [getContact_eq_some_iff, getContact_eq_some_iff]
  cases h with
  | add hadd =>
    rw [mem_addContact hadd]
    refine and_congr_left fun hid => ⟨fun hc => hc.resolve_right ?_, .inl⟩
    rintro ⟨rfl, -⟩
    simp [TableCall.concerns, hid] at hcall
  | remove =>
    rw [mem_removeContact]
    refine and_congr_left fun hid => and_iff_left ?_
    rintro rfl
    simp [TableCall.concerns, hid] at hcall

theorem getContact_add (h : rt.addContact contact = (rt', true)) :
    rt'.getContact contact.id = some ((rt.getContact contact.id).getD contact) := by
  rw [getContact_eq_some_iff, mem_addContact h]
  cases hget : rt.getContact contact.id with
  | none => exact ⟨.inr ⟨rfl, rfl, rfl⟩, rfl⟩
  | some known =>
    obtain ⟨hmem, hid⟩ := getContact_eq_some_iff.mp hget
    exact ⟨.inl hmem, hid⟩

theorem step_unique (rt : RoutingTable) (call : TableCall) (rt₁ rt₂ : RoutingTable)
    (h₁ : TableStep rt call rt₁) (h₂ : TableStep rt call rt₂) : rt₁ = rt₂ := by
  cases h₁ with
  | add h₁ =>
    cases h₂ with
    | add h₂ => exact congrArg Prod.fst (h₁.symm.trans h₂)
  | remove =>
    cases h₂
    rfl

theorem getContact_announced {self : NodeID} {pre post : List TableCall} {before : RoutingTable}
    (hbefore : Run TableStep (.new self) pre before)
    (hrun : Run TableStep (.new self) (pre ++ .add contact true :: post) rt)
    (hpost : ∀ call ∈ post, call.concerns contact.id = false) :
    rt.getContact contact.id = some ((before.getContact contact.id).getD contact) := by
  induction post using reverseRecOn generalizing rt with
  | nil =>
    obtain ⟨rt', hpre, hstep⟩ := hrun.snoc_inv
    obtain rfl := unique step_unique hbefore hpre
    cases hstep with
    | add hadd => exact getContact_add hadd
  | append_singleton post call ih =>
    rw [← cons_append, ← append_assoc] at hrun
    obtain ⟨rt', hrun, hstep⟩ := hrun.snoc_inv
    rw [forall_mem_append] at hpost
    rw [getContact_step hstep (hpost.2 call mem_cons_self), ih hrun hpost.1]

end

/-- After an accepted `AddContact`, `GetContact` returns the announced address just when the
identifier was not known before, or known with that address. -/
theorem announced_address_iff {self : NodeID} {pre post : List TableCall} {contact : Contact}
    {before rt : RoutingTable} (hbefore : Run TableStep (.new self) pre before)
    (hrun : Run TableStep (.new self) (pre ++ .add contact true :: post) rt)
    (hpost : ∀ call ∈ post, call.concerns contact.id = false) :
    (∃ c, rt.getContact contact.id = some c ∧ c.address = contact.address) ↔
      ∀ c, before.getContact contact.id = some c → c.address = contact.address := by
  rw [getContact_announced hbefore hrun hpost]
  cases before.getContact contact.id with
  | none => simp
  | some known => simp

def startingAt (b : UInt8) (address : Bytes) : Contact := ⟨ofSlice 20 [b], address⟩

def announcedTable : RoutingTable :=
  ((RoutingTable.new (zero 20)).addContact (startingAt 128 [1])).1

theorem announcedTable_run :
    Run TableStep (.new (zero 20)) [.add (startingAt 128 [1]) true] announcedTable := by
  have hadd : ((new (zero 20)).addContact (startingAt 128 [1])).2 = true := by
    decide +kernel
  exact nil.snoc (step_add hadd)

theorem announcedTable_getContact :
    announcedTable.getContact (ofSlice 20 [128]) = some (startingAt 128 [1]) := by
  decide +kernel

/-- The contact is announced again at the same address. -/
theorem announced_address_same : ∃ rt, Run TableStep (.new (zero 20))
    ([.add (startingAt 128 [1]) true] ++ .add (startingAt 128 [1]) true :: []) rt ∧
    ∃ c, rt.getContact (startingAt 128 [1]).id = some c ∧ c.address = [1] := by
  have hadd : (announcedTable.addContact (startingAt 128 [1])).2 = true := by decide +kernel
  have hrun := announcedTable_run.snoc (step_add hadd)
  refine ⟨_, hrun, (announced_address_iff announcedTable_run hrun (by simp)).mpr fun c hc => ?_⟩
  obtain rfl := some.inj (announcedTable_getContact.symm.trans hc)
  rfl

/-- The contact is announced at another address, and `GetContact` returns the old one. -/
theorem announced_address_stale : ∃ rt, Run TableStep (.new (zero 20))
    ([.add (startingAt 128 [1]) true] ++ .add (startingAt 128 [2]) true :: []) rt ∧
    rt.getContact (startingAt 128 [2]).id = some (startingAt 128 [1]) ∧
    (startingAt 128 [1]).address ≠ (startingAt 128 [2]).address := by
  have hadd : (announcedTable.addContact (startingAt 128 [2])).2 = true := by decide +kernel
  have hrun := announcedTable_run.snoc (step_add hadd)
  refine ⟨_, hrun, ?_, by decide⟩
  have hknown : announcedTable.getContact (startingAt 128 [2]).id = some (startingAt 128 [1]) :=
    announcedTable_getContact
  rfl

end Zentalk.Dht
