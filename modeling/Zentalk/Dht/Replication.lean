import Zentalk.Dht.FindNode
import Zentalk.Dht.Storage

/-!
# Storing on the closest nodes

One STORE_ACK is enough, which `handleStore` also sends for a STORE that it refuses
(`store_accepted_iff`).
-/

namespace Zentalk.Dht

open Wire Runs Function List Nat

/-- `Node`, with what `Store` reads of it; its identifier is that of the routing table. -/
structure Node where
  routingTable : RoutingTable
  privateKey : Bytes

/-- The storages of the nodes, by address. -/
abbrev Network := Bytes → Storage

/-- What becomes of a STORE request. -/
inductive Delivery
  | unreached
  /-- It is handled, with the clock of the node at the verification and when the value is put, and
  the answer comes back or not. -/
  | handled (verifyAt storeAt : ℤ) (answered : Bool)

/-- `sendRPC` of a STORE to a contact. -/
def sendStore (S : EntrySuite) (req : StoreRequest) (sender : NodeID) (net : Network)
    (c : Contact) : Delivery → Network × Option StoreAck
  | .unreached => (net, none)
  | .handled verifyAt storeAt answered =>
    match handleStore S (net c.address) (.ok req) (some sender) verifyAt storeAt with
    | none => (net, none)
    | some (s, ack) => (update net c.address s, if answered then ack else none)

/-- The loop of `Store`, from contact `i` on. -/
def storeOn (S : EntrySuite) (req : StoreRequest) (sender : NodeID) (fate : ℕ → Delivery) :
    ℕ → Network → ℕ → List Contact → Network × ℕ
  | _, net, successCount, [] => (net, successCount)
  | i, net, successCount, c :: rest =>
    match sendStore S req sender net c (fate i) with
    | (net', none) => storeOn S req sender fate (i + 1) net' successCount rest
    | (net', some _) => storeOn S req sender fate (i + 1) net' (successCount + 1) rest

/-- `Store` after its lookup, with the time to live in seconds. -/
def Node.storeAt (n : Node) (S : EntrySuite) (key : NodeID) (value : Bytes) (ttl : Int64)
    (signAt : ℤ) (rand : Except String (ByteArr 16)) (fate : ℕ → Delivery) (net : Network)
    (closestNodes : List Contact) : Network × Except String Unit :=
  if closestNodes.length = 0 then (net, .error "no nodes available to store key")
  else
    match signEntry S key value n.privateKey ttl (unix signAt) rand with
    | .error e => (net, .error ("failed to sign entry: " ++ e))
    | .ok signedEntry =>
      match S.marshal signedEntry with
      | .error e => (net, .error ("failed to encode signed entry: " ++ e))
      | .ok signedData =>
        match storeOn S ⟨key, signedData, ttl⟩ n.routingTable.self fate 0 net 0 closestNodes with
        | (net', successCount) =>
          if successCount = 0 then (net', .error "failed to store on any node") else (net', .ok ())

/-- `Store`, with the nodes that its lookup found, and what it leaves and returns. -/
def Node.Stores (n : Node) (S : EntrySuite) (peers : NodePeers) (key : NodeID) (value : Bytes)
    (ttl : Int64) (signAt : ℤ) (rand : Except String (ByteArr 16)) (fate : ℕ → Delivery)
    (net : Network) (closestNodes : List Contact) (net' : Network) (result : Except String Unit) :
    Prop :=
  (∃ evs, Run (FindNodeStep n.routingTable.self key (K : ℤ).toNat peers)
    (findNodeStart n.routingTable key K) evs (.returned closestNodes)) ∧
  n.storeAt S key value ttl signAt rand fate net closestNodes = (net', result)

/-- Ed25519 with the node's own key pair, and JSON: a signature has its size and verifies, and an
entry is read back as it was written. -/
structure EntrySuite.Sound (S : EntrySuite) (privateKey : Bytes) : Prop where
  sign_length : privateKey.length = 64 → ∀ m, (S.sign privateKey m).length = 64
  verify_sign : privateKey.length = 64 →
    ∀ m, S.verify (privateKey.drop 32) m (S.sign privateKey m) = true
  unmarshal_marshal : ∀ e data, S.marshal e = .ok data → S.unmarshal data = .ok e

/-! ## The loop -/

def Delivery.Answered : Delivery → Prop
  | .unreached => False
  | .handled _ _ answered => answered = true

instance : DecidablePred Delivery.Answered := fun d =>
  match d with
  | .unreached => inferInstanceAs (Decidable False)
  | .handled _ _ answered => inferInstanceAs (Decidable (answered = true))

/-- A node has what was sent under the key of the request. -/
def Holds (req : StoreRequest) (s : Storage) : Prop :=
  ∃ stored, s.data req.key = some stored ∧ stored.value = req.value

section

variable {S : EntrySuite} {req : StoreRequest} {sender : NodeID} {net : Network}

theorem holds_store (s : Storage) (publisher : NodeID) (ttl : Int64) (now : ℤ) :
    Holds req (s.store req.key req.value ttl publisher now) :=
  ⟨_, update_self .., rfl⟩

theorem sendStore_ack (S : EntrySuite) (req : StoreRequest) (sender : NodeID) (net : Network)
    (c : Contact) (d : Delivery) :
    (sendStore S req sender net c d).2.isSome ↔ d.Answered := by
  cases d with
  | unreached => simp [sendStore, Delivery.Answered]
  | handled verifyAt storeAt answered =>
    -- A STORE that is refused is acknowledged as one that is accepted is.
    rcases handleStore_decoded S (net c.address) req sender verifyAt storeAt with ⟨-, h⟩ | ⟨-, h⟩
    · cases answered <;> simp [sendStore, h, Delivery.Answered]
    · cases answered <;> simp [sendStore, h, Delivery.Answered]

theorem sendStore_net (S : EntrySuite) (req : StoreRequest) (sender : NodeID) (net : Network)
    (c : Contact) (d : Delivery) : (sendStore S req sender net c d).1 = net ∨
      ∃ now, (sendStore S req sender net c d).1 = update net c.address
        ((net c.address).store req.key req.value (req.ttl * 1000000000) sender now) := by
  cases d with
  | unreached => exact .inl rfl
  | handled verifyAt storeAt answered =>
    rcases handleStore_decoded S (net c.address) req sender verifyAt storeAt with ⟨-, h⟩ | ⟨-, h⟩
    · exact .inr ⟨storeAt, by simp only [sendStore, h]⟩
    · left
      simp only [sendStore, h, update_eq_self]

/-- What a node has is not lost by a further request. -/
theorem sendStore_keeps (c : Contact) (d : Delivery) {address : Bytes}
    (hholds : Holds req (net address)) :
    Holds req ((sendStore S req sender net c d).1 address) := by
  rcases sendStore_net S req sender net c d with h | ⟨now, h⟩
  · rw [h]
    exact hholds
  · rw [h, update_apply]
    split
    · exact holds_store ..
    · exact hholds

theorem sendStore_holds (c : Contact) {verifyAt storeAt : ℤ} {answered : Bool} {value : Bytes}
    (hextract : verifyAndExtract S (unix verifyAt) req.value = .ok value) :
    Holds req
      ((sendStore S req sender net c (.handled verifyAt storeAt answered)).1 c.address) := by
  simp only [sendStore, handleStore_of_extract hextract, update_self]
  exact holds_store ..

theorem storeOn_cons (fate : ℕ → Delivery) (i successCount : ℕ) (c : Contact)
    (rest : List Contact) :
    storeOn S req sender fate i net successCount (c :: rest) =
      storeOn S req sender fate (i + 1) (sendStore S req sender net c (fate i)).1
        (if (fate i).Answered then successCount + 1 else successCount) rest := by
  have hack := sendStore_ack S req sender net c (fate i)
  rw [storeOn]
  cases h : sendStore S req sender net c (fate i) with
  | mk net' ack =>
    rw [h] at hack
    cases ack with
    | none => rw [if_neg (by simpa using hack)]
    | some ack => rw [if_pos (by simpa using hack)]

theorem storeOn_keeps (fate : ℕ → Delivery) (i successCount : ℕ) (contacts : List Contact)
    {address : Bytes} (hholds : Holds req (net address)) :
    Holds req ((storeOn S req sender fate i net successCount contacts).1 address) := by
  induction contacts generalizing i net successCount with
  | nil => exact hholds
  | cons c rest ih =>
    rw [storeOn_cons]
    exact ih _ _ (sendStore_keeps c (fate i) hholds)

end

/-- Somebody's STORE_ACK was counted just when somebody answered. -/
theorem storeOn_count (S : EntrySuite) (req : StoreRequest) (sender : NodeID) (fate : ℕ → Delivery)
    (i : ℕ) (net : Network) (successCount : ℕ) (contacts : List Contact) :
    (storeOn S req sender fate i net successCount contacts).2 = 0 ↔
      successCount = 0 ∧ ∀ j < contacts.length, ¬ (fate (i + j)).Answered := by
  induction contacts generalizing i net successCount with
  | nil => simp [storeOn]
  | cons c rest ih =>
    rw [storeOn_cons, ih]
    constructor
    · rintro ⟨hcount, hrest⟩
      split at hcount
      · cases hcount
      · next hfirst =>
        refine ⟨hcount, fun j hj => ?_⟩
        cases j with
        | zero => exact hfirst
        | succ j =>
          rw [← add_assoc, add_right_comm]
          exact hrest j (lt_of_succ_lt_succ hj)
    · rintro ⟨hcount, hall⟩
      have hfirst : ¬ (fate i).Answered := hall 0 (succ_pos _)
      refine ⟨?_, fun j hj => ?_⟩
      · rw [if_neg hfirst]
        exact hcount
      · rw [add_right_comm, add_assoc]
        exact hall (j + 1) (succ_lt_succ hj)

/-- A contacted node that verified the entry holds it at the end. -/
theorem storeOn_holds {S : EntrySuite} {req : StoreRequest} (sender : NodeID) {fate : ℕ → Delivery}
    {i j : ℕ} (net : Network) (successCount : ℕ) {contacts : List Contact} {c : Contact}
    {verifyAt storeAt : ℤ} {answered : Bool} {value : Bytes} (hc : contacts[j]? = some c)
    (hfate : fate (i + j) = .handled verifyAt storeAt answered)
    (hextract : verifyAndExtract S (unix verifyAt) req.value = .ok value) :
    Holds req ((storeOn S req sender fate i net successCount contacts).1 c.address) := by
  induction contacts generalizing i j net successCount with
  | nil => cases hc
  | cons c' rest ih =>
    rw [storeOn_cons]
    cases j with
    | zero =>
      cases hc
      -- The later requests carry the same bytes, so they replace the entry by itself only.
      rw [add_zero] at hfate
      rw [hfate]
      exact storeOn_keeps _ _ _ _ (sendStore_holds c hextract)
    | succ j =>
      refine ih _ _ hc ?_
      rw [add_right_comm, add_assoc]
      exact hfate

/-! ## What a nil error says -/

def StoredSomewhere (S : EntrySuite) (req : StoreRequest) (fate : ℕ → Delivery)
    (closestNodes : List Contact) (net' : Network) : Prop :=
  ∃ i c verifyAt storeAt answered value, closestNodes[i]? = some c ∧
    fate i = .handled verifyAt storeAt answered ∧
    verifyAndExtract S (unix verifyAt) req.value = .ok value ∧ Holds req (net' c.address)

/-- Nobody answers, or somebody is reached before the entry expires. -/
def ReachedInTime (fate : ℕ → Delivery) (closestNodes : List Contact) (expiry : Int64) : Prop :=
  (∀ i < closestNodes.length, ¬ (fate i).Answered) ∨
    ∃ i < closestNodes.length, ∃ verifyAt storeAt answered,
      fate i = .handled verifyAt storeAt answered ∧ unix verifyAt ≤ expiry

section

variable {S : EntrySuite} {key : NodeID} {value : Bytes} {ttl : Int64}
  {rand : Except String (ByteArr 16)}

/-- What the node signed is valid until it expires. -/
theorem signed_valid_iff {privateKey : Bytes} {now : Int64} {e : SignedEntry} {data : Bytes}
    (hS : S.Sound privateKey) (hsign : signEntry S key value privateKey ttl now rand = .ok e)
    (hdata : S.marshal e = .ok data) (clock : Int64) :
    (∃ v, verifyAndExtract S clock data = .ok v) ↔ clock ≤ now + ttl := by
  have hdecode := hS.unmarshal_marshal e data hdata
  unfold signEntry at hsign
  split at hsign
  · cases hsign
  · next hlen =>
    have hkey : privateKey.length = 64 := not_not.mp hlen
    split at hsign
    · cases hsign
    · next nonce =>
      cases hsign
      constructor
      · rintro ⟨v, hextract⟩
        obtain ⟨e', hdecode', hvalid, -⟩ := (verifyAndExtract_ok_iff ..).mp hextract
        rw [hdecode] at hdecode'
        cases hdecode'
        exact hvalid.fresh
      · intro hfresh
        refine ⟨_, (verifyAndExtract_ok_iff ..).mpr ⟨_, hdecode, ⟨?_, ?_, hfresh, ?_⟩, rfl⟩⟩
        · simp [SignedEntry.sign, hkey]
        · exact hS.sign_length hkey _
        · exact hS.verify_sign hkey _

variable {closestNodes : List Contact}

theorem storeAt_of_signed {n : Node} {signAt : ℤ} {e : SignedEntry} {data : Bytes}
    (hsign : signEntry S key value n.privateKey ttl (unix signAt) rand = .ok e)
    (hdata : S.marshal e = .ok data) (fate : ℕ → Delivery) (net : Network)
    (hne : closestNodes.length ≠ 0) :
    n.storeAt S key value ttl signAt rand fate net closestNodes =
      ((storeOn S ⟨key, data, ttl⟩ n.routingTable.self fate 0 net 0 closestNodes).1,
        if (storeOn S ⟨key, data, ttl⟩ n.routingTable.self fate 0 net 0 closestNodes).2 = 0
        then .error "failed to store on any node" else .ok ()) := by
  rw [Node.storeAt, if_neg hne, hsign]
  simp only [hdata]
  split <;> rfl

theorem storeAt_ok {n : Node} {signAt : ℤ} {fate : ℕ → Delivery} {net net' : Network}
    (h : n.storeAt S key value ttl signAt rand fate net closestNodes = (net', .ok ())) :
    closestNodes.length ≠ 0 ∧ ∃ e data,
      signEntry S key value n.privateKey ttl (unix signAt) rand = .ok e ∧
      S.marshal e = .ok data := by
  unfold Node.storeAt at h
  split at h
  · cases h
  · next hne =>
    split at h
    · cases h
    · next e hsign =>
      split at h
      · cases h
      · next data hdata => exact ⟨hne, e, data, hsign, hdata⟩

end

/-- `Store` returns nil only if a node accepted the entry, just when nobody answers or some node
reached has a clock that is not past the expiry. -/
theorem store_accepted_iff (n : Node) (S : EntrySuite) (hS : S.Sound n.privateKey)
    {peers : NodePeers} {key : NodeID} {value : Bytes} {ttl : Int64} {signAt : ℤ}
    {rand : Except String (ByteArr 16)}
    {fate : ℕ → Delivery} {net net' : Network} {closestNodes : List Contact}
    {result : Except String Unit}
    (h : n.Stores S peers key value ttl signAt rand fate net closestNodes net' result) :
    (result = .ok () → ∃ e data,
      signEntry S key value n.privateKey ttl (unix signAt) rand = .ok e ∧ S.marshal e = .ok data ∧
      StoredSomewhere S ⟨key, data, ttl⟩ fate closestNodes net') ↔
    ∀ e data, signEntry S key value n.privateKey ttl (unix signAt) rand = .ok e →
      S.marshal e = .ok data → ReachedInTime fate closestNodes (unix signAt + ttl) := by
  obtain ⟨-, hstore⟩ := h
  constructor
  · intro haccepted e data hsign hdata
    by_cases hnobody : ∀ i < closestNodes.length, ¬ (fate i).Answered
    · exact .inl hnobody
    · have hne : closestNodes.length ≠ 0 := by
        intro hzero
        exact hnobody fun i hi => absurd hi (by omega)
      rw [storeAt_of_signed hsign hdata fate net hne, Prod.mk.injEq] at hstore
      obtain ⟨rfl, rfl⟩ := hstore
      have hcount := storeOn_count S ⟨key, data, ttl⟩ n.routingTable.self fate 0 net 0 closestNodes
      simp only [zero_add, true_and] at hcount
      obtain ⟨e', data', hsign', hdata', i, c, verifyAt, storeAt, answered, v, hc, hfate, hextract,
        -⟩ := haccepted (if_neg fun hzero => hnobody (hcount.mp hzero))
      rw [hsign] at hsign'
      cases hsign'
      rw [hdata] at hdata'
      cases hdata'
      obtain ⟨hi, -⟩ := List.getElem?_eq_some_iff.mp hc
      exact .inr ⟨i, hi, verifyAt, storeAt, answered, hfate,
        (signed_valid_iff hS hsign hdata _).mp ⟨v, hextract⟩⟩
  · rintro hreached rfl
    obtain ⟨hne, e, data, hsign, hdata⟩ := storeAt_ok hstore
    rw [storeAt_of_signed hsign hdata fate net hne, Prod.mk.injEq] at hstore
    obtain ⟨rfl, hok⟩ := hstore
    refine ⟨e, data, hsign, hdata, ?_⟩
    rcases hreached e data hsign hdata with
      hnobody | ⟨i, hi, verifyAt, storeAt, answered, hfate, htime⟩
    · have hcount := (storeOn_count S ⟨key, data, ttl⟩ n.routingTable.self fate 0 net 0
        closestNodes).mpr ⟨rfl, by simpa only [zero_add] using hnobody⟩
      rw [if_pos hcount] at hok
      cases hok
    · obtain ⟨v, hextract⟩ := (signed_valid_iff hS hsign hdata _).mpr htime
      have hc : closestNodes[i]? = some closestNodes[i] := getElem?_eq_getElem hi
      refine ⟨i, closestNodes[i], verifyAt, storeAt, answered, v, hc, hfate, hextract, ?_⟩
      exact storeOn_holds n.routingTable.self net 0 hc (by rwa [zero_add]) hextract

/-- The node of `sampleTable`, with a key pair. -/
def sampleNode : Node := ⟨sampleTable, replicate 64 0⟩

/-- What the node signs at time 0 for ten seconds. -/
def sampleSigned : SignedEntry :=
  { key := .zero 20, value := [7], publicKey := replicate 32 0,
    signature := replicate 64 0, timestamp := 0, ttl := 10, nonce := replicate 16 0 }

/-- A suite that encodes this entry only. -/
def sampleSuite : EntrySuite where
  sign _ _ := replicate 64 0
  verify _ _ _ := true
  marshal e := if e = sampleSigned then .ok [1] else .error "json: unsupported value"
  unmarshal data := if data = [1] then .ok sampleSigned else .error "unexpected end of JSON input"

/-- The node stores for ten seconds at time 0 on its one contact, whose clock is `clock`. -/
def sampleStoreAt (clock : ℤ) : Network × Except String Unit :=
  sampleNode.storeAt sampleSuite (.zero 20) [7] 10 0 (.ok (.zero 16))
    (fun _ => .handled clock clock true) (fun _ => .empty) [nearby 1]

theorem sampleSuite_sound (privateKey : Bytes) : sampleSuite.Sound privateKey := by
  refine ⟨fun _ _ => rfl, fun _ _ => rfl, fun e data h => ?_⟩
  simp only [sampleSuite] at h ⊢
  split at h
  · next he =>
    cases h
    rw [if_pos rfl, he]
  · cases h

theorem sampleNode_stores (clock : ℤ) :
    sampleNode.Stores sampleSuite (fun _ _ _ => .failed) (.zero 20) [7] 10 0 (.ok (.zero 16))
      (fun _ => .handled clock clock true) (fun _ => .empty) [nearby 1] (sampleStoreAt clock).1
      (sampleStoreAt clock).2 := by
  refine ⟨⟨_, sample_run rfl ⟨.refl _, pairwise_singleton _ _⟩ (by decide)⟩, rfl⟩

/-- The contact's clock is right, and it has the entry. -/
theorem store_accepted_in_time : ∃ e data,
    signEntry sampleSuite (.zero 20) [7] sampleNode.privateKey 10 (unix 0) (.ok (.zero 16)) =
      .ok e ∧
    sampleSuite.marshal e = .ok data ∧
    StoredSomewhere sampleSuite ⟨.zero 20, data, 10⟩ (fun _ => .handled 0 0 true) [nearby 1]
      (sampleStoreAt 0).1 := by
  refine (store_accepted_iff sampleNode sampleSuite (sampleSuite_sound _)
    (sampleNode_stores 0)).mpr (fun e data _ _ => ?_) (by decide +kernel)
  exact .inr ⟨0, by decide, 0, 0, true, rfl, by decide +kernel⟩

/-- The contact's clock is ahead: no node stores anything, and `Store` returns nil. -/
theorem store_nil_refused : sampleSuite.Sound sampleNode.privateKey ∧
    sampleNode.Stores sampleSuite (fun _ _ _ => .failed) (.zero 20) [7] 10 0 (.ok (.zero 16))
      (fun _ => .handled 11000000000 11000000000 true) (fun _ => .empty) [nearby 1]
      (sampleStoreAt 11000000000).1 (.ok ()) ∧
    handleStore sampleSuite .empty (.ok ⟨.zero 20, [1], 10⟩) (some sampleTable.self) 11000000000
      11000000000 = some (.empty, some ⟨false, "signature verification failed"⟩) ∧
    ∀ address, (sampleStoreAt 11000000000).1 address = .empty := by
  have hsign : signEntry sampleSuite (.zero 20) [7] sampleNode.privateKey 10 (unix 0)
      (.ok (.zero 16)) = .ok sampleSigned := by decide +kernel
  have hdata : sampleSuite.marshal sampleSigned = .ok [1] := by decide +kernel
  have hlate : verifyAndExtract sampleSuite (unix 11000000000) [1] =
      .error "signature verification failed: entry expired" := by decide +kernel
  have hrefused : handleStore sampleSuite .empty (.ok ⟨.zero 20, [1], 10⟩) (some sampleTable.self)
      11000000000 11000000000 = some (.empty, some ⟨false, "signature verification failed"⟩) := by
    simp [handleStore, hlate]
  have hstored : sampleStoreAt 11000000000 =
      (update (fun _ => .empty) (nearby 1).address .empty, .ok ()) := by
    rw [sampleStoreAt, storeAt_of_signed hsign hdata _ _ (by decide)]
    simp [storeOn, sendStore, sampleNode, hrefused]
  have hstores := sampleNode_stores 11000000000
  refine ⟨sampleSuite_sound _, ?_, hrefused, fun address => ?_⟩
  · exact hstores
  · simp only [hstored, update_apply, ite_self]

end Zentalk.Dht
