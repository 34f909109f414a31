import Zentalk.Dht.FindValue

/-!
# What a peer can make a node dereference

`none` is a nil dereference or an index out of range (`node_robust_iff`).
-/

namespace Zentalk.Dht

open Wire Runs Workers Ranking List

/-! ## Messages -/

def rpcPing : UInt8 := 0x01

def rpcPong : UInt8 := 0x02

def rpcStore : UInt8 := 0x03

def rpcStoreAck : UInt8 := 0x04

def rpcFindNode : UInt8 := 0x05

def rpcFindValue : UInt8 := 0x06

def rpcResponse : UInt8 := 0x07

/-- A contact as a peer sends it, with the zone offset of its `LastSeen` in seconds. -/
structure SentContact where
  contact : Contact
  lastSeen : ℤ

/-- `RPCMessage` as a peer sends it. -/
structure RPCMessage where
  type : UInt8
  requestID : String
  sender : Option SentContact
  payload : Bytes

/-- `ParsePayload` for each kind of request. -/
structure Payloads where
  storeRequest : Bytes → Except String StoreRequest
  /-- The `Target` of a `FindNodeRequest`. -/
  findNodeRequest : Bytes → Except String NodeID
  /-- The `Key` of a `FindValueRequest`. -/
  findValueRequest : Bytes → Except String NodeID

inductive ResponseBody
  | pong
  | storeAck (ack : StoreAck)
  | nodes (contacts : List Contact)
  | value (found : Bytes)
  | noValue (contacts : List Contact)

/-- An answer, a `RPCMessage` whose sender is the node. -/
structure RPCAnswer where
  type : UInt8
  requestID : String
  body : ResponseBody

/-- A `time.Time` with this zone offset has a text: its hours are in `[0,23]`. -/
def zoneMarshals (offset : ℤ) : Bool := offset.natAbs / 3600 < 24

/-- `json.Marshal` of a payload succeeds, with the zone offsets of the contacts. -/
def ResponseBody.marshals (lastSeen : NodeID → ℤ) : ResponseBody → Bool
  | .nodes contacts => contacts.all fun c => zoneMarshals (lastSeen c.id)
  | .noValue contacts => contacts.all fun c => zoneMarshals (lastSeen c.id)
  | _ => true

/-- `rpcMsg, _ := NewRPCMessage(…)` and `rpcMsg.RequestID = msg.RequestID`. -/
def answer (lastSeen : NodeID → ℤ) (msg : RPCMessage) (type : UInt8) (body : ResponseBody) :
    Option RPCAnswer :=
  if body.marshals lastSeen then some ⟨type, msg.requestID, body⟩ else none

/-! ## Handlers -/

/-- The part of `Node` that the handlers read and write, with the zone offset of the `LastSeen` of
each contact of the routing table. -/
structure NodeTables where
  routingTable : RoutingTable
  lastSeen : NodeID → ℤ
  storage : Storage

/-- What the clock shows where a handler reads it. -/
structure HandlerClock where
  verifyAt : ℤ
  storeAt : ℤ
  getAt : ℤ

section Handlers

variable (S : EntrySuite) (P : Payloads) (clock : HandlerClock)

def handlePing (n : NodeTables) (msg : RPCMessage) : Option RPCAnswer :=
  answer n.lastSeen msg rpcPong .pong

/-- `handleStore` with the message it answers. -/
def handleStoreMessage (n : NodeTables) (msg : RPCMessage) : Option (Storage × Option RPCAnswer) :=
  match handleStore S n.storage (P.storeRequest msg.payload)
      (msg.sender.map fun sender => sender.contact.id) clock.verifyAt clock.storeAt with
  | none => none
  | some (s, none) => some (s, none)
  | some (s, some ack) =>
    (answer n.lastSeen msg rpcStoreAck (.storeAck ack)).map fun out => (s, some out)

def handleFindNode (n : NodeTables) (msg : RPCMessage) : Option (Option RPCAnswer) :=
  match P.findNodeRequest msg.payload with
  | .error _ => some none
  | .ok target =>
    match n.routingTable.findClosest target K with
    | none => none
    | some contacts => (answer n.lastSeen msg rpcResponse (.nodes contacts)).map some

def handleFindValue (n : NodeTables) (msg : RPCMessage) : Option (Option RPCAnswer) :=
  match P.findValueRequest msg.payload with
  | .error _ => some none
  | .ok key =>
    match n.storage.get key clock.getAt with
    | some value => (answer n.lastSeen msg rpcResponse (.value value)).map some
    | none =>
      match n.routingTable.findClosest key K with
      | none => none
      | some contacts => (answer n.lastSeen msg rpcResponse (.noValue contacts)).map some

def handleRPC (n : NodeTables) (msg : RPCMessage) : Option (Storage × Option RPCAnswer) :=
  if msg.type = rpcPing then (handlePing n msg).map fun out => (n.storage, some out)
  else if msg.type = rpcStore then handleStoreMessage S P clock n msg
  else if msg.type = rpcFindNode then
    (handleFindNode P n msg).map fun out => (n.storage, out)
  else if msg.type = rpcFindValue then
    (handleFindValue P clock n msg).map fun out => (n.storage, out)
  else some (n.storage, none)

/-- `if msg.Sender != nil { n.routingTable.AddContact(msg.Sender) }`: a known contact gets the
`LastSeen` of `time.Now()`, a new one keeps its own. -/
def noteSender (n : NodeTables) (msg : RPCMessage) : NodeTables :=
  match msg.sender with
  | none => n
  | some sender =>
    let out := n.routingTable.addContact sender.contact
    let seen := if (n.routingTable.getContact sender.contact.id).isSome then 0 else sender.lastSeen
    { n with
      routingTable := out.1
      lastSeen := if out.2 then Function.update n.lastSeen sender.contact.id seen
        else n.lastSeen }

/-- `handleConnection`: the message as the decoder reads it, and the answer that is sent. -/
def handleConnection (n : NodeTables) (decoded : Except String RPCMessage) :
    Option (NodeTables × Option RPCAnswer) :=
  match decoded with
  | .error _ => some (n, none)
  | .ok msg =>
    (handleRPC S P clock (noteSender n msg) msg).map fun out =>
      ({ noteSender n msg with storage := out.1 }, out.2)

/-- The message is a STORE with an entry that verifies. -/
def VerifiedStore (msg : RPCMessage) : Prop :=
  msg.type = rpcStore ∧ ∃ req value, P.storeRequest msg.payload = .ok req ∧
    verifyAndExtract S (unix clock.verifyAt) req.value = .ok value

/-- The message is answered with these contacts. -/
def AnswersContacts (n : NodeTables) (msg : RPCMessage) (contacts : List Contact) : Prop :=
  (msg.type = rpcFindNode ∧ ∃ target, P.findNodeRequest msg.payload = .ok target ∧
    n.routingTable.findClosest target K = some contacts) ∨
  (msg.type = rpcFindValue ∧ ∃ key, P.findValueRequest msg.payload = .ok key ∧
    n.storage.get key clock.getAt = none ∧ n.routingTable.findClosest key K = some contacts)

/-- A STORE with an entry that verifies names its sender, and the contacts of the answer have a
`LastSeen` that can be written. -/
def SafeMessage (n : NodeTables) (msg : RPCMessage) : Prop :=
  (VerifiedStore S P clock msg → msg.sender ≠ none) ∧
    ∀ contacts, AnswersContacts P clock n msg contacts →
      ∀ c ∈ contacts, zoneMarshals (n.lastSeen c.id) = true

end Handlers

section

variable {S : EntrySuite} {P : Payloads} {clock : HandlerClock}

theorem answer_ne_none_iff (lastSeen : NodeID → ℤ) (msg : RPCMessage) (type : UInt8)
    (body : ResponseBody) :
    answer lastSeen msg type body ≠ none ↔ body.marshals lastSeen = true := by
  simp [answer]

theorem findClosest_K (rt : RoutingTable) (target : NodeID) :
    ∃ contacts, rt.findClosest target K = some contacts := by
  unfold RoutingTable.findClosest
  simp only
  split
  · exact ⟨_, if_neg (Int.not_lt.mpr (Int.natCast_nonneg K))⟩
  · exact ⟨_, rfl⟩

variable (n : NodeTables) (msg : RPCMessage)

theorem handlePing_ne_none : handlePing n msg ≠ none :=
  (answer_ne_none_iff n.lastSeen msg _ _).mpr rfl

theorem handleStoreMessage_ne_none_iff :
    handleStoreMessage S P clock n msg ≠ none ↔
      ((∃ req value, P.storeRequest msg.payload = .ok req ∧
        verifyAndExtract S (unix clock.verifyAt) req.value = .ok value) → msg.sender ≠ none) := by
  unfold handleStoreMessage handleStore
  cases hparse : P.storeRequest msg.payload with
  | error e => simp
  | ok req =>
    cases hextract : verifyAndExtract S (unix clock.verifyAt) req.value with
    | error e => simp [hextract, answer, ResponseBody.marshals]
    | ok value =>
      cases hsender : msg.sender with
      | none => simp [hextract]
      | some sender => simp [hextract, answer, ResponseBody.marshals]

theorem handleFindNode_ne_none_iff :
    handleFindNode P n msg ≠ none ↔
      ∀ contacts target, P.findNodeRequest msg.payload = .ok target →
        n.routingTable.findClosest target K = some contacts →
        ∀ c ∈ contacts, zoneMarshals (n.lastSeen c.id) = true := by
  unfold handleFindNode
  cases hparse : P.findNodeRequest msg.payload with
  | error e => simp
  | ok target =>
    obtain ⟨contacts, hclosest⟩ := findClosest_K n.routingTable target
    simp only [hclosest, ne_eq, Option.map_eq_none_iff]
    rw [← ne_eq, answer_ne_none_iff, ResponseBody.marshals, all_eq_true]
    constructor
    · rintro hmarshals contacts' target' htarget hcontacts
      cases htarget
      rw [hclosest] at hcontacts
      cases hcontacts
      exact hmarshals
    · intro h
      exact h contacts target rfl hclosest

theorem handleFindValue_ne_none_iff :
    handleFindValue P clock n msg ≠ none ↔
      ∀ contacts key, P.findValueRequest msg.payload = .ok key →
        n.storage.get key clock.getAt = none → n.routingTable.findClosest key K = some contacts →
        ∀ c ∈ contacts, zoneMarshals (n.lastSeen c.id) = true := by
  unfold handleFindValue
  cases hparse : P.findValueRequest msg.payload with
  | error e => simp
  | ok key =>
    simp only
    cases hget : n.storage.get key clock.getAt with
    | some value =>
      refine iff_of_true (by simp [answer, ResponseBody.marshals]) ?_
      rintro contacts key' hkey hnone
      cases hkey
      rw [hget] at hnone
      cases hnone
    | none =>
      obtain ⟨contacts, hclosest⟩ := findClosest_K n.routingTable key
      simp only [hclosest, ne_eq, Option.map_eq_none_iff]
      rw [← ne_eq, answer_ne_none_iff, ResponseBody.marshals, all_eq_true]
      constructor
      · rintro hmarshals contacts' key' hkey - hcontacts
        cases hkey
        rw [hclosest] at hcontacts
        cases hcontacts
        exact hmarshals
      · intro h
        exact h contacts key rfl hget hclosest

theorem handleRPC_ne_none_iff : handleRPC S P clock n msg ≠ none ↔ SafeMessage S P clock n msg := by
  unfold handleRPC SafeMessage VerifiedStore AnswersContacts
  split
  · next htype =>
    rw [htype]
    simp [handlePing_ne_none, rpcPing, rpcStore, rpcFindNode, rpcFindValue]
  split
  · next htype =>
    rw [handleStoreMessage_ne_none_iff, htype]
    simp [rpcStore, rpcFindNode, rpcFindValue]
  split
  · next htype =>
    rw [ne_eq, Option.map_eq_none_iff, ← ne_eq, handleFindNode_ne_none_iff, htype]
    simp [rpcStore, rpcFindNode, rpcFindValue]
  split
  · next htype =>
    rw [ne_eq, Option.map_eq_none_iff, ← ne_eq, handleFindValue_ne_none_iff, htype]
    simp [rpcStore, rpcFindNode, rpcFindValue]
  · next hping hstore hfindNode hfindValue =>
    simp [hstore, hfindNode, hfindValue]

end

/-- Which messages a node handles without a panic. -/
theorem handleConnection_ne_none_iff (S : EntrySuite) (P : Payloads) (clock : HandlerClock)
    (n : NodeTables) (decoded : Except String RPCMessage) :
    handleConnection S P clock n decoded ≠ none ↔
      ∀ msg, decoded = .ok msg → SafeMessage S P clock (noteSender n msg) msg := by
  unfold handleConnection
  cases decoded with
  | error e => simp
  | ok msg =>
    simp only [ne_eq, Option.map_eq_none_iff]
    rw [← ne_eq, handleRPC_ne_none_iff]
    simp

/-! ## Lookups -/

/-- No contact that the node lookup asks answers with a `null`. -/
def NodeAnswersWhole (rt : RoutingTable) (target : NodeID) (peers : NodePeers) : Prop :=
  ∀ evs round shortlist closestSeen pool,
    Run (FindNodeStep rt.self target K peers) (findNodeStart rt target K) evs
      (.querying round shortlist closestSeen pool) →
    ∀ (i : ℕ) (c : Contact) (status : Status), pool.tasks[i]? = some (c, status) →
      ∀ contacts, peers round i c = .contacts contacts → none ∉ contacts

/-- No answer that the value lookup reads lists a `null`; it reads those of a round in order, up to
the first that says `found`. -/
def ValueAnswersWhole (rt : RoutingTable) (key : NodeID) (peers : ValuePeers) : Prop :=
  ∀ evs round shortlist pool,
    Run (FindValueStep rt.self key peers) (findValueStart rt key) evs
      (.querying round shortlist pool) → pool.Done →
    ∀ before res after, pool.shared.resultChan = before ++ res :: after →
      (∀ r ∈ before ++ [res], r.found = false) → none ∉ res.contacts

section

variable {self : NodeID} {queried : Finset NodeID}

theorem accept_eq_none_iff {contacts : List (Option Contact)} :
    accept self queried contacts = none ↔ none ∈ contacts := by
  induction contacts with
  | nil => simp [accept]
  | cons contact rest ih =>
    cases contact with
    | none => simp [accept]
    | some c => simp [accept, ih]

theorem finish_eq_none_iff {peers : ℕ → Contact → NodeReply} {i : ℕ} {c : Contact}
    {shared : Gathered} : (findNodeJob self peers).finish i c shared = none ↔
      ∃ contacts, peers i c = .contacts contacts ∧ none ∈ contacts := by
  simp only [findNodeJob]
  cases h : peers i c with
  | failed => simp
  | contacts contacts => simp [accept_eq_none_iff]

/-- The goroutines that have finished got no `null`. -/
def FinishedWhole (peers : NodePeers) : FindNodePhase → Prop
  | .querying round _ _ pool => ∀ (i : ℕ) (c : Contact), pool.tasks[i]? = some (c, .finished) →
      ∀ contacts, peers round i c = .contacts contacts → none ∉ contacts
  | _ => True

theorem finishedWhole_step {self target : NodeID} {k : ℕ} {peers : NodePeers}
    {phase phase' : FindNodePhase} {e : FindNodeEvent} (hinv : FinishedWhole peers phase)
    (h : FindNodeStep self target k peers phase e phase') : FinishedWhole peers phase' := by
  cases h with
  | stop => trivial
  | ask =>
    intro i c hi
    rw [Pool.launch, List.getElem?_map] at hi
    obtain ⟨c', -, heq⟩ := Option.map_eq_some_iff.mp hi
    cases congrArg Prod.snd heq
  | @work round shortlist closestSeen pool pool' hstep =>
    have htracked := hstep.tracked (R := fun i c status _ => status = .finished →
      ∀ contacts, peers round i c = .contacts contacts → none ∉ contacts)
      (fun _ _ _ _ _ hR => hR) (fun _ _ _ _ _ _ _ _ hR => hR) ?_ ?_ ?_
    · exact fun i c hi => htracked i c .finished hi rfl
    · intro i c shared _ heq
      cases heq
    · intro i c shared shared' hfinish _ _ contacts hreply hnull
      rw [finish_eq_none_iff.mpr ⟨contacts, hreply, hnull⟩] at hfinish
      cases hfinish
    · intro i c status hi heq
      exact hinv i c (heq ▸ hi)
  | crash => trivial
  | merge =>
    unfold concludeRound
    split
    · trivial
    · split <;> trivial

theorem findNodeStart_ne_crashed (rt : RoutingTable) (target : NodeID) :
    findNodeStart rt target K ≠ .crashed := by
  obtain ⟨contacts, hclosest⟩ := findClosest_K rt target
  rw [findNodeStart, hclosest]
  cases contacts with
  | nil => exact FindNodePhase.noConfusion
  | cons c rest => exact FindNodePhase.noConfusion

theorem findValueStart_ne_crashed (rt : RoutingTable) (key : NodeID) :
    findValueStart rt key ≠ .crashed := by
  obtain ⟨contacts, hclosest⟩ := findClosest_K rt key
  rw [findValueStart, hclosest]
  cases contacts with
  | nil => exact FindValuePhase.noConfusion
  | cons c rest => exact FindValuePhase.noConfusion

/-- The loop panics at a `null` before any value. -/
theorem processResults_panicked_iff {newContacts : List Contact} {results : List ValueResult} :
    processResults self queried newContacts results = .panicked ↔
      ∃ before res after, results = before ++ res :: after ∧
        (∀ r ∈ before ++ [res], r.found = false) ∧ none ∈ res.contacts := by
  induction results generalizing newContacts with
  | nil => simp [processResults]
  | cons r rest ih =>
    rw [processResults]
    -- the split of the list is at its head, or inside its tail
    have hsplit : (∃ before res after, r :: rest = before ++ res :: after ∧
        (∀ r ∈ before ++ [res], r.found = false) ∧ none ∈ res.contacts) ↔
        r.found = false ∧ (none ∈ r.contacts ∨ ∃ before res after, rest = before ++ res :: after ∧
          (∀ r ∈ before ++ [res], r.found = false) ∧ none ∈ res.contacts) := by
      constructor
      · rintro ⟨before, res, after, heq, hfound, hnull⟩
        cases before with
        | nil =>
          cases heq
          exact ⟨hfound r (by simp), .inl hnull⟩
        | cons x before =>
          cases heq
          exact ⟨hfound r (by simp), .inr ⟨before, res, after, rfl,
            fun r' hr' => hfound r' (mem_cons_of_mem _ hr'), hnull⟩⟩
      · rintro ⟨hr, hnull | ⟨before, res, after, rfl, hfound, hnull⟩⟩
        · exact ⟨[], r, rest, rfl, by simpa using hr, hnull⟩
        · refine ⟨r :: before, res, after, rfl, ?_, hnull⟩
          rintro r' (_ | ⟨_, hr'⟩)
          · exact hr
          · exact hfound r' hr'
    rw [hsplit]
    cases hfound : r.found with
    | true => simp
    | false =>
      simp only [Bool.false_eq_true, if_false, true_and]
      cases haccept : accept self queried r.contacts with
      | none => simp [accept_eq_none_iff.mp haccept]
      | some taken =>
        have hwhole : none ∉ r.contacts := fun hnull => by
          rw [accept_eq_none_iff.mpr hnull] at haccept
          cases haccept
        simp only [ih, hwhole, false_or]

end

theorem findNode_crashes_iff (rt : RoutingTable) (target : NodeID) (peers : NodePeers) :
    (∀ evs, ¬ Run (FindNodeStep rt.self target K peers) (findNodeStart rt target K) evs .crashed) ↔
      NodeAnswersWhole rt target peers := by
  constructor
  · intro hsafe evs round shortlist closestSeen pool hrun i c status hi contacts hreply hnull
    have hfinish shared : (findNodeJob rt.self (peers round)).finish i c shared = none :=
      finish_eq_none_iff.mpr ⟨contacts, hreply, hnull⟩
    cases status with
    | waiting =>
      refine hsafe _ ((hrun.snoc (.work (.start hi))).snoc (.crash ⟨i, c, ?_, hfinish _⟩))
      rw [Pool.move, List.getElem?_set_self (List.getElem?_eq_some_iff.mp hi).1]
    | started => exact hsafe _ (hrun.snoc (.crash ⟨i, c, hi, hfinish _⟩))
    | finished =>
      have hinv : FinishedWhole peers (.querying round shortlist closestSeen pool) := by
        refine hrun.invariant ?_ fun _ _ _ hinv hstep => finishedWhole_step hinv hstep
        unfold findNodeStart
        split <;> trivial
      exact hinv i c hi contacts hreply hnull
  · intro hwhole evs hrun
    rcases eq_nil_or_concat evs with rfl | ⟨evs, e, rfl⟩
    · exact findNodeStart_ne_crashed rt target hrun.nil_inv
    · rw [concat_eq_append] at hrun
      obtain ⟨phase, hbefore, hstep⟩ := hrun.snoc_inv
      generalize hend : FindNodePhase.crashed = phase' at hstep
      cases hstep with
      | crash hcrash =>
        obtain ⟨i, c, hi, hfinish⟩ := hcrash
        obtain ⟨contacts, hreply, hnull⟩ := finish_eq_none_iff.mp hfinish
        exact hwhole _ _ _ _ _ hbefore i c _ hi contacts hreply hnull
      | merge =>
        unfold concludeRound at hend
        split at hend
        · cases hend
        · split at hend <;> cases hend
      | _ => cases hend

theorem findValue_panics_iff (rt : RoutingTable) (key : NodeID) (peers : ValuePeers) :
    (findValueStart rt key ≠ .crashed ∧ ∀ evs phase,
      Run (FindValueStep rt.self key peers) (findValueStart rt key) evs phase →
        .panicked ∉ evs) ↔ ValueAnswersWhole rt key peers := by
  constructor
  · rintro ⟨-, hsafe⟩ evs round shortlist pool hrun hdone before res after heq hfound hnull
    have hpanic : processResults rt.self pool.shared.queried [] pool.shared.resultChan =
        .panicked := processResults_panicked_iff.mpr ⟨before, res, after, heq, hfound, hnull⟩
    exact hsafe _ _ (hrun.snoc (.panic hdone hpanic)) (mem_append_right _ mem_cons_self)
  · intro hwhole
    refine ⟨findValueStart_ne_crashed rt key, fun evs phase hrun hmem => ?_⟩
    obtain ⟨before, after, rfl⟩ := append_of_mem hmem
    obtain ⟨phase₁, phase₂, hrun₁, hstep⟩ := hrun.split
    cases hstep with
    | panic hdone hpanic =>
      obtain ⟨before, res, after, heq, hfound, hnull⟩ := processResults_panicked_iff.mp hpanic
      exact hwhole _ _ _ _ hrun₁ hdone before res after heq hfound hnull

/-- A node comes through every message and every lookup just when a valid STORE names its sender,
the contacts it answers with can be written, and no answer that it reads lists a `null`. -/
theorem node_robust_iff (S : EntrySuite) (P : Payloads) (clock : HandlerClock) (n : NodeTables)
    (decoded : Except String RPCMessage) (target key : NodeID) (nodePeers : NodePeers)
    (valuePeers : ValuePeers) :
    (handleConnection S P clock n decoded ≠ none ∧
      (∀ evs, ¬ Run (FindNodeStep n.routingTable.self target K nodePeers)
        (findNodeStart n.routingTable target K) evs .crashed) ∧
      (findValueStart n.routingTable key ≠ .crashed ∧ ∀ evs phase,
        Run (FindValueStep n.routingTable.self key valuePeers) (findValueStart n.routingTable key)
          evs phase → .panicked ∉ evs)) ↔
    (∀ msg, decoded = .ok msg → SafeMessage S P clock (noteSender n msg) msg) ∧
      NodeAnswersWhole n.routingTable target nodePeers ∧
      ValueAnswersWhole n.routingTable key valuePeers := by
  rw [handleConnection_ne_none_iff, findNode_crashes_iff, findValue_panics_iff]

/-- Payloads that are a key and a value without any framing. -/
def barePayloads : Payloads where
  storeRequest data := .ok ⟨.zero 20, data, 1000⟩
  findNodeRequest _ := .ok (.zero 20)
  findValueRequest _ := .ok (.zero 20)

def freshTables : NodeTables := ⟨.new (ByteArr.ofSlice 20 [0x80]), fun _ => 0, .empty⟩

theorem sample_crash : ∃ evs, Run (FindNodeStep sampleTable.self (.zero 20) K
    fun _ _ _ => .contacts [none]) (findNodeStart sampleTable (.zero 20) K) evs .crashed := by
  have hclosest : sampleTable.findClosest (.zero 20) K = some [nearby 1] := sampleTable_findClosest
  have hask : FindNodeStep sampleTable.self (.zero 20) K (fun _ _ _ => .contacts [none])
      (.searching 0 [nearby 1] {sampleTable.self} (nearby 1)) (.asked [nearby 1])
      (.querying 0 [nearby 1] (nearby 1) (.launch [nearby 1] ⟨{sampleTable.self}, []⟩)) := by
    exact .ask (by rw [sampleTable_toQuery]; exact cons_ne_nil _ _)
  exact ⟨_, ((Run.nil.snoc hask).snoc (.work (.start (i := 0) rfl))).snoc
    (.crash ⟨0, nearby 1, rfl, rfl⟩)⟩

/-- Three messages that take a node down: a STORE without a sender, a FIND_NODE with a zone offset
of 24 hours, and an answer with a `null`. -/
theorem node_taken_down :
    handleConnection openSuite barePayloads ⟨0, 0, 0⟩ freshTables
      (.ok ⟨rpcStore, "", none, [1]⟩) = none ∧
    handleConnection openSuite barePayloads ⟨0, 0, 0⟩ freshTables
      (.ok ⟨rpcFindNode, "", some ⟨nearby 1, 86400⟩, []⟩) = none ∧
    ∃ evs, Run (FindNodeStep sampleTable.self (.zero 20) K fun _ _ _ => .contacts [none])
      (findNodeStart sampleTable (.zero 20) K) evs .crashed := by
  refine ⟨?_, ?_, sample_crash⟩
  · rw [← not_ne_iff, handleConnection_ne_none_iff]
    intro hsafe
    exact (hsafe _ rfl).1 ⟨rfl, _, _, rfl, openSuite_extract⟩ rfl
  · rw [← not_ne_iff, handleConnection_ne_none_iff]
    intro hsafe
    have hclosest : (noteSender freshTables ⟨rpcFindNode, "", some ⟨nearby 1, 86400⟩, []⟩
        ).routingTable.findClosest (.zero 20) K = some [nearby 1] := sampleTable_findClosest
    have hmarshals := (hsafe _ rfl).2 _ (.inl ⟨rfl, _, rfl, hclosest⟩) (nearby 1)
      mem_cons_self
    revert hmarshals
    decide +kernel

end Zentalk.Dht
