import Zentalk.Dht.FindNode
import Zentalk.Dht.Storage

/-!
# The iterative value lookup

`iterativeFindValue`. The goroutines write `queried` without a lock.

Results:
1. `lookups_terminate`: both lookups end.
2. `lookup_complete_iff`: when an entry that is served is found.
-/

namespace Zentalk.Dht

open Wire Runs Workers Ranking List

/-! ## Rounds -/

/-- The `result` that a goroutine sends: what `FindValueResponse` holds. -/
structure ValueResult where
  value : Bytes
  found : Bool
  contacts : List (Option Contact)

inductive ValueReply
  /-- No answer, or one that does not parse. -/
  | failed
  | answer (result : ValueResult)

/-- What the peer asked by a goroutine answers: by round, place in the round, and contact. -/
abbrev ValuePeers := ℕ → ℕ → Contact → ValueReply

/-- What the goroutines of a round share. -/
structure Received where
  queried : Finset NodeID
  resultChan : List ValueResult

/-- The goroutine of a contact. The channel has room for all of them. -/
def findValueJob (peers : ℕ → Contact → ValueReply) : Job Contact Received where
  start c shared := { shared with queried := insert c.id shared.queried }
  finish i c shared :=
    match peers i c with
    | .failed => some shared
    | .answer result => some { shared with resultChan := shared.resultChan ++ [result] }

/-- What the answers of a round come to. -/
inductive RoundOutcome
  | found (value : Bytes)
  | panicked
  | contacts (newContacts : List Contact)

/-- The loop over the channel. -/
def processResults (self : NodeID) (queried : Finset NodeID) :
    List Contact → List ValueResult → RoundOutcome
  | newContacts, [] => .contacts newContacts
  | newContacts, res :: rest =>
    if res.found then .found res.value
    else
      match accept self queried res.contacts with
      | none => .panicked
      | some taken => processResults self queried (newContacts ++ taken) rest

abbrev Received.outcome (shared : Received) (self : NodeID) : RoundOutcome :=
  processResults self shared.queried [] shared.resultChan

/-- Where a lookup stands; at its end, the value if there is one and the last shortlist. -/
inductive FindValuePhase
  | searching (round : ℕ) (shortlist : List Contact) (queried : Finset NodeID)
  | querying (round : ℕ) (shortlist : List Contact) (pool : Pool Contact Received)
  | returned (value : Option Bytes) (shortlist : List Contact)
  | crashed

/-- `iterativeFindValue` before its loop. -/
def findValueStart (rt : RoutingTable) (key : NodeID) : FindValuePhase :=
  match rt.findClosest key K with
  | none => .crashed
  | some [] => .returned none []
  | some (c :: rest) => .searching 0 (c :: rest) {rt.self}

inductive FindValueEvent
  | stopped
  | asked (contacts : List Contact)
  | worked
  | raced
  | found
  | panicked
  | exhausted
  | merged

/-- One step of the lookup of `key` by the node `self`: it stops when nobody is left to ask,
starts a round, lets a goroutine start or finish, or reads the answers. They hold a value, a nil
contact, no contact to go on with, or contacts that are added to the shortlist. -/
inductive FindValueStep (self key : NodeID) (peers : ValuePeers) :
    FindValuePhase → FindValueEvent → FindValuePhase → Prop
  | stop {round shortlist queried} :
      toQuery queried shortlist = [] →
      FindValueStep self key peers (.searching round shortlist queried) .stopped
        (.returned none shortlist)
  | ask {round shortlist queried} :
      toQuery queried shortlist ≠ [] →
      FindValueStep self key peers (.searching round shortlist queried)
        (.asked (toQuery queried shortlist))
        (.querying round shortlist (.launch (toQuery queried shortlist) ⟨queried, []⟩))
  | work {round shortlist} {pool pool' : Pool Contact Received} :
      (findValueJob (peers round)).Step pool pool' →
      FindValueStep self key peers (.querying round shortlist pool) .worked
        (.querying round shortlist pool')
  | race {round shortlist} {pool : Pool Contact Received} :
      2 ≤ pool.tasks.countP (fun task => task.2 = .waiting) →
      FindValueStep self key peers (.querying round shortlist pool) .raced .crashed
  | find {round shortlist} {pool : Pool Contact Received} {value : Bytes} :
      pool.Done → pool.shared.outcome self = .found value →
      FindValueStep self key peers (.querying round shortlist pool) .found
        (.returned (some value) shortlist)
  | panic {round shortlist} {pool : Pool Contact Received} :
      pool.Done → pool.shared.outcome self = .panicked →
      FindValueStep self key peers (.querying round shortlist pool) .panicked .crashed
  | giveUp {round shortlist} {pool : Pool Contact Received} :
      pool.Done → pool.shared.outcome self = .contacts [] →
      FindValueStep self key peers (.querying round shortlist pool) .exhausted
        (.returned none shortlist)
  | merge {round shortlist newContacts sorted} {pool : Pool Contact Received} :
      pool.Done → pool.shared.outcome self = .contacts newContacts →
      newContacts ≠ [] → SortsTo key (shortlist ++ newContacts) sorted →
      FindValueStep self key peers (.querying round shortlist pool) .merged
        (.searching (round + 1) (truncate K sorted) pool.shared.queried)

def sentTo (evs : List FindValueEvent) : List Contact :=
  evs.flatMap fun
    | .asked contacts => contacts
    | _ => []

def FindValuePhase.Final : FindValuePhase → Prop
  | .searching .. => False
  | .querying .. => False
  | .returned .. => True
  | .crashed => True

/-! ## A round -/

/-- What holds while the goroutines of a round are at work: those that have started have marked
their contact, and those that have finished have sent the answer they got. -/
structure RoundInv (peers : ℕ → Contact → ValueReply) (pool : Pool Contact Received) : Prop where
  marked : ∀ (i : ℕ) (c : Contact) (status : Status), pool.tasks[i]? = some (c, status) →
    status ≠ .waiting → c.id ∈ pool.shared.queried
  sent : ∀ (i : ℕ) (c : Contact), pool.tasks[i]? = some (c, .finished) →
    ∀ res, peers i c = .answer res → res ∈ pool.shared.resultChan

section

theorem roundInv_launch (peers : ℕ → Contact → ValueReply) (contacts : List Contact)
    (queried : Finset NodeID) : RoundInv peers (.launch contacts ⟨queried, []⟩) := by
  have hwaiting {i : ℕ} {c : Contact} {status : Status}
      (h : (Pool.launch contacts (⟨queried, []⟩ : Received)).tasks[i]? = some (c, status)) :
      status = .waiting := by
    rw [Pool.launch, List.getElem?_map] at h
    obtain ⟨c', -, heq⟩ := Option.map_eq_some_iff.mp h
    exact (congrArg Prod.snd heq).symm
  refine ⟨fun i c status h hne => absurd (hwaiting h) hne, fun i c h => ?_⟩
  cases hwaiting h

variable {peers : ℕ → Contact → ValueReply} {i : ℕ} {c : Contact} {shared shared' : Received}

section

variable (h : (findValueJob peers).finish i c shared = some shared')

include h

theorem finish_cases :
    peers i c = .failed ∧ shared' = shared ∨ ∃ res, peers i c = .answer res ∧
      shared' = ⟨shared.queried, shared.resultChan ++ [res]⟩ := by
  simp only [findValueJob] at h
  split at h
  · next hreply => exact .inl ⟨hreply, (Option.some.inj h).symm⟩
  · next res hreply => exact .inr ⟨res, hreply, (Option.some.inj h).symm⟩

theorem finish_queried : shared'.queried = shared.queried := by
  rcases finish_cases h with ⟨-, rfl⟩ | ⟨res, -, rfl⟩
  · rfl
  · rfl

theorem finish_subset : ∀ res ∈ shared.resultChan, res ∈ shared'.resultChan := by
  rcases finish_cases h with ⟨-, rfl⟩ | ⟨res, -, rfl⟩
  · exact fun _ hres => hres
  · exact fun _ hres => mem_append_left _ hres

end

/-- Goroutines keep the invariant of the round, in any order. -/
theorem roundInv_step {pool pool' : Pool Contact Received} (hinv : RoundInv peers pool)
    (h : (findValueJob peers).Step pool pool') : RoundInv peers pool' := by
  refine ⟨?_, ?_⟩
  -- Nothing is removed from the map or from the channel before the wait is over.
  · refine h.tracked (R := fun _ c status shared => status ≠ .waiting → c.id ∈ shared.queried)
      ?_ ?_ ?_ ?_ hinv.marked
    · exact fun _ _ _ _ _ hR hne => Finset.mem_insert_of_mem (hR hne)
    · intro _ _ _ _ _ _ _ hfinish hR hne
      rw [finish_queried hfinish]
      exact hR hne
    · exact fun _ _ _ _ _ => Finset.mem_insert_self _ _
    · intro _ _ _ _ hfinish hR _
      rw [finish_queried hfinish]
      exact hR nofun
  · have hsent := h.tracked (R := fun i c status shared => status = .finished →
      ∀ res, peers i c = .answer res → res ∈ shared.resultChan) ?_ ?_ ?_ ?_ ?_
    · exact fun i c hi => hsent i c .finished hi rfl
    · exact fun _ _ _ _ _ hR => hR
    · exact fun _ _ _ _ _ _ _ hfinish hR heq res hres => finish_subset hfinish res (hR heq res hres)
    · exact fun _ _ _ _ heq => nomatch heq
    · intro i c shared shared' hfinish _ _ res hres
      rcases finish_cases hfinish with ⟨hfailed, -⟩ | ⟨res', hres', rfl⟩
      · rw [hfailed] at hres
        cases hres
      · rw [hres'] at hres
        cases hres
        exact mem_append_right _ mem_cons_self
    · intro i c status hi heq
      exact hinv.sent i c (heq ▸ hi)

end

/-! ## The lookups end -/

def queriedAfter (pool : Pool Contact Received) : Finset NodeID :=
  pool.shared.queried ∪ (pool.tasks.map fun task => task.1.id).toFinset

/-- The identifiers not queried yet bound the rounds. -/
def findValueMeasure : FindValuePhase → ℕ
  | .searching _ _ queried => 10 * (2 ^ 160 - queried.card) + 1
  | .querying _ _ pool => 10 * (2 ^ 160 - (queriedAfter pool).card) + 2 + pool.remaining
  | .returned .. => 0
  | .crashed => 0

/-- The invariant of a round, while there is one. -/
def ValueRoundInv (peers : ValuePeers) : FindValuePhase → Prop
  | .querying round _ pool => RoundInv (peers round) pool
  | _ => True

section

/-- There are `2 ^ 160` identifiers. -/
theorem card_le (ids : Finset NodeID) : ids.card ≤ 2 ^ 160 := by
  have hinj : Function.Injective fun id => NodeID.distance id (.zero 20) := fun _ _ =>
    NodeID.distance_inj
  rw [← Finset.card_image_of_injective ids hinj, ← Finset.card_range (2 ^ 160)]
  refine Finset.card_le_card fun d hd => ?_
  obtain ⟨id, -, rfl⟩ := Finset.mem_image.mp hd
  exact Finset.mem_range.mpr (NodeID.distance_lt id _)

/-- A round asks somebody new. -/
theorem card_lt_queriedAfter {queried : Finset NodeID} {shortlist : List Contact}
    (h : toQuery queried shortlist ≠ []) :
    queried.card <
      (queriedAfter (.launch (toQuery queried shortlist) ⟨queried, []⟩)).card := by
  obtain ⟨c, hc⟩ := exists_mem_of_ne_nil _ h
  have hnew : c.id ∉ queried := by
    have hmem := mem_filter.mp (mem_of_mem_take hc)
    simpa using hmem.2
  refine Finset.card_lt_card (Finset.ssubset_iff.mpr ⟨c.id, hnew, ?_⟩)
  refine Finset.insert_subset ?_ Finset.subset_union_left
  refine Finset.mem_union_right _ (mem_toFinset.mpr ?_)
  rw [Pool.launch, map_map]
  exact mem_map_of_mem hc

variable {peers : ℕ → Contact → ValueReply}

theorem queriedAfter_step {pool pool' : Pool Contact Received}
    (h : (findValueJob peers).Step pool pool') : queriedAfter pool' = queriedAfter pool := by
  have hids : (pool'.tasks.map fun task => task.1.id) = pool.tasks.map fun task => task.1.id := by
    have hitems := congrArg (List.map Contact.id) h.items
    rwa [map_map, map_map] at hitems
  unfold queriedAfter
  rw [hids]
  cases h with
  | @start i c hi =>
    have hmem : c.id ∈ (pool.tasks.map fun task => task.1.id).toFinset :=
      mem_toFinset.mpr (mem_map_of_mem (mem_of_getElem? hi))
    show insert c.id pool.shared.queried ∪ _ = _
    rw [Finset.insert_union, Finset.insert_eq_of_mem (Finset.mem_union_right _ hmem)]
  | @finish i c shared hi hfinish =>
    show shared.queried ∪ _ = _
    rw [finish_queried hfinish]

theorem queriedAfter_done {pool : Pool Contact Received} (hinv : RoundInv peers pool)
    (hdone : pool.Done) : queriedAfter pool = pool.shared.queried := by
  refine Finset.union_eq_left.mpr fun id hid => ?_
  obtain ⟨⟨c, status⟩, hmem, rfl⟩ := mem_map.mp (mem_toFinset.mp hid)
  obtain ⟨i, hi⟩ := List.getElem?_of_mem hmem
  obtain rfl : status = .finished := hdone _ hmem
  exact hinv.marked i c _ hi nofun

end

variable {phase : FindValuePhase}

/-- A lookup that has not come to its end has a step ahead of it. -/
theorem findValueMeasure_pos (h : ¬ phase.Final) : 0 < findValueMeasure phase := by
  cases phase with
  | searching => exact Nat.succ_pos _
  | querying =>
    rw [findValueMeasure]
    omega
  | returned => exact absurd trivial h
  | crashed => exact absurd trivial h

theorem findValue_step_down {self key : NodeID} {peers : ValuePeers} {phase' : FindValuePhase}
    {e : FindValueEvent} (hinv : ValueRoundInv peers phase)
    (h : FindValueStep self key peers phase e phase') :
    ValueRoundInv peers phase' ∧ findValueMeasure phase' < findValueMeasure phase := by
  cases h with
  | stop hnone => exact ⟨trivial, findValueMeasure_pos nofun⟩
  | @ask round shortlist queried hsome =>
    refine ⟨roundInv_launch _ _ _, ?_⟩
    have hlen := length_toQuery_le queried shortlist
    have hlt := card_lt_queriedAfter hsome
    have hle := card_le (queriedAfter (.launch (toQuery queried shortlist) ⟨queried, []⟩))
    simp only [findValueMeasure, Pool.remaining_launch]
    omega
  | work hstep =>
    refine ⟨roundInv_step hinv hstep, ?_⟩
    have hlt := hstep.remaining_lt
    simp only [findValueMeasure, queriedAfter_step hstep]
    omega
  | race hrace => exact ⟨trivial, findValueMeasure_pos nofun⟩
  | find hdone hfound => exact ⟨trivial, findValueMeasure_pos nofun⟩
  | panic hdone hpanic => exact ⟨trivial, findValueMeasure_pos nofun⟩
  | giveUp hdone hempty => exact ⟨trivial, findValueMeasure_pos nofun⟩
  | merge hdone hnew hne hsorts =>
    -- All goroutines have marked their contact, so the map holds everybody of the round.
    refine ⟨trivial, ?_⟩
    simp only [findValueMeasure, queriedAfter_done hinv hdone]
    omega

theorem findValue_progress (self key : NodeID) (peers : ValuePeers) (h : ¬ phase.Final) :
    ∃ e phase', FindValueStep self key peers phase e phase' := by
  cases phase with
  | searching round shortlist queried =>
    by_cases hnone : toQuery queried shortlist = []
    · exact ⟨_, _, .stop hnone⟩
    · exact ⟨_, _, .ask hnone⟩
  | querying round shortlist pool =>
    by_cases hdone : pool.Done
    · cases hresults : pool.shared.outcome self with
      | found value => exact ⟨_, _, .find hdone hresults⟩
      | panicked => exact ⟨_, _, .panic hdone hresults⟩
      | contacts newContacts =>
        by_cases hnew : newContacts = []
        · subst hnew
          exact ⟨_, _, .giveUp hdone hresults⟩
        · obtain ⟨sorted, hsorts⟩ := exists_sortsTo key (shortlist ++ newContacts)
          exact ⟨_, _, .merge hdone hresults hnew hsorts⟩
    · rcases Pool.exists_step (findValueJob (peers round)) hdone with ⟨pool', hstep⟩ | hcrash
      · exact ⟨_, _, .work hstep⟩
      · obtain ⟨i, c, -, hfinish⟩ := hcrash
        simp only [findValueJob] at hfinish
        split at hfinish <;> cases hfinish
  | returned value shortlist => exact absurd trivial h
  | crashed => exact absurd trivial h

/-- Both lookups end, whatever the peers answer, and each round of a node lookup but the last has
come closer. -/
theorem lookups_terminate (rt : RoutingTable) (target : NodeID) (k : ℤ) (nodePeers : NodePeers)
    (valuePeers : ValuePeers) :
    EndsWithin (FindNodeStep rt.self target k.toNat nodePeers) (findNodeStart rt target k)
      FindNodePhase.Final (10 * 2 ^ 160) ∧
    (∀ evs e round shortlist closestSeen pool round' shortlist' queried closestSeen',
      Run (FindNodeStep rt.self target k.toNat nodePeers) (findNodeStart rt target k) evs
        (.querying round shortlist closestSeen pool) →
      FindNodeStep rt.self target k.toNat nodePeers (.querying round shortlist closestSeen pool) e
        (.searching round' shortlist' queried closestSeen') →
      closestSeen'.far target < closestSeen.far target) ∧
    EndsWithin (FindValueStep rt.self target valuePeers) (findValueStart rt target)
      FindValuePhase.Final (10 * 2 ^ 160) := by
  refine ⟨?_, fun _ _ _ _ _ _ _ _ _ _ hrun hstep => findNode_closer hrun hstep, ?_⟩
  · refine EndsWithin.of_measure trivial
      (fun _ _ _ _ hstep => ⟨trivial, findNode_step_down hstep⟩)
      (fun _ hfinal => findNode_progress _ _ _ _ hfinal) ?_
    unfold findNodeStart
    split
    · exact Nat.zero_le _
    · exact Nat.zero_le _
    · next c rest hclosest =>
      have hlt := NodeID.distance_lt c.id target
      simp only [findNodeMeasure, if_neg (cons_ne_nil c rest), Contact.far]
      omega
  · refine EndsWithin.of_measure ?_
      (fun _ _ _ hinv hstep => findValue_step_down hinv hstep)
      (fun _ hfinal => findValue_progress _ _ _ hfinal) ?_
    · unfold findValueStart
      split <;> exact trivial
    · unfold findValueStart
      split
      · exact Nat.zero_le _
      · exact Nat.zero_le _
      · simp only [findValueMeasure, Finset.card_singleton]
        omega

/-! ## What a lookup finds -/

/-- What the outcome of a round says about its answers: the first one with a value, or one with a
nil contact, or the contacts that are new. -/
def RoundOutcome.Reports (self : NodeID) (queried : Finset NodeID) (newContacts : List Contact)
    (results : List ValueResult) : RoundOutcome → Prop
  | .found value => ∃ res, results.find? ValueResult.found = some res ∧ res.value = value
  | .panicked => ∃ res ∈ results, accept self queried res.contacts = none
  | .contacts all => results.find? ValueResult.found = none ∧ ∃ more, all = newContacts ++ more ∧
    (more = [] ↔ ∀ res ∈ results, accept self queried res.contacts = some [])

/-- When the contact was asked it did not say that it has the value. -/
def Unfound (peers : ValuePeers) (c : Contact) : Prop :=
  ∃ round i, ∀ res, peers round i c = .answer res → res.found = false

/-- Nobody asked in an earlier round had the value. -/
def FindValueInv (peers : ValuePeers) (evs : List FindValueEvent) : FindValuePhase → Prop
  | .searching .. => ∀ c ∈ sentTo evs, Unfound peers c
  | .querying round _ pool => RoundInv (peers round) pool ∧
    ∀ c ∈ sentTo evs, Unfound peers c ∨ c ∈ pool.tasks.map Prod.fst
  | .returned none _ => ∀ c ∈ sentTo evs, Unfound peers c
  | _ => True

section

theorem processResults_reports (self : NodeID) (queried : Finset NodeID)
    (newContacts : List Contact) (results : List ValueResult) :
    (processResults self queried newContacts results).Reports self queried newContacts results := by
  induction results generalizing newContacts with
  | nil => exact ⟨rfl, [], (append_nil _).symm, by simp⟩
  | cons res rest ih =>
    unfold processResults
    split
    · next hfound => exact ⟨res, find?_cons_of_pos hfound, rfl⟩
    · next hfound =>
      split
      · next hnil => exact ⟨res, mem_cons_self, hnil⟩
      · next taken htaken =>
        have hrest := ih (newContacts ++ taken)
        cases houtcome : processResults self queried (newContacts ++ taken) rest with
        | found value =>
          rw [houtcome] at hrest
          rwa [RoundOutcome.Reports, find?_cons_of_neg hfound]
        | panicked =>
          rw [houtcome] at hrest
          obtain ⟨res', hmem, hnil⟩ := hrest
          exact ⟨res', mem_cons_of_mem _ hmem, hnil⟩
        | contacts all =>
          rw [houtcome] at hrest
          obtain ⟨hnone, more, hall, hmore⟩ := hrest
          refine ⟨by rwa [find?_cons_of_neg hfound], taken ++ more, ?_, ?_⟩
          · rw [hall, append_assoc]
          · rw [append_eq_nil_iff, hmore, forall_mem_cons, htaken, Option.some_inj]

theorem outcome_reports (self : NodeID) (shared : Received) :
    (shared.outcome self).Reports self shared.queried [] shared.resultChan :=
  processResults_reports self _ _ _

theorem sentTo_snoc (evs : List FindValueEvent) (e : FindValueEvent) :
    sentTo (evs ++ [e]) = sentTo evs ++ sentTo [e] := by
  simp [sentTo]

variable {peers : ValuePeers} {evs : List FindValueEvent}

/-- After a round without a value nobody who was asked has it. -/
theorem unfound_round {self : NodeID} {round : ℕ} {shortlist newContacts : List Contact}
    {pool : Pool Contact Received} (hinv : FindValueInv peers evs (.querying round shortlist pool))
    (hdone : pool.Done) (hcontacts : pool.shared.outcome self = .contacts newContacts) :
    ∀ c ∈ sentTo evs, Unfound peers c := by
  obtain ⟨hround, hsent⟩ := hinv
  have hnone := outcome_reports self pool.shared
  rw [hcontacts] at hnone
  replace hnone := find?_eq_none.mp hnone.1
  intro c hc
  rcases hsent c hc with hbefore | hnow
  · exact hbefore
  · obtain ⟨⟨c, status⟩, hmem, rfl⟩ := mem_map.mp hnow
    obtain ⟨i, hi⟩ := List.getElem?_of_mem hmem
    obtain rfl : status = .finished := hdone _ hmem
    exact ⟨round, i, fun res hres =>
      Bool.eq_false_iff.mpr (hnone res (hround.sent i c hi res hres))⟩

theorem findValueInv_start (rt : RoutingTable) (key : NodeID) (peers : ValuePeers) :
    FindValueInv peers [] (findValueStart rt key) := by
  unfold findValueStart
  split
  · exact trivial
  · exact nofun
  · exact nofun

theorem findValueInv_step {self key : NodeID} {e : FindValueEvent} {phase phase' : FindValuePhase}
    (hinv : FindValueInv peers evs phase) (h : FindValueStep self key peers phase e phase') :
    FindValueInv peers (evs ++ [e]) phase' := by
  have hquiet (he : sentTo [e] = []) : sentTo (evs ++ [e]) = sentTo evs := by
    rw [sentTo_snoc, he, append_nil]
  cases h with
  | stop hnone =>
    simp only [FindValueInv, hquiet rfl]
    exact hinv
  | @ask round shortlist queried hsome =>
    have hasked : sentTo [FindValueEvent.asked (toQuery queried shortlist)] =
        toQuery queried shortlist := by simp [sentTo]
    refine ⟨roundInv_launch _ _ _, fun c hc => ?_⟩
    rw [sentTo_snoc, hasked] at hc
    rcases mem_append.mp hc with hbefore | hnow
    · exact .inl (hinv c hbefore)
    · right
      rw [Pool.launch, map_map]
      exact mem_map.mpr ⟨c, hnow, rfl⟩
  | work hstep =>
    refine ⟨roundInv_step hinv.1 hstep, fun c hc => ?_⟩
    rw [hquiet rfl] at hc
    rw [hstep.items]
    exact hinv.2 c hc
  | race hrace => exact trivial
  | find hdone hfound => exact trivial
  | panic hdone hpanic => exact trivial
  | giveUp hdone hempty =>
    simp only [FindValueInv, hquiet rfl]
    exact unfound_round hinv hdone hempty
  | merge hdone hnew hne hsorts =>
    simp only [FindValueInv, hquiet rfl]
    exact unfound_round hinv hdone hnew

theorem findValueInv_run {rt : RoutingTable} {key : NodeID} {phase : FindValuePhase}
    (h : Run (FindValueStep rt.self key peers) (findValueStart rt key) evs phase) :
    FindValueInv peers evs phase :=
  Run.trace_invariant (findValueInv_start rt key peers)
    (fun _ _ _ _ hinv hstep => findValueInv_step hinv hstep) h

end

def ServesValid (S : EntrySuite) (peers : ValuePeers) (key : NodeID) (verifyAt : ℤ) (c : Contact) :
    Prop :=
  ∀ round i, ∃ res e, peers round i c = .answer res ∧ res.found = true ∧
    S.unmarshal res.value = .ok e ∧ e.key = key ∧ e.Valid S (unix verifyAt)

/-- What a lookup needs, given the contacts asked before. When nobody is left to ask, or all answers
of a round are in and none has a value or a new contact, everybody on the shortlist has been asked.
The first answer with a value holds a valid entry. -/
def FindValuePhase.Sound (S : EntrySuite) (verifyAt : ℤ) (self : NodeID) (asked : List Contact) :
    FindValuePhase → Prop
  | .searching _ shortlist queried => toQuery queried shortlist = [] → ∀ c ∈ shortlist, c ∈ asked
  | .querying _ shortlist pool => pool.Done →
    (∀ res, pool.shared.resultChan.find? ValueResult.found = some res →
      ∃ v, verifyAndExtract S (unix verifyAt) res.value = .ok v) ∧
    ((∀ res ∈ pool.shared.resultChan, res.found = false ∧
      accept self pool.shared.queried res.contacts = some []) → ∀ c ∈ shortlist, c ∈ asked)
  | .returned .. => True
  | .crashed => True

section

variable {self key : NodeID} {peers : ValuePeers} {evs : List FindValueEvent} {round : ℕ}
  {shortlist shortlist' : List Contact} {pool : Pool Contact Received} {value : Option Bytes}
  {e : FindValueEvent}

/-- All answers of a round are in: the first one with a value is returned, or there is none, and
without a new contact the search gives up. -/
theorem done_step {phase : FindValuePhase} (hdone : pool.Done)
    (h : FindValueStep self key peers (.querying round shortlist pool) e phase) :
    phase = .crashed ∨
    (∃ res, pool.shared.resultChan.find? ValueResult.found = some res ∧
      phase = .returned (some res.value) shortlist) ∨
    pool.shared.resultChan.find? ValueResult.found = none ∧
      ((∀ res ∈ pool.shared.resultChan, accept self pool.shared.queried res.contacts = some []) →
        phase = .returned none shortlist) := by
  have hreports := outcome_reports self pool.shared
  cases h with
  | work hstep =>
    cases hstep with
    | start hi => cases hdone _ (mem_of_getElem? hi)
    | finish hi => cases hdone _ (mem_of_getElem? hi)
  | race => exact .inl rfl
  | panic => exact .inl rfl
  | find _ hfound =>
    rw [hfound] at hreports
    obtain ⟨res, hres, rfl⟩ := hreports
    exact .inr (.inl ⟨res, hres, rfl⟩)
  | giveUp _ hempty =>
    rw [hempty] at hreports
    exact .inr (.inr ⟨hreports.1, fun _ => rfl⟩)
  | merge _ hnew hne =>
    rw [hnew] at hreports
    obtain ⟨hnone, more, rfl, hmore⟩ := hreports
    exact .inr (.inr ⟨hnone, fun hall => absurd (hmore.mpr hall) hne⟩)

theorem returned_eq {phase : FindValuePhase}
    (h : Run (FindValueStep self key peers) (.returned value shortlist) evs phase) :
    phase = .returned value shortlist := by
  rcases h.first with hsame | ⟨_, _, _, hstep, -⟩
  · exact hsame
  · cases hstep

/-- A search that returns a valid entry was sound all along. -/
theorem sound_of_returned {S : EntrySuite} {verifyAt : ℤ} {data v : Bytes} {phase : FindValuePhase}
    (hextract : verifyAndExtract S (unix verifyAt) data = .ok v)
    (h : Run (FindValueStep self key peers) phase evs (.returned (some data) shortlist))
    (asked : List Contact) : phase.Sound S verifyAt self asked := by
  cases phase with
  | searching round shortlist' queried =>
    intro hnone
    rcases h.first with hsame | ⟨_, _, _, hstep, hmore⟩
    · cases hsame
    · cases hstep with
      | stop => cases returned_eq hmore
      | ask hsome => exact absurd hnone hsome
  | querying round shortlist' pool =>
    intro hdone
    rcases h.first with hsame | ⟨_, _, _, hstep, hmore⟩
    · cases hsame
    · rcases done_step hdone hstep with rfl | ⟨res, hres, rfl⟩ | ⟨hnone, hreturn⟩
      · rcases hmore.first with hsame | ⟨_, _, _, hstep, -⟩
        · cases hsame
        · cases hstep
      · cases returned_eq hmore
        refine ⟨fun res' hres' => ?_, fun hempty => ?_⟩
        · rw [hres] at hres'
          cases hres'
          exact ⟨v, hextract⟩
        · have hfound := (hempty res (mem_of_find?_eq_some hres)).1
          rw [find?_some hres] at hfound
          cases hfound
      · refine ⟨fun res hres => ?_, fun hempty => ?_⟩
        · rw [hnone] at hres
          cases hres
        · rw [hreturn fun res hres => (hempty res hres).2] at hmore
          cases returned_eq hmore
  | returned => exact trivial
  | crashed => exact trivial

/-- The last step of a sound search: it has asked everybody, or returns a valid entry. -/
theorem sound_last {S : EntrySuite} {verifyAt : ℤ} {asked : List Contact} {phase : FindValuePhase}
    (hsound : phase.Sound S verifyAt self asked)
    (h : FindValueStep self key peers phase e (.returned value shortlist)) :
    (value = none ∧ ∀ c ∈ shortlist, c ∈ asked) ∨
      ∃ data v, value = some data ∧ verifyAndExtract S (unix verifyAt) data = .ok v := by
  cases h with
  | stop hnone => exact .inl ⟨rfl, hsound hnone⟩
  | @find _ _ pool _ hdone hfound =>
    have hreports := outcome_reports self pool.shared
    rw [hfound] at hreports
    obtain ⟨res, hres, rfl⟩ := hreports
    obtain ⟨v, hextract⟩ := (hsound hdone).1 res hres
    exact .inr ⟨_, v, rfl, hextract⟩
  | @giveUp _ _ pool hdone hempty =>
    have hreports := outcome_reports self pool.shared
    rw [hempty] at hreports
    obtain ⟨hnone, more, hall, hmore⟩ := hreports
    refine .inl ⟨rfl, (hsound hdone).2 fun res hres => ⟨?_, hmore.mp hall.symm res hres⟩⟩
    exact Bool.eq_false_iff.mpr (find?_eq_none.mp hnone res hres)

end

/-- When a contact of the last shortlist serves a valid entry, `Lookup` returns a value just when
all phases that the search went through were sound. -/
theorem lookup_complete_iff (S : EntrySuite) (s : Storage) (rt : RoutingTable) (key : NodeID)
    (getAt verifyAt : ℤ) (peers : ValuePeers) (hlocal : s.get key getAt = none)
    {evs : List FindValueEvent} {value : Option Bytes} {shortlist : List Contact}
    (h : Run (FindValueStep rt.self key peers) (findValueStart rt key) evs
      (.returned value shortlist))
    (hserves : ∃ c ∈ shortlist, ServesValid S peers key verifyAt c) :
    (∃ v, (lookup S s key getAt verifyAt value).2 = some v) ↔
      ∀ pre post phase, evs = pre ++ post →
        Run (FindValueStep rt.self key peers) (findValueStart rt key) pre phase →
        Run (FindValueStep rt.self key peers) phase post (.returned value shortlist) →
        phase.Sound S verifyAt rt.self (sentTo pre) := by
  simp only [lookup_eq_some_iff, hlocal, Option.none_or]
  constructor
  · rintro ⟨v, data, rfl, hextract⟩ pre post phase - - hpost
    exact sound_of_returned hextract hpost _
  · intro hsound
    obtain ⟨c, hc, hserves⟩ := hserves
    rcases eq_nil_or_concat evs with rfl | ⟨pre, e, rfl⟩
    · have hstart := h.nil_inv
      unfold findValueStart at hstart
      split at hstart
      · cases hstart
      · cases hstart
        cases hc
      · cases hstart
    · rw [concat_eq_append] at h hsound
      obtain ⟨phase, hpre, hlast⟩ := h.snoc_inv
      have hphase := hsound pre [e] phase rfl hpre (Run.nil.snoc hlast)
      rcases sound_last hphase hlast with ⟨rfl, hasked⟩ | ⟨data, v, rfl, hextract⟩
      · -- The contact that serves the entry would have been asked, and would have had no value.
        have hsent : c ∈ sentTo (pre ++ [e]) := by
          rw [sentTo_snoc]
          exact mem_append_left _ (hasked c hc)
        obtain ⟨round, i, hunfound⟩ := findValueInv_run h c hsent
        obtain ⟨res, -, hreply, hfound, -⟩ := hserves round i
        rw [hunfound res hreply] at hfound
        cases hfound
      · exact ⟨v, data, rfl, hextract⟩

/-- Peers of which those with one identifier serve the bytes `[1]`. -/
def serving (id : NodeID) : ValuePeers := fun _ _ c =>
  if c.id = id then .answer ⟨[1], true, []⟩ else .failed

/-- A lookup starts its first round. -/
theorem first_round {rt : RoutingTable} {key : NodeID} (peers : ValuePeers)
    {shortlist asked : List Contact} (hclosest : rt.findClosest key K = some shortlist)
    (hquery : toQuery {rt.self} shortlist = asked) (hne : asked ≠ []) :
    Run (FindValueStep rt.self key peers) (findValueStart rt key) [.asked asked]
      (.querying 0 shortlist (.launch asked ⟨{rt.self}, []⟩)) := by
  subst hquery
  cases shortlist with
  | nil => exact absurd rfl hne
  | cons c rest =>
    rw [findValueStart, hclosest]
    exact Run.nil.snoc (.ask hne)

theorem serving_valid (c : Contact) : ServesValid openSuite (serving c.id) (.zero 20) 0 c := by
  obtain ⟨e, hdecode, hvalid, -⟩ := (verifyAndExtract_ok_iff ..).mp openSuite_extract
  refine fun _ _ => ⟨_, e, if_pos rfl, rfl, hdecode, ?_, hvalid⟩
  cases hdecode
  rfl

/-- The only contact has the value. -/
theorem lookup_complete_served : ∃ v,
    (lookup openSuite .empty (.zero 20) 0 0 (some [1])).2 = some v := by
  have hasked := first_round (serving (nearby 1).id) sampleTable_findClosest sampleTable_toQuery
    (cons_ne_nil _ _)
  have hrun := ((hasked.snoc (.work (.start (i := 0) rfl))).snoc
    (.work (.finish (i := 0) rfl (by rfl)))).snoc (.find (by unfold Pool.Done; decide) rfl)
  refine (lookup_complete_iff openSuite .empty sampleTable (.zero 20) 0 0 (serving (nearby 1).id)
    rfl hrun ⟨nearby 1, mem_cons_self, serving_valid _⟩).mpr ?_
  exact fun _ _ _ _ _ hpost => sound_of_returned openSuite_extract hpost _

/-- The node of `sampleTable` when it knows four contacts. -/
def fourTable : RoutingTable :=
  (((sampleTable.addContact (nearby 2)).1.addContact (nearby 3)).1.addContact (nearby 4)).1

/-- The search gives up before it asks the fourth contact, which has the value. -/
theorem lookup_gives_up : ∃ evs,
    Run (FindValueStep fourTable.self (.zero 20) (serving (nearby 4).id))
      (findValueStart fourTable (.zero 20)) evs
      (.returned none [nearby 1, nearby 2, nearby 3, nearby 4]) ∧
    ServesValid openSuite (serving (nearby 4).id) (.zero 20) 0 (nearby 4) ∧
    Storage.empty.get (.zero 20) 0 = none ∧
    (lookup openSuite .empty (.zero 20) 0 0 none).2 = none := by
  have hclosest : fourTable.findClosest (.zero 20) K =
      some [nearby 1, nearby 2, nearby 3, nearby 4] := by decide +kernel
  have hquery : toQuery {fourTable.self} [nearby 1, nearby 2, nearby 3, nearby 4] =
      [nearby 1, nearby 2, nearby 3] := by decide +kernel
  have hasked := first_round (serving (nearby 4).id) hclosest hquery (cons_ne_nil _ _)
  have hrun := ((((((hasked.snoc (.work (.start (i := 0) rfl))).snoc
    (.work (.finish (i := 0) rfl (by rfl)))).snoc (.work (.start (i := 1) rfl))).snoc
    (.work (.finish (i := 1) rfl (by rfl)))).snoc (.work (.start (i := 2) rfl))).snoc
    (.work (.finish (i := 2) rfl (by rfl)))).snoc (.giveUp (by unfold Pool.Done; decide) rfl)
  exact ⟨_, hrun, serving_valid (nearby 4), rfl, rfl⟩

end Zentalk.Dht
