import Zentalk.Dht.RoutingTable
import Zentalk.Lib.Run
import Zentalk.Lib.Workers
import Mathlib.Data.List.Sort

/-!
# The iterative node lookup

`iterativeFindNode`: rounds in which one goroutine each asks up to `Alpha` contacts.

Results:
1. `findNode_nearest`: the nearest of what was learned are returned.
2. `findNode_distinct_iff`: when their identifiers are distinct.
3. `findNode_progress`, `findNode_step_down`: a run can go on, and gets shorter.
-/

namespace Zentalk.Dht

open Wire Runs Workers Ranking List Contact NodeID

/-! ## Rounds -/

def alpha : ℕ := 3

/-- The contacts to ask next: the first `Alpha` that were not queried yet. -/
def toQuery (queried : Finset NodeID) (shortlist : List Contact) : List Contact :=
  (shortlist.filter fun c => c.id ∉ queried).take alpha

/-- The contacts of an answer that are taken; `none` is the panic on a nil contact. -/
def accept (self : NodeID) (queried : Finset NodeID) : List (Option Contact) → Option (List Contact)
  | [] => some []
  | none :: _ => none
  | some c :: rest =>
    (accept self queried rest).map fun taken =>
      if c.id ∉ queried ∧ c.id ≠ self then c :: taken else taken

/-- `sort.Slice` by the distance to the target, which is not stable. -/
structure SortsTo (target : NodeID) (l l' : List Contact) : Prop where
  perm : l'.Perm l
  sorted : SortedBy (Contact.far target) l'

/-- `if len(shortlist) > k { shortlist = shortlist[:k] }`. -/
def truncate (k : ℕ) (l : List Contact) : List Contact := if k < l.length then l.take k else l

inductive NodeReply
  /-- No answer, or one that does not parse. -/
  | failed
  | contacts (contacts : List (Option Contact))

/-- What the peer asked by a goroutine answers: by round, place in the round, and contact. -/
abbrev NodePeers := ℕ → ℕ → Contact → NodeReply

/-- What the goroutines of a round share. -/
structure Gathered where
  queried : Finset NodeID
  newContacts : List Contact

/-- The goroutine of a contact: it marks the contact before it sends, and takes the answer under the
lock. -/
def findNodeJob (self : NodeID) (peers : ℕ → Contact → NodeReply) : Job Contact Gathered where
  start c shared := { shared with queried := insert c.id shared.queried }
  finish i c shared :=
    match peers i c with
    | .failed => some shared
    | .contacts contacts => (accept self shared.queried contacts).map fun taken =>
      { shared with newContacts := shared.newContacts ++ taken }

inductive FindNodePhase
  /-- At the head of the loop. -/
  | searching (round : ℕ) (shortlist : List Contact) (queried : Finset NodeID)
      (closestSeen : Contact)
  /-- At `wg.Wait()`. -/
  | querying (round : ℕ) (shortlist : List Contact) (closestSeen : Contact)
      (pool : Pool Contact Gathered)
  | returned (shortlist : List Contact)
  | crashed

/-- `iterativeFindNode` before its loop. -/
def findNodeStart (rt : RoutingTable) (target : NodeID) (k : ℤ) : FindNodePhase :=
  match rt.findClosest target k with
  | none => .crashed
  | some [] => .returned []
  | some (c :: rest) => .searching 0 (c :: rest) {rt.self} c

/-- The end of a round, with the sorted shortlist. -/
def concludeRound (target : NodeID) (round : ℕ) (closestSeen : Contact) (queried : Finset NodeID)
    (shortlist : List Contact) : FindNodePhase :=
  match shortlist with
  | [] => .searching (round + 1) [] queried closestSeen
  | c :: rest =>
    if NodeID.closerTo c.id target closestSeen.id then
      .searching (round + 1) (c :: rest) queried c
    else .returned (c :: rest)

inductive FindNodeEvent
  | stopped
  | asked (contacts : List Contact)
  | worked
  | merged (newContacts : List Contact)
  | crashed

/-- One step of the lookup of `target` by the node `self`: it stops when nobody is left to ask,
starts a round, lets a goroutine start or finish, or ends the round. The loop is entered only with
`k` at least one. -/
inductive FindNodeStep (self target : NodeID) (k : ℕ) (peers : NodePeers) :
    FindNodePhase → FindNodeEvent → FindNodePhase → Prop
  | stop {round shortlist queried closestSeen} :
      toQuery queried shortlist = [] →
      FindNodeStep self target k peers (.searching round shortlist queried closestSeen) .stopped
        (.returned shortlist)
  | ask {round shortlist queried closestSeen} :
      toQuery queried shortlist ≠ [] →
      FindNodeStep self target k peers (.searching round shortlist queried closestSeen)
        (.asked (toQuery queried shortlist))
        (.querying round shortlist closestSeen (.launch (toQuery queried shortlist) ⟨queried, []⟩))
  | work {round shortlist closestSeen} {pool pool' : Pool Contact Gathered} :
      (findNodeJob self (peers round)).Step pool pool' →
      FindNodeStep self target k peers (.querying round shortlist closestSeen pool) .worked
        (.querying round shortlist closestSeen pool')
  | crash {round shortlist closestSeen} {pool : Pool Contact Gathered} :
      (findNodeJob self (peers round)).Crashes pool →
      FindNodeStep self target k peers (.querying round shortlist closestSeen pool) .crashed
        .crashed
  | merge {round shortlist sorted closestSeen} {pool : Pool Contact Gathered} :
      pool.Done → SortsTo target (shortlist ++ pool.shared.newContacts) sorted →
      FindNodeStep self target k peers (.querying round shortlist closestSeen pool)
        (.merged pool.shared.newContacts)
        (concludeRound target round closestSeen pool.shared.queried (truncate k sorted))

/-- The contacts of `FindClosest`, and those taken from answers. -/
def learned (initial : List Contact) (evs : List FindNodeEvent) : List Contact :=
  initial ++ evs.flatMap fun
    | .merged newContacts => newContacts
    | _ => []

/-- The result of `FindClosest` that a lookup starts with. -/
def initialContacts (rt : RoutingTable) (target : NodeID) (k : ℤ) : List Contact :=
  (rt.findClosest target k).getD []

theorem truncate_eq (k : ℕ) (l : List Contact) : truncate k l = l.take k := by
  unfold truncate
  split
  · rfl
  · next h => exact (take_of_length_le (Nat.le_of_not_lt h)).symm

theorem exists_sortsTo (target : NodeID) (l : List Contact) : ∃ l', SortsTo target l l' := by
  refine ⟨exchangeSort (fun a b => closerTo a.id target b.id) l, exchangeSort_perm l, ?_⟩
  exact exchangeSort_sorted (fun a b => closerTo_iff a.id target b.id) l

theorem length_toQuery_le (queried : Finset NodeID) (shortlist : List Contact) :
    (toQuery queried shortlist).length ≤ 3 := by
  rw [toQuery, length_take]
  exact Nat.min_le_left _ _

theorem ne_self_of_accept {self : NodeID} {queried : Finset NodeID}
    {contacts : List (Option Contact)} {taken : List Contact}
    (h : accept self queried contacts = some taken) : ∀ c ∈ taken, c.id ≠ self := by
  induction contacts generalizing taken with
  | nil =>
    cases h
    intro c hc
    cases hc
  | cons contact rest ih =>
    cases contact with
    | none => cases h
    | some c =>
      obtain ⟨taken', htaken', rfl⟩ := Option.map_eq_some_iff.mp h
      intro c' hc'
      split at hc'
      · next hc =>
        rcases mem_cons.mp hc' with rfl | hc'
        · exact hc.2
        · exact ih htaken' c' hc'
      · exact ih htaken' c' hc'

theorem ne_self_step {self : NodeID} {peers : ℕ → Contact → NodeReply}
    {pool pool' : Pool Contact Gathered} (h : (findNodeJob self peers).Step pool pool')
    (hself : ∀ c ∈ pool.shared.newContacts, c.id ≠ self) :
    ∀ c ∈ pool'.shared.newContacts, c.id ≠ self := by
  cases h with
  | start hi => exact hself
  | @finish i x shared hi hfinish =>
    simp only [findNodeJob] at hfinish
    split at hfinish
    · cases hfinish
      exact hself
    · obtain ⟨taken, htaken, rfl⟩ := Option.map_eq_some_iff.mp hfinish
      intro c hc
      rcases mem_append.mp hc with hc | hc
      · exact hself c hc
      · exact ne_self_of_accept htaken c hc

theorem learned_snoc (initial : List Contact) (evs : List FindNodeEvent) (e : FindNodeEvent) :
    learned initial (evs ++ [e]) = learned initial evs ++ learned [] [e] := by
  simp [learned]

/-! ## The lookup ends -/

/-- The distance to the target bounds the rounds. -/
def findNodeMeasure (target : NodeID) : FindNodePhase → ℕ
  | .searching _ shortlist _ closestSeen =>
    if shortlist = [] then 1 else 10 * (closestSeen.far target + 1)
  | .querying _ _ closestSeen pool => 10 * closestSeen.far target + 2 + pool.remaining
  | .returned _ => 0
  | .crashed => 0

variable {target : NodeID} {peers : NodePeers} {phase : FindNodePhase} {e : FindNodeEvent}
  {evs : List FindNodeEvent}

variable {phase' : FindNodePhase}

theorem findNode_step_down {self : NodeID} {k : ℕ}
    (h : FindNodeStep self target k peers phase e phase') :
    findNodeMeasure target phase' < findNodeMeasure target phase := by
  cases h with
  | stop hnone =>
    simp only [findNodeMeasure]
    split <;> omega
  | @ask round shortlist queried closestSeen hsome =>
    -- The goroutines of a round take six steps at most, fewer than a closer contact is worth.
    have hlen := length_toQuery_le queried shortlist
    have hne : shortlist ≠ [] := by
      rintro rfl
      exact hsome rfl
    simp only [findNodeMeasure, Pool.remaining_launch, if_neg hne]
    omega
  | work hstep =>
    have hlt := hstep.remaining_lt
    simp only [findNodeMeasure]
    omega
  | crash hcrash =>
    simp only [findNodeMeasure]
    omega
  | @merge round shortlist sorted closestSeen pool hdone hsorts =>
    unfold concludeRound
    split
    · simp only [findNodeMeasure, if_true]
      omega
    · next c rest hcut =>
      split
      · next hcloser =>
        have hlt := (closerTo_iff _ _ _).mp hcloser
        simp only [findNodeMeasure, far, if_neg (cons_ne_nil c rest)]
        omega
      · simp only [findNodeMeasure]
        omega

def FindNodePhase.Final : FindNodePhase → Prop
  | .searching .. => False
  | .querying .. => False
  | .returned _ => True
  | .crashed => True

/-- Until it returns a lookup can go on. -/
theorem findNode_progress (self target : NodeID) (k : ℕ) (peers : NodePeers) (h : ¬ phase.Final) :
    ∃ e phase', FindNodeStep self target k peers phase e phase' := by
  cases phase with
  | searching round shortlist queried closestSeen =>
    by_cases hnone : toQuery queried shortlist = []
    · exact ⟨_, _, .stop hnone⟩
    · exact ⟨_, _, .ask hnone⟩
  | querying round shortlist closestSeen pool =>
    by_cases hdone : pool.Done
    · obtain ⟨sorted, hsorts⟩ := exists_sortsTo target (shortlist ++ pool.shared.newContacts)
      exact ⟨_, _, .merge hdone hsorts⟩
    · rcases Pool.exists_step (findNodeJob self (peers round)) hdone with ⟨pool', hstep⟩ | hcrash
      · exact ⟨_, _, .work hstep⟩
      · exact ⟨_, _, .crash hcrash⟩
  | returned shortlist => exact absurd trivial h
  | crashed => exact absurd trivial h

/-! ## What is returned -/

/-- The shortlist holds the nearest of what was learned, and neither it nor what was taken in the
round holds the node itself. It is not empty as long as the lookup goes on. -/
def FindNodeInv (self target : NodeID) (k : ℕ) (initial : List Contact) (evs : List FindNodeEvent) :
    FindNodePhase → Prop
  | .searching _ shortlist _ _ => Nearest (Contact.far target) k (learned initial evs) shortlist ∧
    (∀ c ∈ shortlist, c.id ≠ self) ∧ shortlist ≠ []
  | .querying _ shortlist _ pool =>
    Nearest (Contact.far target) k (learned initial evs) shortlist ∧
    (∀ c ∈ shortlist, c.id ≠ self) ∧ shortlist ≠ [] ∧ ∀ c ∈ pool.shared.newContacts, c.id ≠ self
  | .returned shortlist => Nearest (Contact.far target) k (learned initial evs) shortlist ∧
    ∀ c ∈ shortlist, c.id ≠ self
  | .crashed => True

theorem findNodeInv_start (rt : RoutingTable) (target : NodeID) (k : ℤ) :
    FindNodeInv rt.self target k.toNat (initialContacts rt target k) []
      (findNodeStart rt target k) := by
  have hinitial : learned (initialContacts rt target k) [] = initialContacts rt target k := by
    simp [learned]
  unfold findNodeStart
  cases h : rt.findClosest target k with
  | none => exact trivial
  | some l =>
    obtain ⟨hsorted, hlen, hmem, -⟩ := RoutingTable.findClosest_spec h
    have hnear : Nearest (far target) k.toNat
        (learned (initialContacts rt target k) []) l := by
      rw [hinitial, initialContacts, h]
      exact .refl hsorted hlen
    have hself : ∀ c ∈ l, c.id ≠ rt.self := fun c hc => RoutingTable.ne_self_of_mem (hmem c hc)
    cases l with
    | nil => exact ⟨hnear, hself⟩
    | cons c rest => exact ⟨hnear, hself, cons_ne_nil c rest⟩

theorem findNodeInv_step {self : NodeID} {k : ℕ} {initial : List Contact}
    (hinv : FindNodeInv self target k initial evs phase)
    (h : FindNodeStep self target k peers phase e phase') :
    FindNodeInv self target k initial (evs ++ [e]) phase' := by
  have hquiet (he : learned [] [e] = []) : learned initial (evs ++ [e]) = learned initial evs := by
    rw [learned_snoc, he, append_nil]
  cases h with
  | stop hnone =>
    obtain ⟨hnear, hself, -⟩ := hinv
    exact ⟨by rwa [hquiet rfl], hself⟩
  | ask hsome =>
    obtain ⟨hnear, hself, hne⟩ := hinv
    exact ⟨by rwa [hquiet rfl], hself, hne, nofun⟩
  | work hstep =>
    obtain ⟨hnear, hself, hne, hnew⟩ := hinv
    exact ⟨by rwa [hquiet rfl], hself, hne, ne_self_step hstep hnew⟩
  | crash hcrash => exact trivial
  | @merge round shortlist sorted closestSeen pool hdone hsorts =>
    obtain ⟨hnear, hself, hne, hnew⟩ := hinv
    have hlearned : learned [] [FindNodeEvent.merged pool.shared.newContacts] =
        pool.shared.newContacts := by simp [learned]
    have hmerged : Nearest (far target) k
        (learned initial (evs ++ [.merged pool.shared.newContacts])) (truncate k sorted) := by
      rw [learned_snoc, hlearned, truncate_eq]
      exact hnear.merge hsorts.sorted hsorts.perm
    have hself' : ∀ c ∈ truncate k sorted, c.id ≠ self := by
      intro c hc
      rw [truncate_eq] at hc
      rcases mem_append.mp (hsorts.perm.subset (mem_of_mem_take hc)) with hc | hc
      · exact hself c hc
      · exact hnew c hc
    -- The cut keeps a contact: the shortlist before had one, and no more than `k`.
    have hne' : truncate k sorted ≠ [] := by
      have hpos : 0 < shortlist.length := length_pos_iff.mpr hne
      have hk := hnear.length_le
      have hlen := hsorts.perm.length_eq
      rw [length_append] at hlen
      rw [truncate_eq, ← length_pos_iff, length_take]
      omega
    unfold concludeRound
    split
    · next hcut => exact absurd hcut hne'
    · next c rest hcut =>
      rw [hcut] at hmerged hself'
      split
      · exact ⟨hmerged, hself', cons_ne_nil c rest⟩
      · exact ⟨hmerged, hself'⟩

theorem findNodeInv_run {rt : RoutingTable} {k : ℤ}
    (h : Run (FindNodeStep rt.self target k.toNat peers) (findNodeStart rt target k) evs phase) :
    FindNodeInv rt.self target k.toNat (initialContacts rt target k) evs phase :=
  Run.trace_invariant (findNodeInv_start rt target k)
    (fun _ _ _ _ hinv hstep => findNodeInv_step hinv hstep) h

/-- A round that goes on has brought a closer contact. -/
theorem findNode_closer {rt : RoutingTable} {k : ℤ} {round round' : ℕ}
    {shortlist shortlist' : List Contact} {closestSeen closestSeen' : Contact}
    {pool : Pool Contact Gathered} {queried : Finset NodeID}
    (h : Run (FindNodeStep rt.self target k.toNat peers) (findNodeStart rt target k) evs
      (.querying round shortlist closestSeen pool))
    (hstep : FindNodeStep rt.self target k.toNat peers
      (.querying round shortlist closestSeen pool) e
      (.searching round' shortlist' queried closestSeen')) :
    closestSeen'.far target < closestSeen.far target := by
  have hne : shortlist' ≠ [] := (findNodeInv_run (h.snoc hstep)).2.2
  generalize hphase : FindNodePhase.searching round' shortlist' queried closestSeen' = phase'
    at hstep
  cases hstep with
  | work => cases hphase
  | crash => cases hphase
  | merge hdone hsorts =>
    unfold concludeRound at hphase
    split at hphase
    · cases hphase
      exact absurd rfl hne
    · split at hphase
      · next hcloser =>
        cases hphase
        exact (closerTo_iff _ _ _).mp hcloser
      · cases hphase

/-- `iterativeFindNode` returns at most `k` contacts, not the node itself, nearest first, and no
contact that it learned and left out is closer. -/
theorem findNode_nearest (rt : RoutingTable) (target : NodeID) (k : ℤ) (hk : 1 ≤ k)
    (peers : NodePeers) {evs : List FindNodeEvent} {result : List Contact}
    (h : Run (FindNodeStep rt.self target k.toNat peers) (findNodeStart rt target k) evs
      (.returned result)) :
    (result.length : ℤ) ≤ k ∧ (∀ c ∈ result, c.id ≠ rt.self) ∧
      SortedBy (Contact.far target) result ∧
      ∀ c ∈ learned (initialContacts rt target k) evs, c.id ∉ result.map Contact.id →
        ∀ a ∈ result, a.far target ≤ c.far target := by
  obtain ⟨hnear, hself⟩ := findNodeInv_run h
  refine ⟨?_, hself, hnear.sorted, fun c hc hnot => ?_⟩
  · have hlen := hnear.length_le
    omega
  · refine hnear.le_of_not_mem hc fun hmem => hnot ?_
    exact mem_map_of_mem hmem

theorem count_far (target id : NodeID) (l : List Contact) :
    (l.map (Contact.far target)).count (NodeID.distance id target) =
      (l.map Contact.id).count id := by
  have hinj : Function.Injective fun id => distance id target := fun _ _ =>
    distance_inj
  rw [← count_map_of_injective (l.map Contact.id) _ hinj, map_map]
  rfl

theorem nodup_far_iff (target : NodeID) (l : List Contact) :
    (l.map (Contact.far target)).Nodup ↔ (l.map Contact.id).Nodup := by
  have hinj : Function.Injective fun id => distance id target := fun _ _ =>
    distance_inj
  rw [← nodup_map_iff hinj, map_map]
  rfl

/-- The identifiers returned are distinct, and as many as there can be, just when each one learned
twice has `k - 1` closer contacts before it. -/
theorem findNode_distinct_iff (rt : RoutingTable) (target : NodeID) (k : ℤ) (peers : NodePeers)
    {evs : List FindNodeEvent} {result : List Contact}
    (h : Run (FindNodeStep rt.self target k.toNat peers) (findNodeStart rt target k) evs
      (.returned result)) :
    ((result.map Contact.id).Nodup ∧ result.length =
        min k.toNat ((learned (initialContacts rt target k) evs).map Contact.id).toFinset.card) ↔
      ∀ id, 2 ≤ ((learned (initialContacts rt target k) evs).map Contact.id).count id →
        k.toNat ≤ (learned (initialContacts rt target k) evs).countP
          (fun c => c.far target < NodeID.distance id target) + 1 := by
  obtain ⟨hnear, -⟩ := findNodeInv_run h
  -- The distance to the target tells identifiers apart, so both are counted alike.
  have hnodup := hnear.nodup_iff
  rw [nodup_far_iff] at hnodup
  constructor
  · rintro ⟨hdistinct, -⟩ id hcount
    rw [← count_far target] at hcount
    exact hnodup.mp hdistinct _ hcount
  · intro hrare
    have hdistinct : (result.map Contact.id).Nodup := by
      refine hnodup.mpr fun x hcount => ?_
      have hmem : x ∈ (learned (initialContacts rt target k) evs).map (far target) :=
        count_pos_iff.mp (by omega)
      obtain ⟨c, -, rfl⟩ := mem_map.mp hmem
      refine hrare c.id ?_
      rw [← count_far target]
      exact hcount
    exact ⟨hdistinct, hnear.length_eq_of_nodup Contact.id hdistinct⟩

/-! ## A node that knows one contact -/

/-- The contact at distance `i` of the zero identifier. -/
def nearby (i : UInt8) : Contact := ⟨⟨List.replicate 19 0 ++ [i], by simp⟩, []⟩

def sampleTable : RoutingTable :=
  ((RoutingTable.new (ByteArr.ofSlice 20 [0x80])).addContact (nearby 1)).1

theorem sampleTable_findClosest : sampleTable.findClosest (.zero 20) 20 = some [nearby 1] := by
  decide +kernel

theorem sampleTable_toQuery : toQuery {sampleTable.self} [nearby 1] = [nearby 1] := by
  decide +kernel

/-- The lookup of the zero identifier, when `newContacts` are taken, none of them closer. -/
theorem sample_run {peers : NodePeers} {newContacts sorted : List Contact}
    (hreply : (findNodeJob sampleTable.self (peers 0)).finish 0 (nearby 1)
      ⟨insert (nearby 1).id {sampleTable.self}, []⟩ =
        some ⟨insert (nearby 1).id {sampleTable.self}, newContacts⟩)
    (hsorts : SortsTo (.zero 20) ([nearby 1] ++ newContacts) (nearby 1 :: sorted))
    (hlen : (nearby 1 :: sorted).length ≤ 20) :
    Run (FindNodeStep sampleTable.self (.zero 20) (20 : ℤ).toNat peers)
      (findNodeStart sampleTable (.zero 20) 20)
      [.asked [nearby 1], .worked, .worked, .merged newContacts]
      (.returned (nearby 1 :: sorted)) := by
  have hcut : truncate (20 : ℤ).toNat (nearby 1 :: sorted) = nearby 1 :: sorted :=
    if_neg (Nat.not_lt.mpr hlen)
  have hstart : findNodeStart sampleTable (.zero 20) 20 =
      .searching 0 [nearby 1] {sampleTable.self} (nearby 1) := by
    rw [findNodeStart, sampleTable_findClosest]
  have hask : FindNodeStep sampleTable.self (.zero 20) (20 : ℤ).toNat peers
      (.searching 0 [nearby 1] {sampleTable.self} (nearby 1)) (.asked [nearby 1])
      (.querying 0 [nearby 1] (nearby 1) (.launch [nearby 1] ⟨{sampleTable.self}, []⟩)) := by
    exact .ask (by rw [sampleTable_toQuery]; nofun)
  have hmerge : FindNodeStep sampleTable.self (.zero 20) (20 : ℤ).toNat peers
      (.querying 0 [nearby 1] (nearby 1)
        ⟨[(nearby 1, .finished)], ⟨insert (nearby 1).id {sampleTable.self}, newContacts⟩⟩)
      (.merged newContacts) (.returned (nearby 1 :: sorted)) := by
    have hend : concludeRound (.zero 20) 0 (nearby 1) (insert (nearby 1).id {sampleTable.self})
        (truncate (20 : ℤ).toNat (nearby 1 :: sorted)) = .returned (nearby 1 :: sorted) := by
      rw [hcut]
      rfl
    rw [← hend]
    exact .merge (by simp [Pool.Done]) hsorts
  exact (((Run.nil.snoc hask).snoc (.work (.start (i := 0) rfl))).snoc
    (.work (.finish rfl hreply))).snoc hmerge

/-- The contact answers with two others, the farther one first. -/
theorem sample_run_farther : Run (FindNodeStep sampleTable.self (.zero 20) (20 : ℤ).toNat
      fun _ _ _ => .contacts [some (nearby 3), some (nearby 2)])
    (findNodeStart sampleTable (.zero 20) 20)
    [.asked [nearby 1], .worked, .worked, .merged [nearby 3, nearby 2]]
    (.returned [nearby 1, nearby 2, nearby 3]) := by
  have hsorted : SortedBy (far (.zero 20)) [nearby 1, nearby 2, nearby 3] := by
    show Pairwise _ _
    decide +kernel
  exact sample_run rfl ⟨.cons _ (.swap _ _ _), hsorted⟩ (by decide)

theorem findNode_nearest_answered :
    SortedBy (Contact.far (.zero 20)) [nearby 1, nearby 2, nearby 3] ∧
    ∀ c ∈ learned (initialContacts sampleTable (.zero 20) 20)
        [.asked [nearby 1], .worked, .worked, .merged [nearby 3, nearby 2]],
      c.id ∉ [nearby 1, nearby 2, nearby 3].map Contact.id →
      ∀ a ∈ [nearby 1, nearby 2, nearby 3], a.far (.zero 20) ≤ c.far (.zero 20) :=
  (findNode_nearest sampleTable (.zero 20) 20 (by norm_num) _ sample_run_farther).2.2

theorem findNode_distinct_answered : ([nearby 1, nearby 2, nearby 3].map Contact.id).Nodup ∧
    [nearby 1, nearby 2, nearby 3].length =
      min (20 : ℤ).toNat ((learned (initialContacts sampleTable (.zero 20) 20)
        [.asked [nearby 1], .worked, .worked, .merged [nearby 3, nearby 2]]).map
          Contact.id).toFinset.card := by
  refine (findNode_distinct_iff sampleTable (.zero 20) 20 _ sample_run_farther).mpr
    fun id hcount => ?_
  have hnodup : ([nearby 1, nearby 3, nearby 2].map Contact.id).Nodup := by decide +kernel
  exact absurd (hcount.trans (nodup_iff_count_le_one.mp hnodup id)) (by decide)

/-- An answer lists one contact twice, and the lookup returns it twice. -/
theorem findNode_repeats : ∃ (peers : NodePeers) (evs : List FindNodeEvent),
    Run (FindNodeStep sampleTable.self (.zero 20) (20 : ℤ).toNat peers)
      (findNodeStart sampleTable (.zero 20) 20) evs (.returned [nearby 1, nearby 2, nearby 2]) ∧
    ¬ ([nearby 1, nearby 2, nearby 2].map Contact.id).Nodup := by
  have hsorted : SortedBy (far (.zero 20)) [nearby 1, nearby 2, nearby 2] := by
    show Pairwise _ _
    decide +kernel
  exact ⟨fun _ _ _ => .contacts [some (nearby 2), some (nearby 2)], _,
    sample_run rfl ⟨.refl _, hsorted⟩ (by decide), by decide +kernel⟩

end Zentalk.Dht
