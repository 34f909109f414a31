import Zentalk.Lib.Registry
import Zentalk.Relay.Server

/-!
# The table of peers

`peers_right_iff`: when it has the latest open connection of every address.
-/

namespace Zentalk

open Wire Runs Registry Function ByteArr Relay

variable {ι : Type*} {attached : Bool}

/-! ## The table and what it should be -/

/-- The connection that a step enters in the table, and the address. -/
def RelayEvent.registration? : RelayEvent ι → Option (ι × Address)
  | registered c address _ => some (c, address)
  | dialed g relayAddr => some (g, relayAddr)
  | _ => none

/-- The registrations of a run, newest first. -/
def registrations (evs : List (RelayEvent ι)) : List (ι × Address) :=
  (evs.filterMap RelayEvent.registration?).reverse

/-- The goroutine serves a connection that it has not ended, or is about to. -/
def Task.isOpen : Task ι → Bool
  | serving _ .ended => false
  | serving _ _ => true
  | dialed => true
  | _ => false

def Relay.live (s : Relay ι) : ι → Bool := fun c => (s.tasks c).isOpen

section

variable [DecidableEq ι]

/-- The table has an address if and only if some open connection registered there last, and then the
most recent one. -/
def PeersRight (evs : List (RelayEvent ι)) (s : Relay ι) : Prop :=
  ∀ address, s.entry address = holder (registrations evs) s.live address

def KeepsPeers (evs : List (RelayEvent ι)) (s : Relay ι) : RelayEvent ι → Prop
  -- the connection does not leave an entry at another address
  | .registered c address _ => ∀ old, latest (registrations evs) c = some old → old ≠ address →
      s.entry old ≠ some c
  | .removed c =>
    match s.tasks c with
    | .serving peerAddr _ =>
      -- nothing is deleted, or the entry that is deleted has no other connection
      if peerAddr = zero 20 then
        ∀ old, latest (registrations evs) c = some old → s.entry old ≠ some c
      else ∀ c', c' ≠ c → s.live c' = true → latest (registrations evs) c' ≠ some peerAddr
    | _ => True
  | _ => True

end

/-! ## The variable peerAddr -/

/-- The address that a handshake in progress has registered. -/
def Handler.registering? : Handler ι → Option Address
  | ackHeader address _ => some address
  | ackPayload address _ _ => some address
  | acked address _ => some address
  | _ => none

def Handler.Knows (peerAddr : Address) (h : Handler ι) (last : Option Address) : Prop :=
  match h.registering? with
  | some address => last = some address
  | none => peerAddr ≠ zero 20 → last = some peerAddr

def Task.Knows : Task ι → Option Address → Prop
  | absent, last => last = none
  | dialing _, last => last = none
  | serving peerAddr handler, last => handler.Knows peerAddr last
  | _, _ => True

section

theorem registrations_snoc (evs : List (RelayEvent ι)) (e : RelayEvent ι) :
    registrations (evs ++ [e]) = e.registration?.toList ++ registrations evs := by
  cases h : e.registration? <;> simp [registrations, h]

variable {e : RelayEvent ι} {peers : Address → Option (Peer ι)} {h h' : Handler ι}

theorem registrations_snoc_none (h : e.registration? = none) (evs : List (RelayEvent ι)) :
    registrations (evs ++ [e]) = registrations evs := by
  rw [registrations_snoc, h]
  rfl

theorem handler_registration {c : ι} (hs : Handler.Step attached peers c h e h') :
    e.registration? = none := by
  cases hs <;> rfl

theorem found_isOpen (attached : Bool) {address : Address} (hlookup : h.lookup? = some address)
    (peer? : Option (Peer ι)) (peerAddr : Address) :
    h.registering? = none ∧ (h.found attached peer?).registering? = none ∧
      (Task.serving peerAddr h).isOpen = true ∧
      (Task.serving peerAddr (h.found attached peer?)).isOpen = true := by
  cases h with
  | checkHop fwd =>
    cases peer? with
    | none => exact ⟨rfl, rfl, rfl, rfl⟩
    | some peer =>
      unfold Handler.found
      dsimp only
      split <;> exact ⟨rfl, rfl, rfl, rfl⟩
  | forward fwd => cases peer? <;> exact ⟨rfl, rfl, rfl, rfl⟩
  | deliver fwd connected =>
    cases peer? with
    | none => cases attached <;> cases connected <;> exact ⟨rfl, rfl, rfl, rfl⟩
    | some peer => exact ⟨rfl, rfl, rfl, rfl⟩
  | _ => cases hlookup

theorem afterDelivery_isOpen (fwd : Forwarded) (connected : Bool) (peerAddr : Address) :
    (Handler.afterDelivery fwd connected : Handler ι).registering? = none ∧
      (Task.serving peerAddr (.afterDelivery fwd connected : Handler ι)).isOpen = true := by
  cases connected <;> exact ⟨rfl, rfl⟩

theorem handler_isOpen {c : ι} (hs : Handler.Step attached peers c h e h') (peerAddr : Address) :
    h'.registering? = h.registering? ∧ (Task.serving peerAddr h).isOpen = true ∧
      (Task.serving peerAddr h').isOpen = true := by
  cases hs with
  | looked _ address peer? hlookup =>
    obtain ⟨hbefore, hafter, hopen⟩ := found_isOpen attached hlookup peer? peerAddr
    exact ⟨hafter.trans hbefore.symm, hopen⟩
  | headerFailed fwd connected =>
    obtain ⟨hnone, hopen⟩ := afterDelivery_isOpen fwd connected peerAddr
    exact ⟨hnone, rfl, hopen⟩
  | payload fwd connected =>
    obtain ⟨hnone, hopen⟩ := afterDelivery_isOpen (ι := ι) fwd connected peerAddr
    exact ⟨hnone, rfl, hopen⟩
  | payloadFailed fwd connected =>
    obtain ⟨hnone, hopen⟩ := afterDelivery_isOpen (ι := ι) fwd connected peerAddr
    exact ⟨hnone, rfl, hopen⟩
  | queueFailed fwd connected =>
    obtain ⟨hnone, hopen⟩ := afterDelivery_isOpen (ι := ι) fwd connected peerAddr
    exact ⟨hnone, rfl, hopen⟩
  | _ => exact ⟨rfl, rfl, rfl⟩

theorem knows_congr (heq : h'.registering? = h.registering?) {peerAddr : Address}
    {last : Option Address} (hknows : h.Knows peerAddr last) : h'.Knows peerAddr last := by
  rw [Handler.Knows, heq]
  exact hknows

variable [DecidableEq ι]

theorem latest_snoc_of_ne {evs : List (RelayEvent ι)} {c : ι} (hg : e.goroutine? ≠ some c) :
    latest (registrations (evs ++ [e])) c = latest (registrations evs) c := by
  rw [registrations_snoc]
  cases e with
  | registered | dialed =>
    refine latest_cons_of_ne _ _ ?_
    rintro rfl
    exact hg rfl
  | _ => rfl

end

variable [DecidableEq ι] {evs : List (RelayEvent ι)}

theorem known_run {queue : Queue} {now : ℤ} {s : Relay ι}
    (hrun : Run (Step attached) (init queue now) evs s) (c : ι) :
    (s.tasks c).Knows (latest (registrations evs) c) := by
  revert c
  refine Run.trace_invariant
    (I := fun evs s => ∀ c, (s.tasks c).Knows (latest (registrations evs) c)) (fun c => rfl) ?_ hrun
  intro evs e s s' hknown hstep c
  have hc := hknown c
  rcases hstep.moves c with ⟨hsame, hg⟩ | ⟨c', a, -, -, hstart⟩ | ⟨-, hmove⟩
  · rw [hsame, latest_snoc_of_ne hg]
    exact hc
  · rw [hstart]
    trivial
  · rw [registrations_snoc]
    generalize s.tasks c = task at hmove hc
    generalize s'.tasks c = task' at hmove ⊢
    cases hmove with
    | handler p h h' e hs =>
      rw [handler_registration hs]
      exact knows_congr (handler_isOpen hs p).1 hc
    | queued p fwd connected =>
      exact knows_congr (h := .enqueue fwd connected) (afterDelivery_isOpen fwd connected p).1 hc
    | registered => exact latest_cons_self ..
    | returned | spawned => exact fun _ => hc
    | removed | dialing => exact hc
    | accepted | handshakeFailed | started => exact fun h => absurd rfl h
    | closed | dialFailed | dialed | fetchFailed => trivial
    | drain a x x' => cases x' <;> trivial
    | fetched => split <;> trivial
    | deleted a conn msg rest => cases rest <;> trivial

/-! ## The table -/

section

theorem live_set (s : Relay ι) (g c : ι) (task : Task ι) :
    (s.set g task).live c = if c = g then task.isOpen else s.live c := by
  simp only [live, Relay.set, update_apply]
  split <;> rfl

variable {evs : List (RelayEvent ι)} {s : Relay ι} {e : RelayEvent ι}

theorem peersRight_congr {s' : Relay ι} (hright : PeersRight evs s) (hnone : e.registration? = none)
    (hpeers : s'.peers = s.peers)
    (hlive : ∀ c, latest (registrations evs) c ≠ none → s'.live c = s.live c) :
    PeersRight (evs ++ [e]) s' := by
  intro address
  rw [registrations_snoc_none hnone, entry, hpeers, holder_congr hlive]
  exact hright address

/-- A step that neither registers nor removes a connection closes and opens none but a new one. -/
theorem live_step {s' : Relay ι} (hstep : Step attached s e s')
    (hnone : e.registration? = none) (hremoved : ∀ c, e ≠ .removed c) {c : ι}
    (hc : s.tasks c ≠ .absent) : s'.live c = s.live c := by
  unfold live
  rcases hstep.moves c with ⟨hsame, -⟩ | ⟨_, _, -, habsent, -⟩ | ⟨-, hmove⟩
  · rw [hsame]
  · exact absurd habsent hc
  · generalize s.tasks c = task at hmove hc ⊢
    generalize s'.tasks c = task' at hmove ⊢
    cases hmove with
    | handler p h h' e hs => rw [(handler_isOpen hs p).2.1, (handler_isOpen hs p).2.2]
    | queued p fwd connected => exact (afterDelivery_isOpen fwd connected p).2
    | accepted => exact absurd rfl hc
    | registered | dialed => cases hnone
    | removed => exact absurd rfl (hremoved c)
    | drain a x x' => cases x' <;> rfl
    | fetched => split <;> rfl
    | deleted a conn msg rest => cases rest <;> rfl
    | _ => rfl

theorem peersRight_registered (hright : PeersRight evs s) (c : ι) (address : Address)
    (clientType : UInt8) {task : Task ι} (hopen : task.isOpen = true) :
    (∀ a, Option.map Peer.conn (update s.peers address (some ⟨c, clientType⟩) a) =
      holder ((c, address) :: registrations evs) (s.set c task).live a) ↔
    ∀ old, latest (registrations evs) c = some old → old ≠ address → s.entry old ≠ some c := by
  have hlive : (s.set c task).live c = true := by
    rw [live_set, if_pos rfl, hopen]
  -- elsewhere the connection no longer counts, whatever it was before
  have hold {old : Address} (hne : old ≠ address) :
      holder ((c, address) :: registrations evs) (s.set c task).live old =
        holder (registrations evs) (without s.live c) old := by
    rw [holder_cons_of_ne _ _ _ hne]
    refine holder_congr (fun x _ => ?_) old
    unfold without
    rw [live_set]
    by_cases hx : x = c <;> simp [hx]
  constructor
  · intro h old _ hne hentry
    have hat := h old
    rw [update_of_ne hne, hold hne] at hat
    rw [← entry, hright old] at hat
    exact holder_without_eq_iff.mp hat ((hright old).symm.trans hentry)
  · intro h old
    by_cases hne : old = address
    · rw [hne, update_self, holder_cons_self _ _ hlive]
      rfl
    · rw [update_of_ne hne, hold hne, ← entry, hright old]
      refine holder_without_eq_iff.mpr fun hc => ?_
      exact h old (of_holder_eq_some hc).2 hne ((hright old).trans hc)

theorem peersRight_removed (hright : PeersRight evs s) {c : ι} {peerAddr : Address}
    (htask : s.tasks c = .serving peerAddr .idle)
    (hknown : peerAddr ≠ zero 20 → latest (registrations evs) c = some peerAddr) :
    (∀ a, (s.removePeer peerAddr).entry a =
      holder (registrations evs) (without s.live c) a) ↔ KeepsPeers evs s (.removed c) := by
  simp only [KeepsPeers, htask]
  split
  · next hzero =>
    constructor
    · intro h old _ hentry
      have hat := h old
      rw [entry_removePeer, if_neg (by simp [hzero]), hright old] at hat
      exact holder_without_eq_iff.mp hat ((hright old).symm.trans hentry)
    · intro h old
      rw [entry_removePeer, if_neg (by simp [hzero]), hright old]
      refine holder_without_eq_iff.mpr fun hc => ?_
      exact h old (of_holder_eq_some hc).2 ((hright old).trans hc)
  · next hzero =>
    have hnone : (∀ c', c' ≠ c → s.live c' = true → latest (registrations evs) c' ≠ some peerAddr) ↔
        holder (registrations evs) (without s.live c) peerAddr = none := by
      rw [holder_eq_none_iff]
      refine forall_congr' fun c' => ?_
      by_cases hc' : c' = c <;> simp [without, hc']
    rw [hnone]
    constructor
    · intro h
      have hat := h peerAddr
      rw [entry_removePeer, if_pos ⟨hzero, rfl⟩] at hat
      exact hat.symm
    · intro h address
      rw [entry_removePeer]
      split
      · next heq => rw [heq.2, h]
      · next hne =>
        rw [hright address]
        refine holder_without_eq_iff.mpr fun hc => hne ⟨hzero, ?_⟩
        exact Option.some.inj ((of_holder_eq_some hc).2.symm.trans (hknown hzero))

end

theorem live_removed {s : Relay ι} {c : ι} {peerAddr : Address} :
    ((s.removePeer peerAddr).set c (.serving peerAddr .ended)).live = without s.live c := by
  have hremove : (s.removePeer peerAddr).live = s.live := by
    unfold removePeer
    split <;> rfl
  funext x
  rw [live_set, hremove]
  by_cases hx : x = c <;> simp [without, hx, Task.isOpen]

theorem peersRight_step {queue : Queue} {now : ℤ} {e : RelayEvent ι} {s s' : Relay ι}
    (hrun : Run (Step attached) (init queue now) evs s) (hright : PeersRight evs s)
    (hstep : Step attached s e s') : PeersRight (evs ++ [e]) s' ↔ KeepsPeers evs s e := by
  have hknown := known_run hrun
  have hquiet (hnone : e.registration? = none) (hremoved : ∀ c, e ≠ .removed c)
      (hpeers : s'.peers = s.peers) : PeersRight (evs ++ [e]) s' := by
    refine peersRight_congr hright hnone hpeers fun c hc =>
      live_step hstep hnone hremoved fun habsent => hc ?_
    have hlast := hknown c
    rwa [habsent] at hlast
  cases hstep with
  | handler _ _ _ _ _ _ hs =>
    refine iff_of_true (hquiet (handler_registration hs) (by rintro _ rfl; cases hs) rfl) ?_
    cases hs <;> trivial
  | drain _ _ _ _ _ _ hs =>
    refine iff_of_true (hquiet (by cases hs <;> rfl) (by rintro _ rfl; cases hs) rfl) ?_
    cases hs <;> trivial
  | registered c peerAddr address clientType htask =>
    have hopen :
        (Task.serving peerAddr (.ackHeader address clientType : Handler ι)).isOpen = true := rfl
    refine Iff.trans (forall_congr' fun a => ?_)
      (peersRight_registered hright c address clientType hopen)
    rw [registrations_snoc]
    exact Iff.rfl
  | dialed g relayAddr htask =>
    have hg := hknown g
    rw [htask] at hg
    have hopen : (Task.dialed : Task ι).isOpen = true := rfl
    refine iff_of_true ?_ trivial
    intro a
    rw [registrations_snoc]
    refine (peersRight_registered hright g relayAddr clientTypeRelay hopen).mpr
      (fun old hold => ?_) a
    rw [show latest (registrations evs) g = none from hg] at hold
    cases hold
  | removed c peerAddr htask =>
    have hc := hknown c
    rw [htask] at hc
    refine Iff.trans (forall_congr' fun a => ?_) (peersRight_removed hright htask hc)
    rw [registrations_snoc_none rfl, live_removed]
    exact Iff.rfl
  | _ => exact iff_of_true (hquiet rfl (by rintro _ ⟨⟩) rfl) trivial

/-- The table of peers is right all along a run exactly if a connection that registers at another
address has no entry left at the old one, and one that ends is the only open one that registered
last at the removed address, or removes nothing and has no entry. -/
theorem peers_right_iff {queue : Queue} {now : ℤ} {evs : List (RelayEvent ι)} {s : Relay ι}
    (hrun : Run (Step attached) (init queue now) evs s) :
    (∀ pre post s', evs = pre ++ post → Run (Step attached) (init queue now) pre s' →
      PeersRight pre s') ↔
    Guarded (Step attached) (init queue now) KeepsPeers evs :=
  Run.trace_always_iff_guarded (fun _ _ _ _ h₁ h₂ => h₁.unique h₂) (fun _ => rfl)
    (fun _ _ _ _ hr hi hs => peersRight_step hr hi hs) hrun

/-! ## A client that connects again -/

def connectEvents (c : Bool) : List (RelayEvent Bool) :=
  [.accepted c] ++ ackEvents c samplePeer clientTypeUser sampleAckPayload (zero 16) ++
    [.returned c]

def connected (s : Relay Bool) (c : Bool) : Relay Bool :=
  (((s.set c (.serving (zero 20) .idle)).acknowledged c (zero 20) samplePeer
    clientTypeUser).set c (.serving samplePeer .idle))

theorem connected_run {s : Relay Bool} {c : Bool} (h : s.tasks c = .absent) :
    Run (Step false) s (connectEvents c) (connected s c) := by
  have haccepted : Run (Step false) s ([] ++ [.accepted c]) _ :=
    Run.nil.snoc (.accepted s c h)
  have hacked := haccepted.append (acknowledged_run (update_self ..) samplePeer
    clientTypeUser sampleAckPayload (zero 16))
  exact hacked.snoc
    (.returned _ c _ samplePeer clientTypeUser (update_self ..) (by decide))

theorem keepsPeers_connect {evs : List (RelayEvent Bool)} {c : Bool}
    (h : Guarded (Step false) (idleRelay Bool) KeepsPeers evs)
    (hnew : latest (registrations evs) c = none) :
    Guarded (Step false) (idleRelay Bool) KeepsPeers (evs ++ connectEvents c) := by
  have hregistered : Guarded (Step false) (idleRelay Bool) KeepsPeers
      (evs ++ [.accepted c] ++ [.registered c samplePeer clientTypeUser]) := by
    refine Guarded.snoc (h.snoc fun _ _ => trivial) fun s _ old hold => ?_
    rw [registrations_snoc_none rfl, hnew] at hold
    cases hold
  have hacked := hregistered.append_of_free ((connectEvents c).drop 2)
    (by simp [connectEvents, ackEvents, KeepsPeers])
  rwa [List.append_assoc, List.append_assoc] at hacked

/-- A client connects again after its old connection has ended. -/
theorem peers_right_reconnected : ∃ (evs : List (RelayEvent Bool)) (s : Relay Bool),
    Run (Step false) (idleRelay Bool) evs s ∧ s.entry samplePeer = some true ∧
    ∀ pre post s', evs = pre ++ post → Run (Step false) (idleRelay Bool) pre s' →
      PeersRight pre s' := by
  have hfirst : Run (Step false) (idleRelay Bool) ([] ++ connectEvents false) _ :=
    connected_run rfl
  have hrun := (hfirst.snoc (.removed _ false samplePeer rfl)).append
    (connected_run (c := true) rfl)
  have hremoved : KeepsPeers (connectEvents false) (connected (idleRelay Bool) false)
      (.removed false) := by
    intro c hc hlive
    cases c with
    | false => exact absurd rfl hc
    | true => cases hlive
  refine ⟨_, _, hrun, rfl, (peers_right_iff hrun).mpr (keepsPeers_connect ?_ rfl)⟩
  exact (keepsPeers_connect .nil rfl).snoc_of_run (fun _ _ _ _ h₁ h₂ => h₁.unique h₂)
    hfirst hremoved

def reconnectEvents : List (RelayEvent Bool) :=
  connectEvents false ++ connectEvents true ++ [.removed false] ++ [.closed false]

/-- A client has connected again and its old connection has ended: the new one is open and
registered last, and the table does not have its address. -/
theorem reconnected_peer_lost : ∃ s : Relay Bool,
    Run (Step false) (idleRelay Bool) reconnectEvents s ∧ s.tasks false = .done ∧
    s.tasks true = .serving samplePeer .idle ∧
    latest (registrations reconnectEvents) true = some samplePeer ∧ s.entry samplePeer = none ∧
    ¬ PeersRight reconnectEvents s := by
  have hfirst : Run (Step false) (idleRelay Bool) (connectEvents false) _ :=
    connected_run rfl
  have hsecond := hfirst.append (connected_run (c := true) rfl)
  have hrun := (hsecond.snoc (.removed _ false samplePeer rfl)).snoc
    (.closed _ false samplePeer rfl)
  refine ⟨_, hrun, rfl, rfl, rfl, rfl, ?_⟩
  intro hright
  cases hright samplePeer

end Zentalk
