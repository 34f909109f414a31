import Zentalk.Lib.Run
import Mathlib.Data.Finmap
import Mathlib.Data.Finset.Card

/-!
# The pool of relay connections

`GetClient` evicts a client from a full pool before it connects (`pool_keeps_iff`).
-/

namespace Zentalk.Network

open Runs Finmap

structure RelayInfo where
  endpoint : String
  isActive : Bool

/-- The clients by endpoint, each with whether it is connected. -/
structure ConnectionPool where
  relays : Finmap fun _ : String => RelayInfo
  clients : Finmap fun _ : String => Bool
  maxConns : ℤ
  closed : Bool

def newConnectionPool (maxConns : ℤ) : ConnectionPool := ⟨∅, ∅, maxConns, false⟩

/-- What a call of `GetClient` meets: the client that the iteration over the map yields first, and
the result of `ConnectToRelay`. -/
structure GetEnv where
  first : Option String
  connect : Except String Unit

namespace ConnectionPool

def addRelay (p : ConnectionPool) (info : RelayInfo) : ConnectionPool :=
  { p with relays := p.relays.insert info.endpoint info }

def removeRelay (p : ConnectionPool) (endpoint : String) : ConnectionPool :=
  { p with relays := p.relays.erase endpoint, clients := p.clients.erase endpoint }

def evictOldest (p : ConnectionPool) (first : Option String) : ConnectionPool :=
  match first with
  | none => p
  | some endpoint => { p with clients := p.clients.erase endpoint }

def getClient (p : ConnectionPool) (endpoint : String) (env : GetEnv) :
    ConnectionPool × Except String Unit :=
  if p.closed then (p, .error "connection pool closed")
  else if p.clients.lookup endpoint = some true then (p, .ok ())
  else
    let p := if p.maxConns ≤ p.clients.keys.card then p.evictOldest env.first else p
    match env.connect with
    | .error err => (p, .error err)
    | .ok () => ({ p with clients := p.clients.insert endpoint true }, .ok ())

def updateRelayStatus (p : ConnectionPool) (endpoint : String) (isActive : Bool) : ConnectionPool :=
  match p.relays.lookup endpoint with
  | none => p
  | some relay =>
    { p with
      relays := p.relays.insert endpoint { relay with isActive := isActive }
      clients := if isActive then p.clients else p.clients.erase endpoint }

def close (p : ConnectionPool) : ConnectionPool × Except String Unit :=
  if p.closed then (p, .error "connection pool closed")
  else ({ p with closed := true, clients := ∅ }, .ok ())

/-- A client's own loops lose its connection, or restore it. -/
def connection (p : ConnectionPool) (endpoint : String) (connected : Bool) : ConnectionPool :=
  if endpoint ∈ p.clients then { p with clients := p.clients.insert endpoint connected } else p

/-- The iteration over the clients may begin with `first`. -/
def First (p : ConnectionPool) (first : Option String) : Prop :=
  first.elim (p.clients = ∅) (· ∈ p.clients)

def Connected (p : ConnectionPool) (endpoint : String) : Prop :=
  p.clients.lookup endpoint = some true

end ConnectionPool

inductive PoolCall
  | addRelay (info : RelayInfo)
  | removeRelay (endpoint : String)
  | updateRelayStatus (endpoint : String) (isActive : Bool)
  | getClient (endpoint : String) (env : GetEnv)
  | close
  | connection (endpoint : String) (connected : Bool)

inductive PoolStep (p : ConnectionPool) : PoolCall → ConnectionPool → Prop
  | addRelay (info) : PoolStep p (.addRelay info) (p.addRelay info)
  | removeRelay (endpoint) : PoolStep p (.removeRelay endpoint) (p.removeRelay endpoint)
  | updateRelayStatus (endpoint isActive) :
      PoolStep p (.updateRelayStatus endpoint isActive) (p.updateRelayStatus endpoint isActive)
  | getClient (endpoint env) (hfirst : p.First env.first) :
      PoolStep p (.getClient endpoint env) (p.getClient endpoint env).1
  | close : PoolStep p .close p.close.1
  | connection (endpoint connected) :
      PoolStep p (.connection endpoint connected) (p.connection endpoint connected)

namespace ConnectionPool

variable {p p' : ConnectionPool} {endpoint : String} {env : GetEnv} {call : PoolCall} {maxConns : ℤ}

/-- The pool has room for its clients. -/
structure Bounded (maxConns : ℤ) (p : ConnectionPool) : Prop where
  max : p.maxConns = maxConns
  card : p.clients.keys.card ≤ maxConns

/-- The call evicts a working client of another endpoint. -/
def EvictsOther (p : ConnectionPool) (endpoint : String) (env : GetEnv) : Prop :=
  p.closed = false ∧ p.maxConns ≤ p.clients.keys.card ∧
    ∃ other ≠ endpoint, env.first = some other ∧ p.Connected other

theorem card_erase_le (p : ConnectionPool) (endpoint : String) :
    (p.clients.erase endpoint).keys.card ≤ p.clients.keys.card := by
  rw [keys_erase]
  exact Finset.card_le_card (Finset.erase_subset _ _)

theorem keys_insert (clients : Finmap fun _ : String => Bool) (endpoint : String)
    (connected : Bool) :
    (clients.insert endpoint connected).keys = insert endpoint clients.keys := by
  ext other
  rw [mem_keys, mem_insert, Finset.mem_insert, mem_keys]

/-- After an eviction there is room for one more client. -/
theorem card_evictOldest (hfirst : p.First env.first) (h : Bounded maxConns p)
    (hmax : 1 ≤ maxConns) : (p.evictOldest env.first).clients.keys.card + 1 ≤ maxConns := by
  have hcard := h.card
  cases hone : env.first with
  | none =>
    rw [hone] at hfirst
    have hempty : p.clients = ∅ := hfirst
    simpa [evictOldest, hempty] using hmax
  | some other =>
    rw [hone] at hfirst
    have hmem : other ∈ p.clients.keys := mem_keys.mpr hfirst
    have hlt := Finset.card_erase_lt_of_mem hmem
    simp only [evictOldest, keys_erase]
    omega

theorem bounded_getClient (hfirst : p.First env.first) (hmax : 1 ≤ maxConns)
    (h : Bounded maxConns p) : Bounded maxConns (p.getClient endpoint env).1 := by
  have hcard := h.card
  unfold getClient
  split
  · exact h
  split
  · exact h
  -- With or without the eviction, there is room for the new client.
  have hroom : let q := if p.maxConns ≤ p.clients.keys.card then p.evictOldest env.first else p
      q.maxConns = maxConns ∧ (q.clients.keys.card : ℤ) + 1 ≤ maxConns := by
    have hmax' := h.max
    split
    · refine ⟨?_, card_evictOldest hfirst h hmax⟩
      cases env.first <;> exact hmax'
    · exact ⟨hmax', by omega⟩
  revert hroom
  generalize (if p.maxConns ≤ p.clients.keys.card then p.evictOldest env.first else p) = q
  rintro ⟨hq, hroom⟩
  cases env.connect with
  | error err => exact ⟨hq, by simp only; omega⟩
  | ok _ =>
    refine ⟨hq, ?_⟩
    have hle := Finset.card_insert_le endpoint q.clients.keys
    simp only [keys_insert]
    omega

theorem bounded_step (hmax : 1 ≤ maxConns) (h : Bounded maxConns p) (hstep : PoolStep p call p') :
    Bounded maxConns p' := by
  have hcard := h.card
  cases hstep with
  | addRelay info => exact ⟨h.max, hcard⟩
  | removeRelay endpoint =>
    have hle := p.card_erase_le endpoint
    exact ⟨h.max, by simp only [removeRelay]; omega⟩
  | updateRelayStatus endpoint isActive =>
    have hle := p.card_erase_le endpoint
    unfold updateRelayStatus
    cases p.relays.lookup endpoint with
    | none => exact h
    | some relay => cases isActive with
      | false => exact ⟨h.max, by simp only [Bool.false_eq_true, if_false]; omega⟩
      | true => exact ⟨h.max, hcard⟩
  | getClient endpoint env hfirst => exact bounded_getClient hfirst hmax h
  | close =>
    unfold close
    split
    · exact h
    · exact ⟨h.max, by simp only [keys_empty, Finset.card_empty]; omega⟩
  | connection endpoint connected =>
    unfold connection
    split
    · next hmem =>
      refine ⟨h.max, ?_⟩
      simp only [keys_insert]
      rwa [Finset.insert_eq_of_mem (mem_keys.mpr hmem)]
    · exact h

/-- A call that fails does no more than the eviction. -/
theorem getClient_error {err : String} (herr : (p.getClient endpoint env).2 = .error err) :
    (p.getClient endpoint env).1 =
      if p.closed = false ∧ p.maxConns ≤ p.clients.keys.card then p.evictOldest env.first
      else p := by
  unfold getClient at herr ⊢
  cases hclosed : p.closed with
  | true => simp
  | false =>
    simp only [hclosed, Bool.false_eq_true, if_false, true_and] at herr ⊢
    split at herr
    · cases herr
    · next hne =>
      rw [if_neg hne]
      cases hconnect : env.connect with
      | error err => rfl
      | ok _ =>
        rw [hconnect] at herr
        cases herr

theorem connected_evictOldest (first : Option String) (other : String) :
    (p.evictOldest first).Connected other ↔ p.Connected other ∧ first ≠ some other := by
  cases first with
  | none => simp [evictOldest]
  | some endpoint =>
    by_cases heq : endpoint = other
    · subst heq
      simp [evictOldest, Connected, lookup_erase]
    · simp [evictOldest, Connected, lookup_erase_ne (Ne.symm heq), heq]

theorem keeps_iff {err : String} (herr : (p.getClient endpoint env).2 = .error err) :
    (∀ other ≠ endpoint, p.Connected other → (p.getClient endpoint env).1.Connected other) ↔
      ¬ p.EvictsOther endpoint env := by
  rw [getClient_error herr]
  split
  · next hfull =>
    simp only [connected_evictOldest]
    constructor
    · rintro hkeep ⟨-, -, other, hne, hfirst, hconnected⟩
      exact (hkeep other hne hconnected).2 hfirst
    · intro hnot other hne hconnected
      exact ⟨hconnected, fun hfirst => hnot ⟨hfull.1, hfull.2, other, hne, hfirst, hconnected⟩⟩
  · next hroom =>
    exact ⟨fun _ hevicts => hroom ⟨hevicts.1, hevicts.2.1⟩, fun _ _ _ hconnected => hconnected⟩

end ConnectionPool

open ConnectionPool in
/-- A pool never holds more than `maxConns` clients. A `GetClient` call that fails leaves the
working clients of the other endpoints, unless it evicted one of them before it tried to connect. -/
theorem pool_keeps_iff {maxConns : ℤ} (hmax : 1 ≤ maxConns) {calls : List PoolCall}
    {p : ConnectionPool} (hrun : Run PoolStep (newConnectionPool maxConns) calls p) :
    p.clients.keys.card ≤ maxConns ∧
      ∀ endpoint env err, p.First env.first → (p.getClient endpoint env).2 = .error err →
        ((∀ other ≠ endpoint, p.Connected other → (p.getClient endpoint env).1.Connected other) ↔
          ¬ p.EvictsOther endpoint env) := by
  have hbounded : Bounded maxConns p :=
    hrun.invariant ⟨rfl, by
      simp only [newConnectionPool, keys_empty, Finset.card_empty]
      omega⟩
      fun _ _ _ h hstep => bounded_step hmax h hstep
  exact ⟨hbounded.card, fun endpoint env err _ herr => keeps_iff herr⟩

/-- A pool of one client, after a call for relay `a`. -/
def soloPool : ConnectionPool := ((newConnectionPool 1).getClient "a" ⟨none, .ok ()⟩).1

theorem soloPool_run :
    Run PoolStep (newConnectionPool 1) [.getClient "a" ⟨none, .ok ()⟩] soloPool :=
  Run.nil.snoc (.getClient "a" ⟨none, .ok ()⟩ rfl)

theorem soloPool_clients : soloPool.clients = insert "a" true ∅ := rfl

theorem soloPool_first : soloPool.First (some "a") := by
  show "a" ∈ soloPool.clients
  rw [soloPool_clients, mem_insert]
  exact .inl rfl

/-- A call for relay `b`, which cannot be reached. -/
def refused : GetEnv := ⟨some "a", .error "connection refused"⟩

theorem soloPool_refused : (soloPool.getClient "b" refused).2 = .error "connection refused" := by
  have hb : soloPool.clients.lookup "b" ≠ some true := by
    decide
  unfold ConnectionPool.getClient
  rfl

/-- In a pool of two clients there is room for the call. -/
theorem pool_keeps_roomy : ∃ p,
    Run PoolStep (newConnectionPool 2) [.getClient "a" ⟨none, .ok ()⟩] p ∧ p.Connected "a" ∧
      (p.getClient "b" refused).2 = .error "connection refused" ∧
      (p.getClient "b" refused).1.Connected "a" := by
  have hrun := Run.nil.snoc (PoolStep.getClient (p := newConnectionPool 2) "a" ⟨none, .ok ()⟩ rfl)
  have hfirst : "a" ∈ insert "a" true (∅ : Finmap fun _ => Bool) := mem_insert.mpr (.inl rfl)
  have hroom := (pool_keeps_iff (by decide) hrun).2 "b" refused _ hfirst rfl
  refine ⟨_, hrun, lookup_insert _, rfl, hroom.mpr ?_ "a" (by decide) (lookup_insert _)⟩
  rintro ⟨-, hfull, -⟩
  exact absurd hfull (by decide)

/-- The relay `b` cannot be reached, and the pool has lost its connection to `a`. -/
theorem pool_evicts_first :
    Run PoolStep (newConnectionPool 1) [.getClient "a" ⟨none, .ok ()⟩] soloPool ∧
      soloPool.First refused.first ∧ soloPool.Connected "a" ∧
      (soloPool.getClient "b" refused).2 = .error "connection refused" ∧
      ¬ (soloPool.getClient "b" refused).1.Connected "a" := by
  have hconnected : soloPool.Connected "a" := lookup_insert _
  refine ⟨soloPool_run, soloPool_first, hconnected, soloPool_refused, fun hkept => ?_⟩
  rw [ConnectionPool.getClient_error soloPool_refused, if_pos ⟨rfl, by decide⟩,
    ConnectionPool.connected_evictOldest] at hkept
  exact hkept.2 rfl

end Zentalk.Network
