import Zentalk.Lib.Run
import Zentalk.Network.Discovery

/-!
# The blacklist of relays

`blacklist_honoured`: a relay on it is not returned before its time.
-/

namespace Zentalk

open Wire Sampling Runs List Function RelayDiscovery

/-! ## The code -/

structure RelayHealthInfo where
  lastPing : ℤ
  pingCount : ℕ
  failureCount : ℕ
  successCount : ℕ
  averageLatency : Int64
  lastError : Option Bytes
  consecutiveFails : ℕ

/-- `RelayDiscovery` with its `relayHealth`. -/
structure RelayMonitor extends RelayDiscovery where
  relayHealth : Address → Option RelayHealthInfo

def newRelayDiscovery (attached : Bool) : RelayMonitor where
  attached := attached
  known := []
  nodup := .nil
  blacklist _ := none
  relayHealth _ := none

/-- `DiscoverRelaysByRegion`, which leaves expired entries of the blacklist. -/
def RelayDiscovery.discoverRelaysByRegion (rd : RelayDiscovery) (now : ℤ) (run : Choices)
    (region : Bytes) (count : ℤ) : Outcome (Except Bytes (List RelayMetadata)) :=
  if rd.attached = false then .returns (.error (asciiBytes "DHT node not initialized"))
  else
    let regional := (run.order.order rd.known).filter fun m =>
      !rd.blacklist.lists now m.address && (m.region = region && m.isHealthy now hour)
    drawRelays regional (asciiBytes "no healthy relays in region " ++ region) run.draws count

namespace RelayMonitor

def addKnownRelay (rd : RelayMonitor) (m : RelayMetadata) : RelayMonitor :=
  { rd with
    known := (rd.known.filter fun m' => m'.address ≠ m.address) ++ [m]
    nodup := by
      rw [map_append, map_singleton, nodup_append_comm]
      refine nodup_cons.mpr ⟨?_, rd.nodup.sublist (filter_sublist.map _)⟩
      intro hmem
      obtain ⟨m', hm', heq⟩ := mem_map.mp hmem
      exact of_decide_eq_true (mem_filter.mp hm').2 heq }

def blacklistRelay (rd : RelayMonitor) (now : ℤ) (addr : Address) (duration : Int64) :
    RelayMonitor :=
  { rd with blacklist := update rd.blacklist addr (some (now + duration.toInt)) }

/-- Ten minutes. -/
def autoBlacklist : ℤ := 10 * 60 * 10 ^ 9

def updateRelayHealth (rd : RelayMonitor) (now : ℤ) (addr : Address) (success : Bool)
    (latency : Int64) (err : Option Bytes) : RelayMonitor :=
  let health := (rd.relayHealth addr).getD ⟨0, 0, 0, 0, 0, none, 0⟩
  let health := { health with lastPing := now, pingCount := health.pingCount + 1 }
  if success then
    let health :=
      { health with
        successCount := health.successCount + 1
        consecutiveFails := 0
        averageLatency :=
          if health.averageLatency = 0 then latency
          else (health.averageLatency * 9 + latency) / 10 }
    { rd with relayHealth := update rd.relayHealth addr (some health) }
  else
    let health :=
      { health with
        failureCount := health.failureCount + 1
        consecutiveFails := health.consecutiveFails + 1
        lastError := err }
    { rd with
      relayHealth := update rd.relayHealth addr (some health)
      blacklist :=
        if 3 ≤ health.consecutiveFails then
          update rd.blacklist addr (some (now + autoBlacklist))
        else rd.blacklist }

end RelayMonitor

/-- A call, without the time at which it is made. -/
inductive DiscoveryCall
  | addKnownRelay (m : RelayMetadata)
  | blacklistRelay (addr : Address) (duration : Int64)
  | updateRelayHealth (addr : Address) (success : Bool) (latency : Int64) (err : Option Bytes)
  | discoverRelays (run : Choices) (count : ℤ)
  | discoverRelaysByRegion (run : Choices) (region : Bytes) (count : ℤ)

namespace RelayMonitor

def after (rd : RelayMonitor) (now : ℤ) : DiscoveryCall → RelayMonitor
  | .addKnownRelay m => rd.addKnownRelay m
  | .blacklistRelay addr duration => rd.blacklistRelay now addr duration
  | .updateRelayHealth addr success latency err => rd.updateRelayHealth now addr success latency err
  | .discoverRelays run count =>
    { rd with toRelayDiscovery := (rd.toRelayDiscovery.discoverRelays now run count).1 }
  | .discoverRelaysByRegion _ _ _ => rd

/-- The relays that were returned without an error. -/
def relaysOf : Outcome (Except Bytes (List RelayMetadata)) → List RelayMetadata
  | .returns (.ok relays) => relays
  | _ => []

def returned (rd : RelayMonitor) (now : ℤ) : DiscoveryCall → List RelayMetadata
  | .discoverRelays run count => relaysOf (rd.toRelayDiscovery.discoverRelays now run count).2
  | .discoverRelaysByRegion run region count =>
    relaysOf (rd.toRelayDiscovery.discoverRelaysByRegion now run region count)
  | _ => []

end RelayMonitor

def DiscoveryStep (rd : RelayMonitor) (e : ℤ × DiscoveryCall) (rd' : RelayMonitor) : Prop :=
  rd' = rd.after e.1 e.2

/-! ## Entries -/

def outcomes (a : Address) (log : List (ℤ × DiscoveryCall)) : List Bool :=
  log.filterMap fun e =>
    match e.2 with
    | .updateRelayHealth addr success _ _ => if addr = a then some success else none
    | _ => none

/-- The call enters the relay until the given time, or reports the third failure in a row. -/
def entered (a : Address) (log : List (ℤ × DiscoveryCall)) (e : ℤ × DiscoveryCall) : Option ℤ :=
  match e.2 with
  | .blacklistRelay addr duration => if addr = a then some (e.1 + duration.toInt) else none
  | .updateRelayHealth addr _ _ _ =>
    if addr = a ∧ [false, false, false] <:+ outcomes a (log ++ [e]) then
      some (e.1 + RelayMonitor.autoBlacklist)
    else none
  | _ => none

def streak (l : List Bool) : ℕ := (l.reverse.takeWhile fun success => !success).length

/-- The counters of the code are those of the log. -/
def RelayMonitor.Counts (rd : RelayMonitor) (log : List (ℤ × DiscoveryCall)) : Prop :=
  ∀ a, ((rd.relayHealth a).map RelayHealthInfo.consecutiveFails).getD 0 = streak (outcomes a log)

section

variable {rd rd' : RelayMonitor} {now t : ℤ} {a addr : Address} {call : DiscoveryCall}
  {log : List (ℤ × DiscoveryCall)}

theorem streak_snoc (l : List Bool) (success : Bool) :
    streak (l ++ [success]) = if success then 0 else streak l + 1 := by
  cases success <;> simp [streak]

theorem le_streak_iff {n : ℕ} {l : List Bool} : n ≤ streak l ↔ List.replicate n false <:+ l := by
  rw [← reverse_prefix, reverse_replicate, streak]
  induction l.reverse generalizing n with
  | nil => simp
  | cons success r ih =>
    cases n with
    | zero => simp
    | succ n =>
      cases success with
      | true => simp [replicate_succ]
      | false => simp [replicate_succ, ih]

theorem outcomes_snoc_update (log : List (ℤ × DiscoveryCall)) (now : ℤ) (addr : Address)
    (success : Bool) (latency : Int64) (err : Option Bytes) (a : Address) :
    outcomes a (log ++ [(now, .updateRelayHealth addr success latency err)]) =
      if addr = a then outcomes a log ++ [success] else outcomes a log := by
  split
  · next heq => simp [outcomes, heq]
  · next hne => simp [outcomes, hne]

theorem fails_update (success : Bool) (latency : Int64) (err : Option Bytes) :
    (((rd.updateRelayHealth now addr success latency err).relayHealth a).map
      RelayHealthInfo.consecutiveFails).getD 0 =
      if addr = a then
        if success then 0 else ((rd.relayHealth a).map RelayHealthInfo.consecutiveFails).getD 0 + 1
      else ((rd.relayHealth a).map RelayHealthInfo.consecutiveFails).getD 0 := by
  rcases eq_or_ne addr a with rfl | hne
  · cases success <;> cases h : rd.relayHealth addr <;> simp [RelayMonitor.updateRelayHealth, h]
  · rw [if_neg hne]
    cases success <;> simp [RelayMonitor.updateRelayHealth, update_of_ne hne.symm]

theorem counts_step (h : rd.Counts log) : (rd.after now call).Counts (log ++ [(now, call)]) := by
  intro a
  cases call with
  | updateRelayHealth addr success latency err =>
    rw [RelayMonitor.after, fails_update, outcomes_snoc_update, h a]
    split
    · rw [streak_snoc]
    · rfl
  | addKnownRelay m => simpa [outcomes, RelayMonitor.after, RelayMonitor.addKnownRelay] using h a
  | blacklistRelay addr duration =>
    simpa [outcomes, RelayMonitor.after, RelayMonitor.blacklistRelay] using h a
  | discoverRelays run count => simpa [outcomes, RelayMonitor.after] using h a
  | discoverRelaysByRegion run region count => simpa [outcomes, RelayMonitor.after] using h a

theorem counts_run {attached : Bool}
    (hrun : Run DiscoveryStep (newRelayDiscovery attached) log rd) : rd.Counts log := by
  refine hrun.trace_invariant (I := fun log rd => rd.Counts log) (fun _ => rfl) ?_
  intro log e s s' hs hstep
  obtain rfl : s' = _ := hstep
  exact counts_step hs

theorem lists_update {b : Blacklist} {expiry : ℤ} :
    Blacklist.lists (update b addr (some expiry)) t a =
      if addr = a then decide (t < expiry) else b.lists t a := by
  rw [Blacklist.lists, Blacklist.lists]
  split
  · next heq => simp [heq]
  · next hne => rw [update_of_ne (Ne.symm hne)]

theorem entered_update (h : rd.Counts log) {success : Bool} {latency : Int64} {err : Option Bytes} :
    entered a log (now, .updateRelayHealth addr success latency err) =
      if addr = a ∧ success = false ∧
          3 ≤ ((rd.relayHealth addr).map RelayHealthInfo.consecutiveFails).getD 0 + 1 then
        some (now + RelayMonitor.autoBlacklist)
      else none := by
  refine if_congr (and_congr_right fun heq => ?_) rfl rfl
  have hthree : [false, false, false] = List.replicate 3 false := rfl
  rw [outcomes_snoc_update, if_pos heq, hthree, ← le_streak_iff, streak_snoc, ← heq, ← h addr]
  cases success <;> simp

theorem blacklist_update (success : Bool) (latency : Int64) (err : Option Bytes) :
    (rd.updateRelayHealth now addr success latency err).blacklist =
      if success = false ∧
          3 ≤ ((rd.relayHealth addr).map RelayHealthInfo.consecutiveFails).getD 0 + 1 then
        update rd.blacklist addr (some (now + RelayMonitor.autoBlacklist))
      else rd.blacklist := by
  cases success <;> cases h : rd.relayHealth addr <;> simp [RelayMonitor.updateRelayHealth, h]

/-- What a call does to the blacklist, as it counts from then on. -/
theorem lists_after (h : rd.Counts log) (ht : now ≤ t) :
    (rd.after now call).blacklist.lists t a =
      (entered a log (now, call)).elim (rd.blacklist.lists t a) fun expiry => t < expiry := by
  cases call with
  | addKnownRelay m => rfl
  | blacklistRelay addr duration =>
    rw [RelayMonitor.after, RelayMonitor.blacklistRelay, lists_update]
    simp only [entered]
    split <;> rfl
  | updateRelayHealth addr success latency err =>
    rw [RelayMonitor.after, blacklist_update, entered_update h]
    split
    · next hthird =>
      rw [lists_update]
      simp only [hthird, and_true]
      split <;> rfl
    · next hother => rw [if_neg fun hboth => hother hboth.2]; rfl
  | discoverRelays run count => exact congrFun (discoverRelays_lists ht) a
  | discoverRelaysByRegion run region count => rfl

/-! ## What is returned -/

variable {m : RelayMetadata}

theorem mem_drawRelays {found : List RelayMetadata} {noneFound : Bytes} {draws : List ℕ} {count : ℤ}
    (hm : m ∈ RelayMonitor.relaysOf (drawRelays found noneFound draws count)) : m ∈ found := by
  rcases drawRelays_cases found noneFound draws count with ⟨-, h⟩ | ⟨-, ⟨-, h⟩ | ⟨-, h⟩ |
    ⟨relays, -, hsub, -, h⟩⟩ <;> rw [h] at hm
  · cases hm
  · cases hm
  · cases hm
  · exact hsub.subset hm

theorem returned_not_listed (hm : m ∈ rd.returned now call) :
    rd.blacklist.lists now m.address = false := by
  cases call with
  | addKnownRelay m' => cases hm
  | blacklistRelay addr duration => cases hm
  | updateRelayHealth addr success latency err => cases hm
  | discoverRelays run count =>
    rw [RelayMonitor.returned] at hm
    rcases discoverRelays_outcomes rd.toRelayDiscovery now run count with
      ⟨-, error, h⟩ | ⟨-, -, h⟩ | ⟨-, h⟩ | ⟨relays, hoffers, h⟩ <;> rw [h] at hm
    · cases hm
    · cases hm
    · cases hm
    · obtain ⟨-, husable⟩ := mem_available (hoffers.mem hm)
      rw [usable, Bool.and_eq_true, Bool.not_eq_true'] at husable
      exact husable.2
  | discoverRelaysByRegion run region count =>
    rw [RelayMonitor.returned, discoverRelaysByRegion] at hm
    split at hm
    · cases hm
    · have hfound := (mem_filter.mp (mem_drawRelays hm)).2
      rw [Bool.and_eq_true, Bool.not_eq_true'] at hfound
      exact hfound.1

/-! ## Runs -/

def Unshortened (a : Address) (expiry : ℤ) (log more : List (ℤ × DiscoveryCall)) : Prop :=
  ∀ pre e post expiry', more = pre ++ e :: post → entered a (log ++ pre) e = some expiry' →
    e.1 < expiry → expiry ≤ expiry'

variable {attached : Bool} {e : ℤ × DiscoveryCall} {more pre post : List (ℤ × DiscoveryCall)}
  {expiry : ℤ}

/-- The relay stays on the blacklist until its time. -/
theorem listed_run (hentered : entered a log e = some expiry)
    (hkept : Unshortened a expiry (log ++ [e]) more) (hsplit : more = pre ++ post)
    (hrun : Run DiscoveryStep (newRelayDiscovery attached) (log ++ [e] ++ pre) rd)
    (htime : ∀ x ∈ e :: pre, x.1 ≤ t) (hbefore : t < expiry) :
    rd.blacklist.lists t a = true := by
  induction pre using List.reverseRecOn generalizing rd post with
  | nil =>
    rw [append_nil] at hrun
    obtain ⟨rd₀, hrun₀, hstep⟩ := hrun.snoc_inv
    obtain rfl : rd = _ := hstep
    rw [lists_after (counts_run hrun₀) (htime e mem_cons_self), hentered]
    exact decide_eq_true hbefore
  | append_singleton pre e' ih =>
    rw [← append_assoc] at hrun
    obtain ⟨rd₀, hrun₀, hstep⟩ := hrun.snoc_inv
    obtain rfl : rd = _ := hstep
    have hlast : e'.1 ≤ t := htime e' (by simp)
    rw [lists_after (counts_run hrun₀) hlast]
    cases hwritten : entered a (log ++ [e] ++ pre) e' with
    | none =>
      refine ih (by rw [hsplit, append_assoc]) hrun₀ fun x hx => htime x ?_
      rcases mem_cons.mp hx with rfl | hx
      · exact mem_cons_self
      · exact mem_cons_of_mem _ (mem_append_left _ hx)
    | some expiry' =>
      have hle := hkept pre e' post expiry' (by rw [hsplit, append_assoc]; rfl) hwritten
        (by omega)
      exact decide_eq_true (by omega)

/-- A blacklisted relay is not returned before its time, if the clock does not go back and no later
entry for the relay ends earlier. -/
theorem blacklist_honoured (hclock : ((log ++ e :: more).map Prod.fst).Pairwise (· ≤ ·))
    (hentered : entered a log e = some expiry) (hkept : Unshortened a expiry (log ++ [e]) more) :
    ∀ pre now call post rd, more = pre ++ (now, call) :: post →
      Run DiscoveryStep (newRelayDiscovery attached) (log ++ [e] ++ pre) rd → now < expiry →
      ∀ m ∈ rd.returned now call, m.address ≠ a := by
  intro pre now call post rd hsplit hrun hbefore m hm
  rintro rfl
  have htime : ∀ x ∈ e :: pre, x.1 ≤ now := by
    rw [hsplit, ← cons_append, map_append] at hclock
    obtain ⟨-, hafter, -⟩ := pairwise_append.mp hclock
    rw [map_append] at hafter
    intro x hx
    exact (pairwise_append.mp hafter).2.2 x.1 (mem_map_of_mem hx) now mem_cons_self
  have hlisted := listed_run hentered hkept hsplit hrun htime hbefore
  rw [returned_not_listed hm] at hlisted
  cases hlisted

theorem exists_returned (hattached : rd.attached = true) (hhealthy : m.isHealthy t hour = true)
    (hfree : rd.blacklist.lists t m.address = false) :
    ∃ run count, m ∈ (rd.addKnownRelay m).returned t (.discoverRelays run count) := by
  have husable : (rd.addKnownRelay m).usable t m = true := by
    rw [usable, hhealthy, Bool.true_and, Bool.not_eq_true']
    exact hfree
  have hmem : m ∈ (rd.addKnownRelay m).available t := by
    have hadded : (rd.addKnownRelay m).attached = true := hattached
    rw [available_of_attached hadded]
    exact mem_filter.mpr ⟨mem_append_right _ mem_cons_self, husable⟩
  let found := (rd.addKnownRelay m).available t
  have hoffers : (rd.addKnownRelay m).Offers t found.length found :=
    ⟨Int.natCast_nonneg _, ne_nil_of_mem hmem, .refl _, by simp [found]⟩
  obtain ⟨run, -, hreturns⟩ := hoffers.exists_run
  refine ⟨run, found.length, ?_⟩
  rw [RelayMonitor.returned, hreturns]
  exact hmem

def lateRelay (a : Address) : RelayMetadata :=
  { seenRelay 0 0 with address := a, lastSeen := 9223371974719179007 }

theorem lateRelay_isHealthy (a : Address) (ht : t ≤ unixInstant 9223371974719179007) :
    (lateRelay a).isHealthy t hour = true := by
  have hage : ¬ hour < t - unixInstant 9223371974719179007 := by
    have hhour : 0 < hour := by decide
    omega
  have hrate : ¬ (0 < (0 : ℚ) ∧ (0 : ℚ) < 1 / 2) := by decide +kernel
  have hloss : ¬ (0 < (0 : ℚ) ∧ 3 / 10 < (0 : ℚ)) := by decide +kernel
  exact (if_neg hage).trans ((if_neg hrate).trans (if_neg hloss))

/-- After every entry the relay may be returned once this entry has expired, whatever it had before.
-/
theorem blacklist_replaced
    (hrun : Run DiscoveryStep (newRelayDiscovery attached) (log ++ [e]) rd)
    (hattached : rd.attached = true) (hentered : entered a log e = some expiry) (htime : e.1 ≤ t)
    (hexpired : expiry ≤ t) (hclock : t ≤ unixInstant 9223371974719179007) :
    ∃ run count, lateRelay a ∈ (rd.addKnownRelay (lateRelay a)).returned t
      (.discoverRelays run count) := by
  obtain ⟨rd₀, hrun₀, hstep⟩ := hrun.snoc_inv
  obtain rfl : rd = _ := hstep
  refine exists_returned hattached (lateRelay_isHealthy a hclock) ?_
  have hlists : (rd₀.after e.1 e.2).blacklist.lists t a = _ := lists_after (counts_run hrun₀) htime
  rw [hentered] at hlists
  exact hlists.trans (decide_eq_false (Int.not_lt.mpr hexpired))

end

/-! ## An hour on the blacklist -/

def blacklisted : Address := (seenRelay 1 0).address

def anHour : ℤ × DiscoveryCall := (0, .blacklistRelay blacklisted 3600000000000)

theorem anHour_entered : entered blacklisted [] anHour = some 3600000000000 := by decide

/-- It is known and asked for at once. -/
theorem blacklist_honoured_hour :
    entered blacklisted [] anHour = some 3600000000000 ∧
    ∀ m ∈ RelayMonitor.returned
      (((newRelayDiscovery true).after 0 anHour.2).after 0 (.addKnownRelay (seenRelay 1 0))) 0
      (.discoverRelays ⟨.keep _, []⟩ 1), m.address ≠ blacklisted := by
  have hkept : Unshortened blacklisted 3600000000000 ([] ++ [anHour])
      [(0, .addKnownRelay (seenRelay 1 0)), (0, .discoverRelays ⟨.keep _, []⟩ 1)] := by
    intro pre e post expiry hsplit hentered
    have hmem : e ∈
        [(0, .addKnownRelay (seenRelay 1 0)), (0, .discoverRelays ⟨.keep _, []⟩ 1)] := by
      rw [hsplit]
      exact mem_append_right _ mem_cons_self
    rcases mem_cons.mp hmem with rfl | hmem
    · cases hentered
    · obtain rfl := mem_singleton.mp hmem
      cases hentered
  have hrun : Run DiscoveryStep (newRelayDiscovery true)
      ([] ++ [anHour] ++ [(0, .addKnownRelay (seenRelay 1 0))]) _ :=
    (Run.nil.snoc (e := anHour) rfl).snoc (e := (0, .addKnownRelay (seenRelay 1 0))) rfl
  exact ⟨anHour_entered, blacklist_honoured (by decide) anHour_entered hkept
    [(0, .addKnownRelay (seenRelay 1 0))] 0 _ [] _ rfl hrun (by decide)⟩

/-- A failure a minute later. -/
def failure : ℤ × DiscoveryCall := (60000000000, .updateRelayHealth blacklisted false 0 none)

/-- After three failures the relay is returned ten minutes later. -/
theorem blacklist_shortened :
    entered blacklisted [] anHour = some 3600000000000 ∧
    ∃ rd run count,
      Run DiscoveryStep (newRelayDiscovery true)
        [anHour, failure, failure, failure, (660000000000, .addKnownRelay (lateRelay blacklisted))]
        rd ∧
      lateRelay blacklisted ∈ rd.returned 660000000000 (.discoverRelays run count) := by
  have hrun : Run DiscoveryStep (newRelayDiscovery true) ([anHour, failure, failure] ++ [failure])
      _ := .cons rfl (.cons rfl (.cons rfl (.cons rfl .nil)))
  have hentered : entered blacklisted [anHour, failure, failure] failure = some 660000000000 := by
    decide
  obtain ⟨run, count, hmem⟩ :=
    blacklist_replaced hrun rfl hentered (by decide) le_rfl (by decide)
  have hadded : Run DiscoveryStep (newRelayDiscovery true) ([anHour, failure, failure] ++ [failure]
      ++ [(660000000000, .addKnownRelay (lateRelay blacklisted))]) _ := hrun.snoc rfl
  exact ⟨anHour_entered, _, run, count, hadded, hmem⟩

end Zentalk
