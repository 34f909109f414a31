import Zentalk.Network.Trial
import Zentalk.Exchange.Agreement

/-!
# One peer's message and the other sessions

Every session that does not reject the header is changed by the attempt (`isolated_iff`).
-/

namespace Zentalk

open Wire Finmap Finset MessageHeader

variable {K : Suite}

/-- Whatever the order of iteration, handling the payload changes no session but the one with
`peer`, and neither the result nor that session depends on the order. -/
structure Isolated (c : Client K) (peer : Address) (payload : Bytes) : Prop where
  others : ∀ env : ReceiveEnv, env.Serves c payload → ∀ addr, addr ≠ peer →
    (handleDirectMessage c payload env).1.ratchetSessions.lookup addr =
      c.ratchetSessions.lookup addr
  result : ∀ env env' : ReceiveEnv, env.Serves c payload → env'.Serves c payload →
    env.rand = env'.rand →
    (handleDirectMessage c payload env).2 = (handleDirectMessage c payload env').2
  session : ∀ env env' : ReceiveEnv, env.Serves c payload → env'.Serves c payload →
    env.rand = env'.rand →
    (handleDirectMessage c payload env).1.ratchetSessions.lookup peer =
      (handleDirectMessage c payload env').1.ratchetSessions.lookup peer

section

variable {c : Client K} {peer addr : Address} {session : RatchetState K} {payload : Bytes}

/-- Some order of iteration starts with this session. -/
theorem serves_first (hsession : c.ratchetSessions.lookup addr = some session) (payload : Bytes) :
    ∃ rest, (plainReceive (addr :: rest)).Serves c payload := by
  refine ⟨(c.ratchetSessions.keys.erase addr).toList, rfl, ?_, fun a => ?_⟩
  · refine List.nodup_cons.mpr ⟨fun hmem => ?_, nodup_toList _⟩
    exact notMem_erase addr _ (mem_toList.mp hmem)
  · show a ∈ addr :: _ ↔ _
    rw [List.mem_cons, Finset.mem_toList, Finset.mem_erase, mem_keys, ← lookup_isSome]
    by_cases ha : a = addr
    · rw [ha, hsession]
      simp
    · simp [ha]

theorem handle_of_rejects {header : MessageHeader} {ciphertext : Bytes}
    (hsession : c.ratchetSessions.lookup peer = some session)
    (hrej : ∀ addr session', addr ≠ peer → c.ratchetSessions.lookup addr = some session' →
      Rejects session' header.encode)
    {env : ReceiveEnv} (hserves : env.Serves c (ratchetPayload header.encode ciphertext)) :
    handleDirectMessage c (ratchetPayload header.encode ciphertext) env =
      (c.setSession peer
        (ratchetDecrypt session header.encode ciphertext (env.rand peer) aesDecryptGCM).1,
        .ofSessions (ratchetPayload header.encode ciphertext)
          ((ratchetDecrypt session header.encode ciphertext (env.rand peer)
            aesDecryptGCM).2.toOption.map fun plaintext => (peer, plaintext))) := by
  have hmem : peer ∈ env.order := (hserves.order peer).mpr (by rw [hsession]; rfl)
  exact handleDirectMessage_ratchet (length_encode header) hserves.notRsa
    (trySessions_only hsession rfl hserves.nodup hmem fun addr _ hne =>
      turnsAway_of_rejects fun session' h => hrej addr session' hne h)

end

/-- A ratchet message is isolated exactly when every other session rejects its header. -/
theorem isolated_iff {c : Client K} {peer : Address} {session : RatchetState K}
    (hsession : c.ratchetSessions.lookup peer = some session) (header : MessageHeader)
    (ciphertext : Bytes) :
    Isolated c peer (ratchetPayload header.encode ciphertext) ↔
      ∀ addr session', addr ≠ peer → c.ratchetSessions.lookup addr = some session' →
        Rejects session' header.encode := by
  constructor
  · intro hiso addr session' hne hsession'
    obtain ⟨rest, hserves⟩ := serves_first hsession' (ratchetPayload header.encode ciphertext)
    let env := plainReceive (addr :: rest)
    have hclient : (handleDirectMessage c (ratchetPayload header.encode ciphertext) env).1 =
        (trySessions header.encode ciphertext env.rand env.order c).1 :=
      congrArg Prod.fst (handleDirectMessage_ratchet (length_encode header)
        hserves.notRsa (Prod.eta _).symm)
    have hkept := hiso.others env hserves addr hne
    have hhead := trySessions_head header.encode ciphertext env.rand
      (List.nodup_cons.mp hserves.nodup).1 hsession'
    rw [hclient, hsession'] at hkept
    exact (state_kept_iff _ _ _ _ _).mp (Option.some.inj (hhead.symm.trans hkept))
  · intro hrej
    refine ⟨fun env hserves addr hne => ?_, fun env env' hserves hserves' hrand => ?_,
      fun env env' hserves hserves' hrand => ?_⟩
    · rw [handle_of_rejects hsession hrej hserves]
      exact lookup_insert_of_ne _ hne
    · rw [handle_of_rejects hsession hrej hserves, handle_of_rejects hsession hrej hserves', hrand]
    · rw [handle_of_rejects hsession hrej hserves, handle_of_rejects hsession hrej hserves', hrand]

/-! ## A client with two peers -/

/-- Client 2 after clients 1 and 7 opened sessions with it. -/
def twoPeers : Client freeSuite :=
  sampleClient 2 (((∅ : SessionMap freeSuite).insert (fill 20 1) sampleResponder).insert (fill 20 7)
    ((meeting 7 2 ∅ ∅).responderState (fill 32 6)))

/-- Client 2 when client 7's first message has arrived too. -/
def twoPeersLater : Client freeSuite :=
  sampleClient 2 (((∅ : SessionMap freeSuite).insert (fill 20 1) sampleResponder).insert (fill 20 7)
    ((meeting 7 2 ∅ ∅).responderState (fill 32 6)).advanceReceiving)

/-- The next message of client 1's session with client 2. -/
def messageOf1 : Except String (Bytes × Bytes) :=
  (ratchetEncrypt sampleInitiator [] (aesEncryptGCM (.ok (fill 12 0)))).2

/-- The session with client 7 counts a message, so the difference wraps and it rejects the header.
-/
theorem isolated_later :
    ∃ ratchetHeader ciphertext, messageOf1 = .ok (ratchetHeader, ciphertext) ∧
      Isolated twoPeersLater (fill 20 1) (ratchetPayload ratchetHeader ciphertext) := by
  refine ⟨_, _, rfl, (isolated_iff rfl sampleInitiator.nextHeader _).mpr
    fun addr session' hne hsession' => ?_⟩
  by_cases h7 : addr = fill 20 7
  · rw [h7] at hsession'
    cases hsession'
    exact .gapBefore (decode_encode _) (by decide) (by decide)
  · rw [show twoPeersLater.ratchetSessions.lookup addr = none from
      (lookup_insert_of_ne _ h7).trans (lookup_insert_of_ne _ hne)] at hsession'
    cases hsession'

theorem twoPeers_iterates (payload : Bytes) :
    (plainReceive [fill 20 7, fill 20 1]).Serves twoPeers payload := by
  refine ⟨rfl, by decide, fun addr => ?_⟩
  show addr ∈ [fill 20 7, fill 20 1] ↔ ((insert _ _ _).lookup addr).isSome
  by_cases h7 : addr = fill 20 7
  · rw [h7, lookup_insert]
    simp
  · rw [lookup_insert_of_ne _ h7]
    by_cases h1 : addr = fill 20 1
    · rw [h1, lookup_insert]
      simp
    · simp [h7, h1]

/-- The message of client 1 ratchets the session with client 7. -/
theorem foreign_session_changed :
    ∃ ratchetHeader ciphertext, messageOf1 = .ok (ratchetHeader, ciphertext) ∧
      twoPeers.ratchetSessions.lookup (fill 20 1) = some sampleResponder ∧
      ¬ Isolated twoPeers (fill 20 1) (ratchetPayload ratchetHeader ciphertext) := by
  refine ⟨_, _, rfl, rfl, fun hiso => ?_⟩
  have hkept := hiso.others _ (twoPeers_iterates _) (fill 20 7) (by decide)
  have hkey := congrArg (fun s => s.map RatchetState.dhReceivingPublic) hkept
  exact absurd hkey (by decide +kernel)

end Zentalk
