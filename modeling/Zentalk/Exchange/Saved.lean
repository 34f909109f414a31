import Zentalk.Network.Device
import Zentalk.Network.Trial
import Zentalk.Exchange.Agreement

/-!
# Sessions in memory and on disk

A failed `RatchetEncrypt` and a trial decryption are not followed by a save
(`sessions_saved_iff`).
-/

namespace Zentalk

open Wire Runs Option Client

variable {K : Suite}

/-- Storage is attached, and the file holds the sessions that are in memory. -/
def Client.InSync (c : Client K) : Prop :=
  c.sessionStorage.map SessionFile.load = some (.ok c.ratchetSessions)

/-! ## Runs -/

/-- The calls that create or change ratchet sessions, with what the outside answers. -/
inductive SessionOp (K : Suite)
  | sendRatchetMessage (recipient : Address) (recipientKeyBundle : Option KeyBundle)
      (plaintext : Bytes) (env : SendEnv)
  | initializeRatchetSession (sender : Address) (initialMsg : InitialMessage) (save : WriteOutcome)
  | setRatchetSession (addr : Address) (session : RatchetState K) (save : WriteOutcome)
  | handleDirectMessage (payload : Bytes) (env : ReceiveEnv)
  | tryDecryptRatchetMessage (payload : Bytes) (sender : Address)
      (rand : RandomKey) (save : WriteOutcome)

def Client.after (c : Client K) : SessionOp K → Client K
  | .sendRatchetMessage recipient bundle plaintext env =>
    (sendRatchetMessage c recipient bundle plaintext env).client
  | .initializeRatchetSession sender initialMsg save =>
    (initializeRatchetSession c sender initialMsg save).1
  | .setRatchetSession addr session save => setRatchetSession c addr session save
  | .handleDirectMessage payload env => (handleDirectMessage c payload env).1
  | .tryDecryptRatchetMessage payload sender rand save =>
    (tryDecryptRatchetMessage c payload sender rand save).1

/-- All file writes succeed, and Go iterates over each session once. -/
def SessionOp.Served (c : Client K) : SessionOp K → Prop
  | .sendRatchetMessage _ _ _ env => env.saveNew = .written ∧ env.saveSent = .written
  | .initializeRatchetSession _ _ save => save = .written
  | .setRatchetSession _ _ save => save = .written
  | .handleDirectMessage _ env => env.saveNew = .written ∧ env.Iterates c
  | .tryDecryptRatchetMessage _ _ _ save => save = .written

def SessionStep (c : Client K) (op : SessionOp K) (c' : Client K) : Prop :=
  c' = c.after op ∧ op.Served c

/-- The call finds a session, or opens one and gets its initial message through. -/
def Client.ReachesEncrypt (c : Client K) (recipient : Address) (bundle : Option KeyBundle)
    (env : SendEnv) : Prop :=
  (c.current recipient).isSome ∨
  ∃ session initialMsg, c.opening recipient bundle env.randEphemeral = some (session, initialMsg) ∧
    env.initial.delivers (initialPayload initialMsg) = true

def Client.SavesAll (c : Client K) : SessionOp K → Prop
  | .sendRatchetMessage recipient bundle _ env =>
    c.ReachesEncrypt recipient bundle env → ∃ nonce, env.randNonce = .ok nonce
  | .initializeRatchetSession _ _ _ => True
  | .setRatchetSession _ _ _ => True
  | .handleDirectMessage payload env =>
    ¬ IsInitial (env.unwrapped payload) →
      ∀ ratchetHeader ciphertext, ratchetParts (env.unwrapped payload) =
        some (ratchetHeader, ciphertext) → ∀ addr session,
        c.ratchetSessions.lookup addr = some session → Rejects session ratchetHeader
  | .tryDecryptRatchetMessage payload sender rand _ =>
    ∀ ratchetHeader ciphertext, ratchetParts payload = some (ratchetHeader, ciphertext) →
      ∀ session, c.ratchetSessions.lookup sender = some session →
        Rejects session ratchetHeader ∨ Opens session ratchetHeader ciphertext rand aesDecryptGCM

section

/-! ## Saves -/

variable {c : Client K} {addr : Address} {session session' : RatchetState K}

theorem inSync_saved (h : c.InSync) (addr : Address) (session : RatchetState K) :
    ((c.setSession addr session).persist addr session .written).InSync := by
  obtain ⟨file, hfile, hload⟩ := map_eq_some_iff.mp h
  simp only [InSync, persist, setSession, hfile, map_some, SessionFile.saveRatchetSession, hload]
  rfl

theorem inSync_sessions_iff (h : c.InSync) (sessions : SessionMap K) :
    ({ c with ratchetSessions := sessions } : Client K).InSync ↔ sessions = c.ratchetSessions := by
  constructor
  · intro hsync
    exact (Except.ok.inj (some.inj (h.symm.trans hsync))).symm
  · rintro rfl
    exact h

theorem inSync_set_iff (h : c.InSync) (hsession : c.ratchetSessions.lookup addr = some session) :
    (c.setSession addr session').InSync ↔ session' = session := by
  refine (inSync_sessions_iff h _).trans ⟨fun hsame => ?_, ?_⟩
  · have hlook := congrArg (Finmap.lookup addr) hsame
    rw [Finmap.lookup_insert, hsession] at hlook
    exact some.inj hlook
  · rintro rfl
    exact congrArg ratchetSessions (setSession_same hsession)

theorem advanceSending_ne (session : RatchetState K) : session.advanceSending ≠ session := by
  intro heq
  have hnum : session.sendingMsgNum + 1 = session.sendingMsgNum :=
    congrArg RatchetState.sendingMsgNum heq
  exact absurd (UInt32.add_eq_left.mp hnum) (by decide)

/-! ## The calls -/

theorem inSync_sendWithSession_iff (h : c.InSync)
    (hsession : c.ratchetSessions.lookup addr = some session) (plaintext : Bytes) {env : SendEnv}
    (hsave : env.saveSent = .written) :
    (sendWithSession c addr session plaintext env).client.InSync ↔
      ∃ nonce, env.randNonce = .ok nonce := by
  cases hnonce : env.randNonce with
  | error e =>
    simp only [sendWithSession, ratchetEncrypt, aesEncryptGCM, hnonce]
    rw [inSync_set_iff h hsession]
    constructor
    · intro heq
      exact absurd heq (advanceSending_ne session)
    · rintro ⟨_, heq⟩
      cases heq
  | ok nonce =>
    simp only [sendWithSession, ratchetEncrypt, aesEncryptGCM, hnonce, hsave]
    exact ⟨fun _ => ⟨nonce, rfl⟩, fun _ => inSync_saved h addr _⟩

theorem inSync_send_iff (h : c.InSync) (recipient : Address) (bundle : Option KeyBundle)
    (plaintext : Bytes) {env : SendEnv} (hnew : env.saveNew = .written)
    (hsent : env.saveSent = .written) :
    (sendRatchetMessage c recipient bundle plaintext env).client.InSync ↔
      (c.ReachesEncrypt recipient bundle env → ∃ nonce, env.randNonce = .ok nonce) := by
  obtain (⟨hopening, hcurrent, e, heq⟩ | ⟨-, session, hcurrent, hsession, heq⟩) |
    ⟨_, _, session, initialMsg, hnone, -, -, -, hopening, hrest⟩ :=
    sendRatchetMessage_cases c recipient bundle plaintext env
  · rw [heq]
    refine ⟨fun _ hreach => ?_, fun _ => h⟩
    rcases hreach with hsome | ⟨_, _, hopen, -⟩
    · rw [hcurrent] at hsome
      cases hsome
    · rw [hopening] at hopen
      cases hopen
  · rw [heq, inSync_sendWithSession_iff h hsession plaintext hsent]
    have hreach : c.ReachesEncrypt recipient bundle env := .inl (by rw [hcurrent]; rfl)
    exact (imp_iff_right hreach).symm
  · have hcurrent : c.current recipient = none := by
      rw [current]
      split
      · exact hnone
      · rfl
    have hopened :
        ((c.setSession recipient session).persist recipient session env.saveNew).InSync :=
      hnew ▸ inSync_saved h recipient session
    rcases hrest with ⟨hlost, _, _, -, heq⟩ | ⟨hwritten, _, -, -, -, heq⟩
    · rw [heq]
      refine ⟨fun _ hreach => ?_, fun _ => hopened⟩
      rcases hreach with hsome | ⟨_, initialMsg', hopen, hdelivers⟩
      · rw [hcurrent] at hsome
        cases hsome
      · rw [hopening] at hopen
        cases hopen
        rw [hlost] at hdelivers
        cases hdelivers
    · rw [heq]
      refine (inSync_sendWithSession_iff hopened (Finmap.lookup_insert _) plaintext hsent).trans ?_
      have hreach : c.ReachesEncrypt recipient bundle env :=
        .inr ⟨session, initialMsg, hopening, hwritten⟩
      exact (imp_iff_right hreach).symm

theorem inSync_initialize (h : c.InSync) (sender : Address) (initialMsg : InitialMessage) :
    (initializeRatchetSession c sender initialMsg .written).1.InSync := by
  rcases initializeRatchetSession_sessions c sender initialMsg .written with
    ⟨-, hsessions, hstorage⟩ | ⟨-, -, secret, spk, hsessions, hstorage⟩
  · rw [InSync, hsessions, hstorage]
    exact h
  · rw [InSync, hsessions, hstorage]
    exact inSync_saved h sender _

theorem inSync_handle_iff (h : c.InSync) (payload : Bytes) {env : ReceiveEnv}
    (hsave : env.saveNew = .written) (hiter : env.Iterates c) :
    (handleDirectMessage c payload env).1.InSync ↔
      (¬ IsInitial (env.unwrapped payload) →
        ∀ ratchetHeader ciphertext, ratchetParts (env.unwrapped payload) =
          some (ratchetHeader, ciphertext) → ∀ addr session,
          c.ratchetSessions.lookup addr = some session → Rejects session ratchetHeader) := by
  rcases handleDirectMessage_cases c payload env with ⟨hkind, heq, -⟩ |
    ⟨hinit, initialMsg, heq, -⟩ | ⟨hkind, ratchetHeader, ciphertext, hparts, heq, -⟩
  · rw [heq]
    refine ⟨fun _ hnot _ _ hparts => ?_, fun _ => h⟩
    rcases hkind with hinit | hnone
    · exact absurd hinit hnot
    · rw [hnone] at hparts
      cases hparts
  · rw [heq, hsave]
    exact ⟨fun _ hnot => absurd hinit hnot, fun _ => inSync_initialize h _ _⟩
  · obtain ⟨sessions, hclient⟩ := trySessions_client c env.order
    rw [heq, hclient, inSync_sessions_iff h]
    have hkept := trySessions_kept_iff (c := c) ratchetHeader ciphertext env.rand hiter.nodup
    rw [hclient] at hkept
    refine hkept.trans ⟨fun hrej _ header' ct' hparts' addr session hsession => ?_,
      fun hrej addr _ session hsession => hrej hkind _ _ hparts addr session hsession⟩
    rw [hparts] at hparts'
    cases hparts'
    exact hrej addr ((hiter.order addr).mpr (by rw [hsession]; rfl)) session hsession

theorem inSync_decrypt_iff (h : c.InSync) (hsession : c.ratchetSessions.lookup addr = some session)
    (ratchetHeader ciphertext : Bytes) (rand : RandomKey) :
    (c.settle addr .written
      (ratchetDecrypt session ratchetHeader ciphertext rand aesDecryptGCM)).1.InSync ↔
      Rejects session ratchetHeader ∨
        Opens session ratchetHeader ciphertext rand aesDecryptGCM := by
  have hstate := state_kept_iff session ratchetHeader ciphertext rand aesDecryptGCM
  have hresult := accepts_iff session ratchetHeader ciphertext rand aesDecryptGCM
  cases hdec : ratchetDecrypt session ratchetHeader ciphertext rand aesDecryptGCM with
  | mk session' result =>
    rw [hdec] at hstate hresult
    cases result with
    | error e =>
      refine (inSync_set_iff h hsession).trans (hstate.trans ?_)
      refine ⟨.inl, fun hor => hor.elim id ?_⟩
      rintro ⟨header, plaintext, hopens⟩
      exact absurd ((hresult plaintext).mpr ⟨header, hopens⟩) (fun heq => nomatch heq)
    | ok plaintext =>
      obtain ⟨header, hopens⟩ := (hresult plaintext).mp rfl
      exact ⟨fun _ => .inr ⟨header, plaintext, hopens⟩, fun _ => inSync_saved h addr session'⟩

theorem inSync_tryDecrypt_iff (h : c.InSync) (payload : Bytes) (sender : Address)
    (rand : RandomKey) :
    (tryDecryptRatchetMessage c payload sender rand .written).1.InSync ↔
      ∀ ratchetHeader ciphertext, ratchetParts payload = some (ratchetHeader, ciphertext) →
        ∀ session, c.ratchetSessions.lookup sender = some session →
          Rejects session ratchetHeader ∨
            Opens session ratchetHeader ciphertext rand aesDecryptGCM := by
  rcases tryDecryptRatchetMessage_cases c payload sender rand .written with
    ⟨hnone, heq⟩ | ⟨ratchetHeader, ciphertext, session, hparts, hsession, heq⟩
  · rw [heq]
    refine ⟨fun _ _ _ hparts _ hsession => ?_, fun _ => h⟩
    rcases hnone with hnone | hnone
    · rw [hnone] at hparts
      cases hparts
    · rw [hnone] at hsession
      cases hsession
  · rw [heq, inSync_decrypt_iff h hsession, hparts, hsession]
    constructor
    · intro hor header' ct' hparts' session' hsession'
      cases hparts'
      cases hsession'
      exact hor
    · intro hall
      exact hall _ _ rfl _ rfl

/-- Which calls keep file and memory in agreement. -/
theorem inSync_step {op : SessionOp K} {c' : Client K} (h : c.InSync)
    (hstep : SessionStep c op c') : c'.InSync ↔ c.SavesAll op := by
  obtain ⟨rfl, hserved⟩ := hstep
  cases op with
  | sendRatchetMessage recipient bundle plaintext env =>
    exact inSync_send_iff h recipient bundle plaintext hserved.1 hserved.2
  | initializeRatchetSession sender initialMsg save =>
    obtain rfl : save = .written := hserved
    exact ⟨fun _ => trivial, fun _ => inSync_initialize h sender initialMsg⟩
  | setRatchetSession addr session save =>
    obtain rfl : save = .written := hserved
    exact ⟨fun _ => trivial, fun _ => inSync_saved h addr session⟩
  | handleDirectMessage payload env => exact inSync_handle_iff h payload hserved.1 hserved.2
  | tryDecryptRatchetMessage payload sender rand save =>
    obtain rfl : save = .written := hserved
    exact inSync_tryDecrypt_iff h payload sender rand

end

/-- File and memory agree all along a run exactly when no call changes a session without saving it.
-/
theorem sessions_saved_iff {c₀ c : Client K} (hinit : c₀.InSync) {ops : List (SessionOp K)}
    (hrun : Run SessionStep c₀ ops c) :
    (∀ pre post c', ops = pre ++ post → Run SessionStep c₀ pre c' → c'.InSync) ↔
      Guarded SessionStep c₀ (fun _ c op => c.SavesAll op) ops :=
  Run.always_iff_guarded (fun _ _ _ _ h₁ h₂ => h₁.1.trans h₂.1.symm) hinit
    (fun _ _ _ _ h hstep => inSync_step h hstep) hrun

/-- After a restart from such a file the sessions are the same. -/
theorem restart_sessions {d d' : Device K} (h : d.client.InSync) (hrestart : d.restart = some d') :
    d'.client.ratchetSessions = d.client.ratchetSessions := by
  rw [(Device.restart_loaded hrestart).1]
  obtain ⟨file, hfile, hload⟩ := map_eq_some_iff.mp h
  rw [hfile, getD_some, hload]
  rfl

/-! ## A client of the suite of terms -/

def savedSessions : SessionMap freeSuite :=
  (∅ : SessionMap freeSuite).insert (fill 20 1) sampleResponder

def savedClient : Client freeSuite :=
  { sampleClient 2 savedSessions with sessionStorage := some (.sessions savedSessions) }

theorem savedClient_only : OnlySession savedClient (fill 20 1) sampleResponder :=
  onlySession_first (c := sampleClient 2 ∅) rfl rfl

def savedPayload : Bytes :=
  ratchetPayload sampleInitiator.nextHeader.encode
    ((fill 12 0).bytes ++ freeSuite.gcmSeal (fill 12 0) [] sampleInitiator.sendingKey)

/-- A send that goes through keeps file and memory in agreement. -/
theorem sessions_saved_send :
    savedClient.InSync ∧ ∀ pre post c',
      [SessionOp.sendRatchetMessage (fill 20 1) none [] (sampleSend 6)] = pre ++ post →
      Run SessionStep savedClient pre c' → c'.InSync := by
  have hsync : savedClient.InSync := rfl
  refine ⟨hsync, ?_⟩
  have hrun : Run SessionStep savedClient
      ([] ++ [SessionOp.sendRatchetMessage (fill 20 1) none [] (sampleSend 6)]) _ :=
    Run.nil.snoc ⟨rfl, rfl, rfl⟩
  exact (sessions_saved_iff hsync hrun).mpr (Guarded.nil.snoc fun _ _ _ => ⟨_, rfl⟩)

theorem received_not_saved :
    ∃ op c, savedClient.InSync ∧ Run SessionStep savedClient [op] c ∧ ¬ c.InSync := by
  refine ⟨.handleDirectMessage savedPayload (plainReceive [fill 20 1]), _, rfl,
    Run.nil.snoc ⟨rfl, rfl, ?_⟩, ?_⟩
  · exact ⟨List.nodup_singleton _, (serves_only savedClient_only savedPayload).order⟩
  · intro hsync
    have hcount := congrArg (fun loaded => loaded.bind fun sessions => sessions.toOption.bind
      fun m => (m.lookup (fill 20 1)).map RatchetState.receivingMsgNum) hsync
    exact absurd hcount (by decide +kernel)

end Zentalk
