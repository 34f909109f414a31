import Zentalk.Network.Device
import Zentalk.Network.Trial
import Zentalk.Exchange.Replay
import Zentalk.Exchange.Agreement

/-!
# Crashes between encryption, save and write

`Durable`: a ciphertext is written only when the file is already past its key, so that no key is
used for two of them (`no_key_written_twice`).
-/

namespace Zentalk

open Wire Runs List Finmap Client

variable {K : Suite}

/-! ## The moments of a send -/

/-- What happens to a session that an observer of the connection can tell apart: it is created, or
a ciphertext under one of its keys is handed to the connection. -/
inductive SessionEvent (K : Suite)
  | opened (addr : Address)
  | wrote (addr : Address) (key : K.MessageKey)

/-- A moment between two statements of `SendRatchetMessage`: the client, the frames that the call
has written so far, and what happened to the session. -/
structure Moment (K : Suite) where
  client : Client K
  frames : List Frame
  events : List (SessionEvent K)

/-- The moments of `sendFrame` after those in `before`. A `Write` that fails may have written the
ciphertext, so it counts. -/
def frameMoments (before : Moment K) (recipient : Address) (payload : Bytes) (env : FrameEnv)
    (written : List (SessionEvent K)) : List (Moment K) :=
  match env.buildOnion payload with
  | .error _ => []
  | .ok onion =>
    match env.writeHeader with
    | .error _ => []
    | .ok () =>
      let header := relayForwardHeader onion env.messageID
      [{ before with frames := before.frames ++ [⟨header, recipient, payload, none⟩] },
        { before with
          frames := before.frames ++ (sendFrame recipient payload env).1
          events := before.events ++ written }]

def encryptMoments (before : Moment K) (recipient : Address) (session : RatchetState K)
    (plaintext : Bytes) (env : SendEnv) : List (Moment K) :=
  match ratchetEncrypt session plaintext (aesEncryptGCM env.randNonce) with
  | (session', .error _) => [{ before with client := before.client.setSession recipient session' }]
  | (session', .ok (ratchetHeader, ciphertext)) =>
    let moved := { before with client := before.client.setSession recipient session' }
    let saved := { moved with client := moved.client.persist recipient session' env.saveSent }
    moved :: saved ::
      frameMoments saved recipient (ratchetPayload ratchetHeader ciphertext) env.message
        [.wrote recipient session.sendingKey]

/-- The moments of a call, one after each statement that changes the client or writes to the
connection. -/
def sendMoments (c : Client K) (recipient : Address) (recipientKeyBundle : Option KeyBundle)
    (plaintext : Bytes) (env : SendEnv) : List (Moment K) :=
  if c.connected = false then []
  else
    match c.x3dhIdentity with
    | none => []
    | some identity =>
      match c.ratchetSessions.lookup recipient with
      | some session => encryptMoments ⟨c, [], []⟩ recipient session plaintext env
      | none =>
        match recipientKeyBundle.or (c.keyBundleCache.lookup recipient) with
        | none => []
        | some bundle =>
          match openSession K c.address recipient identity bundle env.randEphemeral with
          | .error _ => []
          | .ok (session, initialMsg) =>
            let stored : Moment K := ⟨c.setSession recipient session, [], [.opened recipient]⟩
            let saved := { stored with
              client := stored.client.persist recipient session env.saveNew }
            stored :: saved ::
              (frameMoments saved recipient (initialPayload initialMsg) env.initial [] ++
                match sendX3DHInitialMessage recipient initialMsg env.initial with
                | (_, .error _) => []
                | (frames, .ok ()) =>
                  encryptMoments { saved with frames := frames } recipient session plaintext env)

def lastMoment (c : Client K) (moments : List (Moment K)) : Moment K := moments.getLastD ⟨c, [], []⟩

theorem getLastD_append {α : Type*} (l l' : List α) (a : α) :
    (l ++ l').getLastD a = l'.getLastD (l.getLastD a) := by
  simp [getLastD_eq_getLast?, List.getLast?_append]

theorem frameMoments_last (before : Moment K) (recipient : Address) (payload : Bytes)
    (env : FrameEnv) (written : List (SessionEvent K)) :
    let last := (frameMoments before recipient payload env written).getLastD before
    last.client = before.client ∧
      last.frames = before.frames ++ (sendFrame recipient payload env).1 := by
  unfold frameMoments sendFrame
  cases env.buildOnion payload with
  | error e => exact ⟨rfl, (append_nil _).symm⟩
  | ok onion =>
    cases env.writeHeader with
    | error e => exact ⟨rfl, (append_nil _).symm⟩
    | ok => exact ⟨rfl, rfl⟩

theorem encryptMoments_last (before start : Moment K) (recipient : Address)
    (session : RatchetState K) (plaintext : Bytes) (env : SendEnv) :
    let last := (encryptMoments before recipient session plaintext env).getLastD start
    let sent := sendWithSession before.client recipient session plaintext env
    last.client = sent.client ∧ last.frames = before.frames ++ sent.frames := by
  unfold encryptMoments sendWithSession
  cases ratchetEncrypt session plaintext (aesEncryptGCM env.randNonce) with
  | mk session' result =>
    cases result with
    | error e => exact ⟨rfl, (append_nil _).symm⟩
    | ok out =>
      simp only [getLastD_cons]
      exact frameMoments_last _ _ _ _ _

theorem sendMoments_last (c : Client K) (recipient : Address)
    (recipientKeyBundle : Option KeyBundle) (plaintext : Bytes) (env : SendEnv) :
    let last := lastMoment c (sendMoments c recipient recipientKeyBundle plaintext env)
    let sent := sendRatchetMessage c recipient recipientKeyBundle plaintext env
    last.client = sent.client ∧ last.frames = sent.frames := by
  unfold lastMoment sendMoments sendRatchetMessage
  split
  · exact ⟨rfl, rfl⟩
  · cases c.x3dhIdentity with
    | none => exact ⟨rfl, rfl⟩
    | some identity =>
      cases c.ratchetSessions.lookup recipient with
      | some session => exact encryptMoments_last ⟨c, [], []⟩ _ recipient session plaintext env
      | none =>
        cases recipientKeyBundle.or (c.keyBundleCache.lookup recipient) with
        | none => exact ⟨rfl, rfl⟩
        | some bundle =>
          simp only
          cases openSession K c.address recipient identity bundle env.randEphemeral with
          | error e => exact ⟨rfl, rfl⟩
          | ok opened =>
            simp only [getLastD_cons]
            cases hsend : sendX3DHInitialMessage recipient opened.2 env.initial with
            | mk frames result =>
              cases result with
              | error e =>
                simp only [append_nil]
                have hlast := frameMoments_last
                  ⟨(c.setSession recipient opened.1).persist recipient opened.1 env.saveNew, [],
                    [.opened recipient]⟩ recipient (initialPayload opened.2) env.initial []
                rw [show sendFrame recipient (initialPayload opened.2) env.initial =
                  (frames, .error e) from hsend] at hlast
                exact hlast
              | ok =>
                rw [getLastD_append]
                exact encryptMoments_last _ _ recipient opened.1 plaintext env

/-! ## Runs with crashes -/

/-- The sessions that `LoadAllRatchetSessions` finds, if storage is attached and the file can be
read. -/
def Client.stored (c : Client K) : Option (SessionMap K) :=
  c.sessionStorage.bind fun file => file.load.toOption

/-- The process ended when the client was `c`, and `c'` is the client after the restart. -/
def Restarted (c c' : Client K) : Prop :=
  ∃ d d' : Device K, d.client = c ∧ d.restart = some d' ∧ d'.client = c'

def receiveEvents (c : Client K) (payload : Bytes) (env : ReceiveEnv) : List (SessionEvent K) :=
  match (handleDirectMessage c payload env).2 with
  | .sessionReady sender =>
    match c.ratchetSessions.lookup sender with
    | none => [.opened sender]
    | some _ => []
  | _ => []

def SendEnv.Saves (env : SendEnv) : Prop := env.saveNew = .written ∧ env.saveSent = .written

/-- The file writes of a received payload succeed, and Go iterates over each session once. -/
def ReceiveEnv.Saves (env : ReceiveEnv) (c : Client K) : Prop :=
  env.saveNew = .written ∧ env.Iterates c

/-- One call, or a call that ends in a crash, with the restart after it. -/
inductive CrashStep : Client K → List (SessionEvent K) → Client K → Prop
  | sent {c : Client K} (recipient bundle plaintext) (env : SendEnv) : env.Saves →
      CrashStep c (lastMoment c (sendMoments c recipient bundle plaintext env)).events
        (sendRatchetMessage c recipient bundle plaintext env).client
  | sendCrashed {c c' : Client K} (recipient bundle plaintext) (env : SendEnv)
      (moment : Moment K) : env.Saves →
      moment ∈ sendMoments c recipient bundle plaintext env → Restarted moment.client c' →
      CrashStep c moment.events c'
  | received {c : Client K} (payload) (env : ReceiveEnv) : env.Saves c →
      CrashStep c (receiveEvents c payload env) (handleDirectMessage c payload env).1
  -- A restart sees only the disk, and the handler writes it in one place. A crash before that
  -- place is `crashed`, one after it is `receiveCrashed`.
  | receiveCrashed {c c' : Client K} (payload) (env : ReceiveEnv) : env.Saves c →
      Restarted (handleDirectMessage c payload env).1 c' →
      CrashStep c (receiveEvents c payload env) c'
  | crashed {c c' : Client K} : Restarted c c' → CrashStep c [] c'
  -- connecting, key generation, the bundle cache
  | other {c c' : Client K} : c'.ratchetSessions = c.ratchetSessions →
      c'.sessionStorage = c.sessionStorage → CrashStep c [] c'

/-- A property of what was shown so far, the sessions in memory and those on disk that is kept by
everything that changes them. -/
structure CrashInvariant
    (I : List (SessionEvent K) → SessionMap K → Option (SessionMap K) → Prop) : Prop where
  /-- A session is created, and then saved. -/
  opened {evs : List (SessionEvent K)} {memory : SessionMap K} {disk : Option (SessionMap K)}
    {addr : Address} {s : RatchetState K} : I evs memory disk → memory.lookup addr = none →
    SessionStart s →
    I (evs ++ [.opened addr]) (memory.insert addr s) disk ∧
    I (evs ++ [.opened addr]) (memory.insert addr s) (disk.map (insert addr s))
  /-- A session encrypts, is then saved, and its ciphertext is then written. -/
  encrypted {evs : List (SessionEvent K)} {memory : SessionMap K} {disk : Option (SessionMap K)}
    {addr : Address} {s : RatchetState K} : I evs memory disk → memory.lookup addr = some s →
    I evs (memory.insert addr s.advanceSending) disk ∧
    I evs (memory.insert addr s.advanceSending) (disk.map (insert addr s.advanceSending)) ∧
    I (evs ++ [.wrote addr s.sendingKey]) (memory.insert addr s.advanceSending)
      (disk.map (insert addr s.advanceSending))
  /-- Some sessions have tried to decrypt a message. -/
  decrypted {evs : List (SessionEvent K)} {memory memory' : SessionMap K}
    {disk : Option (SessionMap K)} : I evs memory disk →
    (∀ addr, memory'.lookup addr = memory.lookup addr ∨ ∃ s ratchetHeader rand,
      memory.lookup addr = some s ∧
      memory'.lookup addr = some (receivingKey s ratchetHeader rand).1) →
    I evs memory' disk
  /-- Memory is loaded from disk. -/
  restarted {evs : List (SessionEvent K)} {memory : SessionMap K}
    {disk : Option (SessionMap K)} : I evs memory disk → I evs (disk.getD ∅) disk
  /-- A client without storage gets an empty directory. -/
  attached {evs : List (SessionEvent K)} {memory : SessionMap K} :
    I evs memory none → I evs ∅ (some ∅)

/-! ## The parts of a call -/

theorem stored_persist (c : Client K) (addr : Address) (session : RatchetState K) :
    (c.persist addr session .written).stored = c.stored.map (insert addr session) := by
  unfold stored persist
  cases c.sessionStorage with
  | none => rfl
  | some file =>
    cases file with
    | missing => rfl
    | sessions m => rfl
    | corrupt => rfl

theorem restarted_cases {c c' : Client K} (h : Restarted c c') :
    (c'.ratchetSessions = c.stored.getD ∅ ∧ c'.stored = c.stored) ∨
    (c.stored = none ∧ c'.ratchetSessions = ∅ ∧ c'.stored = some ∅) := by
  obtain ⟨d, d', rfl, hrestart, rfl⟩ := h
  obtain ⟨hsessions, hstorage⟩ := Device.restart_loaded hrestart
  unfold stored
  rw [hsessions, hstorage]
  cases d.client.sessionStorage with
  | none => exact .inr ⟨rfl, rfl, rfl⟩
  | some file => exact .inl ⟨rfl, rfl⟩

theorem openSession_start {address recipient : Address} {identity : IdentityKeyPair}
    {bundle : KeyBundle} {rand : Except String (ByteArr 32)} {session : RatchetState K}
    {initialMsg : InitialMessage}
    (h : openSession K address recipient identity bundle rand = .ok (session, initialMsg)) :
    SessionStart session := by
  unfold openSession at h
  split at h
  · cases h
  · cases h
    exact .initiator _ _ _ _ _ _

theorem frameMoments_mem {before moment : Moment K} {recipient : Address} {payload : Bytes}
    {env : FrameEnv} {written : List (SessionEvent K)}
    (h : moment ∈ frameMoments before recipient payload env written) :
    moment.client = before.client ∧
      (moment.events = before.events ∨ moment.events = before.events ++ written) := by
  unfold frameMoments at h
  split at h
  · cases h
  · split at h
    · cases h
    · rcases mem_pair.mp h with rfl | rfl
      · exact ⟨rfl, .inl rfl⟩
      · exact ⟨rfl, .inr rfl⟩

/-- What a received payload does to the sessions. -/
theorem receive_cases {c : Client K} (payload : Bytes) {env : ReceiveEnv} (hsaves : env.Saves c) :
    let c' := (handleDirectMessage c payload env).1
    (receiveEvents c payload env = [] ∧ c'.stored = c.stored ∧ ∀ addr,
      c'.ratchetSessions.lookup addr = c.ratchetSessions.lookup addr ∨
      ∃ s ratchetHeader rand, c.ratchetSessions.lookup addr = some s ∧
        c'.ratchetSessions.lookup addr = some (receivingKey s ratchetHeader rand).1) ∨
    ∃ sender session, SessionStart session ∧ c.ratchetSessions.lookup sender = none ∧
      receiveEvents c payload env = [.opened sender] ∧
      c'.ratchetSessions = c.ratchetSessions.insert sender session ∧
      c'.stored = c.stored.map (insert sender session) := by
  intro c'
  have hstored : ∀ {c₁ c₂ : Client K}, c₁.sessionStorage = c₂.sessionStorage →
      c₁.stored = c₂.stored := fun h => by rw [stored, h, stored]
  have hquiet (hnot : ∀ sender, (handleDirectMessage c payload env).2 ≠ .sessionReady sender) :
      receiveEvents c payload env = [] := by
    unfold receiveEvents
    split
    · next sender h => exact absurd h (hnot sender)
    · rfl
  rcases handleDirectMessage_cases c payload env with ⟨-, heq, hnot⟩ |
    ⟨-, initialMsg, heq, hout⟩ | ⟨-, ratchetHeader, ciphertext, -, heq, hnot⟩
  · exact .inl ⟨hquiet hnot, congrArg stored heq, fun addr => .inl (by rw [show c' = c from heq])⟩
  · rcases initializeRatchetSession_sessions c initialMsg.senderAddress initialMsg env.saveNew with
      ⟨hsome, hsessions, hstorage⟩ | ⟨hok, hnone, secret, spk, hsessions, hstorage⟩
    · rw [← heq] at hsessions hstorage
      refine .inl ⟨?_, hstored hstorage, fun addr => .inl (congrArg (·.lookup addr) hsessions)⟩
      rcases hout with ⟨hok, hready⟩ | ⟨-, hnot⟩
      · obtain ⟨session, hsession⟩ := Option.ne_none_iff_exists'.mp (hsome hok)
        simp only [receiveEvents, hready, hsession]
      · exact hquiet hnot
    · rw [← heq] at hsessions hstorage
      rcases hout with ⟨-, hready⟩ | ⟨herror, -⟩
      · refine .inr ⟨_, _, .responder secret spk _ _ _, hnone, ?_, hsessions, ?_⟩
        · simp only [receiveEvents, hready, hnone]
        · rw [hstored hstorage, hsaves.1, stored_persist]
      · exact absurd hok herror
  · refine .inl ⟨hquiet hnot, hstored ?_, fun addr => ?_⟩
    · obtain ⟨sessions, hclient⟩ := trySessions_client c env.order
      rw [show c' = _ from heq, hclient]
    · rw [show c' = _ from heq]
      rcases trySessions_lookup hsaves.2.nodup addr with hsame | ⟨session, hsession, hafter⟩
      · exact .inl hsame
      · refine .inr ⟨session, ratchetHeader, env.rand addr, hsession, ?_⟩
        rw [hafter, ratchetDecrypt_state]

section Preserved

variable {I : List (SessionEvent K) → SessionMap K → Option (SessionMap K) → Prop}
  {evs : List (SessionEvent K)}

namespace CrashInvariant

variable {recipient : Address} {plaintext : Bytes}

theorem at_encryptMoments (hI : CrashInvariant I) {before moment : Moment K}
    {session : RatchetState K} {env : SendEnv} (hsaves : env.Saves)
    (h : I (evs ++ before.events) before.client.ratchetSessions before.client.stored)
    (hsession : before.client.ratchetSessions.lookup recipient = some session)
    (hmem : moment ∈ encryptMoments before recipient session plaintext env) :
    I (evs ++ moment.events) moment.client.ratchetSessions moment.client.stored := by
  obtain ⟨hmoved, hsaved, hwritten⟩ := hI.encrypted h hsession
  have hstate := ratchetEncrypt_state session plaintext (aesEncryptGCM env.randNonce)
  unfold encryptMoments at hmem
  generalize ratchetEncrypt session plaintext (aesEncryptGCM env.randNonce) = out at hmem hstate
  obtain ⟨session', result⟩ := out
  obtain rfl : session' = session.advanceSending := hstate
  rw [hsaves.2] at hmem
  cases result with
  | error e =>
    rw [mem_singleton.mp hmem]
    exact hmoved
  | ok out =>
    rcases mem_cons.mp hmem with rfl | hmem
    · exact hmoved
    · have hstored := stored_persist (before.client.setSession recipient session.advanceSending)
        recipient session.advanceSending
      rcases mem_cons.mp hmem with rfl | hmem
      · rw [hstored]
        exact hsaved
      · obtain ⟨hclient, hevents⟩ := frameMoments_mem hmem
        rw [hclient, hstored]
        rcases hevents with hevents | hevents
        · rw [hevents]
          exact hsaved
        · rw [hevents, ← append_assoc]
          exact hwritten

variable {c : Client K}

theorem at_sendMoments (hI : CrashInvariant I) {moment : Moment K} {bundle : Option KeyBundle}
    {env : SendEnv} (hsaves : env.Saves) (h : I evs c.ratchetSessions c.stored)
    (hmem : moment ∈ sendMoments c recipient bundle plaintext env) :
    I (evs ++ moment.events) moment.client.ratchetSessions moment.client.stored := by
  unfold sendMoments at hmem
  split at hmem
  · cases hmem
  split at hmem
  · cases hmem
  split at hmem
  · next session hsession =>
    have hstart : I (evs ++ []) c.ratchetSessions c.stored := by
      rw [append_nil]
      exact h
    exact hI.at_encryptMoments hsaves hstart hsession hmem
  next hnone =>
  split at hmem
  · cases hmem
  split at hmem
  · cases hmem
  next identity _ _ _ bundle _ _ session initialMsg hopen =>
  obtain ⟨hstored, hsaved⟩ := hI.opened h hnone (openSession_start hopen)
  have hdisk := stored_persist (c.setSession recipient session) recipient session
  rw [hsaves.1] at hmem
  rcases mem_cons.mp hmem with rfl | hmem
  · exact hstored
  have hsaved' : I (evs ++ [.opened recipient])
      ((c.setSession recipient session).persist recipient session .written).ratchetSessions
      ((c.setSession recipient session).persist recipient session .written).stored := by
    rw [hdisk]
    exact hsaved
  rcases mem_cons.mp hmem with rfl | hmem
  · exact hsaved'
  rcases mem_append.mp hmem with hmem | hmem
  · obtain ⟨hclient, hevents⟩ := frameMoments_mem hmem
    rw [append_nil, or_self] at hevents
    rw [hclient, hevents]
    exact hsaved'
  · split at hmem
    · cases hmem
    · exact hI.at_encryptMoments hsaves hsaved' (lookup_insert _) hmem

theorem at_restarted (hI : CrashInvariant I) {c' : Client K} (h : I evs c.ratchetSessions c.stored)
    (hrestart : Restarted c c') : I evs c'.ratchetSessions c'.stored := by
  rcases restarted_cases hrestart with ⟨hsessions, hstored⟩ | ⟨hnone, hsessions, hstored⟩
  · rw [hsessions, hstored]
    exact hI.restarted h
  · rw [hsessions, hstored]
    rw [hnone] at h
    exact hI.attached h

theorem at_received (hI : CrashInvariant I) (payload : Bytes) {env : ReceiveEnv}
    (hsaves : env.Saves c) (h : I evs c.ratchetSessions c.stored) :
    I (evs ++ receiveEvents c payload env) (handleDirectMessage c payload env).1.ratchetSessions
      (handleDirectMessage c payload env).1.stored := by
  rcases receive_cases payload hsaves with ⟨hevents, hstored, hsessions⟩ |
    ⟨sender, session, hstart, hnone, hevents, hsessions, hstored⟩
  · rw [hevents, hstored, append_nil]
    exact hI.decrypted h hsessions
  · rw [hevents, hsessions, hstored]
    exact (hI.opened h hnone hstart).2

theorem step (hI : CrashInvariant I) {c' : Client K} {shown : List (SessionEvent K)}
    (h : I evs c.ratchetSessions c.stored) (hstep : CrashStep c shown c') :
    I (evs ++ shown) c'.ratchetSessions c'.stored := by
  cases hstep with
  | sent recipient bundle plaintext env hsaves =>
    rw [← (sendMoments_last c recipient bundle plaintext env).1]
    have hmem : lastMoment c (sendMoments c recipient bundle plaintext env) ∈
        ⟨c, [], []⟩ :: sendMoments c recipient bundle plaintext env := getLastD_mem_cons
    rcases mem_cons.mp hmem with hlast | hlast
    · rw [hlast, append_nil]
      exact h
    · exact hI.at_sendMoments hsaves h hlast
  | sendCrashed recipient bundle plaintext env moment hsaves hmem hrestart =>
    exact hI.at_restarted (hI.at_sendMoments hsaves h hmem) hrestart
  | received payload env hsaves => exact hI.at_received payload hsaves h
  | receiveCrashed payload env hsaves hrestart =>
    exact hI.at_restarted (hI.at_received payload hsaves h) hrestart
  | crashed hrestart =>
    rw [append_nil]
    exact hI.at_restarted h hrestart
  | other hsessions hstorage =>
    rw [append_nil, hsessions, stored, hstorage]
    exact h

/-- What a run starts with and everything keeps holds at its end. -/
theorem run (hI : CrashInvariant I) {c₀ : Client K} {shown : List (List (SessionEvent K))}
    (h₀ : I [] c₀.ratchetSessions c₀.stored) (hrun : Run CrashStep c₀ shown c) :
    I shown.flatten c.ratchetSessions c.stored := by
  refine hrun.trace_invariant (I := fun (shown : List (List (SessionEvent K))) (c : Client K) =>
    I shown.flatten c.ratchetSessions c.stored) h₀ ?_
  intro evs e c c' h hstep
  rw [flatten_concat]
  exact hI.step h hstep

end CrashInvariant

end Preserved

/-! ## Keys of written ciphertexts -/

def writtenKeys (addr : Address) (evs : List (SessionEvent K)) : List K.MessageKey :=
  evs.filterMap fun
    | .opened _ => none
    | .wrote a key => if a = addr then some key else none

def keysAfter (addr : Address) (keys : List K.MessageKey) : SessionEvent K → List K.MessageKey
  | .opened a => if a = addr then [] else keys
  | .wrote a key => if a = addr then keys ++ [key] else keys

def sessionKeys (addr : Address) (evs : List (SessionEvent K)) : List K.MessageKey :=
  evs.foldl (keysAfter addr) []

def SessionEvent.addr : SessionEvent K → Address
  | .opened addr => addr
  | .wrote addr _ => addr

section

variable (addr : Address) (evs : List (SessionEvent K))

theorem sessionKeys_concat (e : SessionEvent K) :
    sessionKeys addr (evs ++ [e]) = keysAfter addr (sessionKeys addr evs) e := by
  rw [sessionKeys, foldl_concat]
  rfl

theorem sessionKeys_opened : sessionKeys addr (evs ++ [.opened addr]) = [] := by
  rw [sessionKeys_concat, keysAfter, if_pos rfl]

theorem sessionKeys_wrote (key : K.MessageKey) :
    sessionKeys addr (evs ++ [.wrote addr key]) = sessionKeys addr evs ++ [key] := by
  rw [sessionKeys_concat, keysAfter, if_pos rfl]

variable {e : SessionEvent K} {evs : List (SessionEvent K)} {s : RatchetState K}
  {keys : List K.MessageKey} {m : SessionMap K}

theorem sessionKeys_other {a : Address} (h : a ≠ e.addr) (evs : List (SessionEvent K)) :
    sessionKeys a (evs ++ [e]) = sessionKeys a evs := by
  rw [sessionKeys_concat]
  cases e with
  | opened addr => exact if_neg (Ne.symm h)
  | wrote addr key => exact if_neg (Ne.symm h)

theorem nodup_sessionKeys (h : ∀ a, (sessionKeys a evs).Nodup)
    (he : (sessionKeys e.addr (evs ++ [e])).Nodup) (a : Address) :
    (sessionKeys a (evs ++ [e])).Nodup := by
  by_cases ha : a = e.addr
  · rw [ha]
    exact he
  · rw [sessionKeys_other ha]
    exact h a

theorem writtenKeys_opened (addr a : Address) (evs : List (SessionEvent K)) :
    writtenKeys addr (evs ++ [.opened a]) = writtenKeys addr evs := by
  rw [writtenKeys, filterMap_append]
  exact append_nil _

theorem writtenKeys_wrote (addr a : Address) (evs : List (SessionEvent K)) (key : K.MessageKey) :
    writtenKeys addr (evs ++ [.wrote a key]) =
      if a = addr then writtenKeys addr evs ++ [key] else writtenKeys addr evs := by
  rw [writtenKeys, filterMap_append]
  by_cases h : a = addr
  · simp only [if_pos h, filterMap_cons, filterMap_nil]
    rfl
  · simp only [if_neg h, filterMap_cons, filterMap_nil, append_nil]
    rfl

/-! ## One session -/

/-- The keys are on older chains of the session, or behind the position of its sending chain. -/
def SendSafe (keys : List K.MessageKey) (s : RatchetState K) : Prop :=
  ∃ o n, Known s.rootKey o ∧ s.sendingChainKey = K.chainAt o n ∧
    ∀ key ∈ keys, Behind s.rootKey o n key

theorem SendSafe.start (h : SessionStart s) : SendSafe [] s := by
  cases h with
  | initiator => exact ⟨_, 0, known_new _ _, rfl, fun _ h => (nomatch h)⟩
  | receiver => exact ⟨_, 0, .inl rfl, rfl, fun _ h => (nomatch h)⟩
  | responder => exact ⟨_, 0, .inl rfl, rfl, fun _ h => (nomatch h)⟩

theorem SendSafe.forget (h : SendSafe keys s) : SendSafe [] s := by
  obtain ⟨o, n, horigin, hchain, -⟩ := h
  exact ⟨o, n, horigin, hchain, fun _ h => (nomatch h)⟩

theorem SendSafe.encrypt (hkdf : IdealKdf K) (h : SendSafe keys s) :
    s.sendingKey ∉ keys ∧ SendSafe (keys ++ [s.sendingKey]) s.advanceSending := by
  obtain ⟨o, n, horigin, hchain, hbehind⟩ := h
  have hkey : s.sendingKey = K.keyAt o n := by rw [RatchetState.sendingKey, hchain, Suite.keyAt]
  constructor
  · intro hmem
    exact (hbehind _ hmem).ne_keyAt hkdf horigin (Nat.le_refl n) hkey
  · refine ⟨o, n + 1, horigin, ?_, ?_⟩
    · show K.nextChainKey s.sendingChainKey = _
      rw [hchain, K.chainAt_succ]
    · intro key hmem
      rcases mem_append.mp hmem with hmem | hmem
      · exact (hbehind key hmem).mono (Nat.le_succ n)
      · rw [mem_singleton.mp hmem]
        exact ⟨o, n, horigin, hkey, fun _ => Nat.lt_succ_self n⟩

theorem SendSafe.of_append {more : List K.MessageKey} (h : SendSafe (keys ++ more) s) :
    SendSafe keys s := by
  obtain ⟨o, n, horigin, hchain, hbehind⟩ := h
  exact ⟨o, n, horigin, hchain, fun key hmem => hbehind key (mem_append_left _ hmem)⟩

/-- A decryption moves to a new chain or stays where it is. -/
theorem SendSafe.decrypt (hkdf : IdealKdf K) (h : SendSafe keys s) (ratchetHeader : Bytes)
    (rand : RandomKey) : SendSafe keys (receivingKey s ratchetHeader rand).1 := by
  obtain ⟨o, n, horigin, hchain, hbehind⟩ := h
  have hsending : Sending (fun _ => True) s (receivingKey s ratchetHeader rand).1 :=
    Sending.cases s ratchetHeader fun _ _ => trivial
  cases hsending with
  | kept hroot hkept =>
    refine ⟨o, n, ?_, hkept.trans hchain, ?_⟩ <;> rw [hroot]
    · exact horigin
    · exact hbehind
  | mixed d hroot hkept =>
    refine ⟨o, n, ?_, hkept.trans hchain, ?_⟩ <;> rw [hroot]
    · exact known_mix horigin d
    · exact fun key hmem => (hbehind key hmem).mix d
  | ratcheted d d' hroot hnew =>
    refine ⟨_, 0, ?_, hnew, ?_⟩ <;> rw [hroot]
    · exact known_new _ d'
    · exact fun key hmem => ((hbehind key hmem).mix d).new hkdf d'

/-! ## All sessions of a map -/

def AllSafe (keys : Address → List K.MessageKey) (m : SessionMap K) : Prop :=
  ∀ addr s, m.lookup addr = some s → SendSafe (keys addr) s

theorem AllSafe.empty (keys : Address → List K.MessageKey) : AllSafe keys ∅ := by
  intro addr s h
  cases h

theorem AllSafe.insert {keys keys' : Address → List K.MessageKey} {addr : Address}
    (h : AllSafe keys m) (hs : SendSafe (keys' addr) s)
    (hothers : ∀ a, a ≠ addr → keys' a = keys a) :
    AllSafe keys' (m.insert addr s) := by
  intro a s' hlook
  by_cases ha : a = addr
  · subst ha
    rw [lookup_insert] at hlook
    cases hlook
    exact hs
  · rw [lookup_insert_of_ne _ ha] at hlook
    rw [hothers a ha]
    exact h a s' hlook

theorem AllSafe.insert_event (h : AllSafe (sessionKeys · evs) m)
    (hs : SendSafe (sessionKeys e.addr (evs ++ [e])) s) :
    AllSafe (sessionKeys · (evs ++ [e])) (m.insert e.addr s) :=
  h.insert hs fun _ ha => sessionKeys_other ha evs

theorem AllSafe.opened (h : AllSafe (sessionKeys · evs) m) (addr : Address) :
    AllSafe (sessionKeys · (evs ++ [.opened addr])) m := by
  intro a s hlook
  show SendSafe (sessionKeys a (evs ++ [.opened addr])) s
  rw [sessionKeys_concat, keysAfter]
  split
  · exact (h a s hlook).forget
  · exact h a s hlook

/-! ## Memory and disk -/

theorem forall_map_insert {P Q : SessionMap K → Prop} {disk : Option (SessionMap K)}
    {addr : Address} (h : ∀ m, disk = some m → P m) (hinsert : ∀ m, P m → Q (m.insert addr s)) :
    ∀ m, disk.map (insert addr s) = some m → Q m := by
  intro m hm
  obtain ⟨m₀, hm₀, rfl⟩ := Option.map_eq_some_iff.mp hm
  exact hinsert m₀ (h m₀ hm₀)

/-- Everything written for a session is behind its sending chain in memory and on disk, and no
key was used twice. -/
structure Durable (evs : List (SessionEvent K)) (memory : SessionMap K)
    (disk : Option (SessionMap K)) : Prop where
  memory : AllSafe (sessionKeys · evs) memory
  disk : ∀ m, disk = some m → AllSafe (sessionKeys · evs) m
  once : ∀ addr, (sessionKeys addr evs).Nodup

theorem durable_invariant (hkdf : IdealKdf K) : CrashInvariant (K := K) Durable where
  opened := by
    intro evs memory disk addr s h _ hstart
    have hinsert : ∀ m, AllSafe (sessionKeys · evs) m →
        AllSafe (sessionKeys · (evs ++ [.opened addr])) (m.insert addr s) := by
      intro m hm
      refine hm.insert_event ?_
      rw [SessionEvent.addr, sessionKeys_opened]
      exact SendSafe.start hstart
    have honce : ∀ a, (sessionKeys a (evs ++ [.opened addr])).Nodup := by
      refine nodup_sessionKeys h.once ?_
      rw [SessionEvent.addr, sessionKeys_opened]
      exact nodup_nil
    exact ⟨⟨hinsert _ h.memory, fun m hm => (h.disk m hm).opened addr, honce⟩,
      hinsert _ h.memory, forall_map_insert h.disk hinsert, honce⟩
  encrypted := by
    intro evs memory disk addr s h hsession
    obtain ⟨hnew, hpast⟩ := (h.memory addr s hsession).encrypt hkdf
    have hmoved : ∀ m, AllSafe (sessionKeys · evs) m →
        AllSafe (sessionKeys · evs) (m.insert addr s.advanceSending) :=
      fun m hm => hm.insert hpast.of_append fun _ _ => rfl
    have hwritten : ∀ m, AllSafe (sessionKeys · evs) m →
        AllSafe (sessionKeys · (evs ++ [.wrote addr s.sendingKey]))
          (m.insert addr s.advanceSending) := by
      intro m hm
      refine hm.insert_event ?_
      rw [SessionEvent.addr, sessionKeys_wrote]
      exact hpast
    have honce : ∀ a, (sessionKeys a (evs ++ [.wrote addr s.sendingKey])).Nodup := by
      refine nodup_sessionKeys h.once ?_
      rw [SessionEvent.addr, sessionKeys_wrote]
      exact nodup_append_comm.mp (nodup_cons.mpr ⟨hnew, h.once addr⟩)
    exact ⟨⟨hmoved _ h.memory, h.disk, h.once⟩,
      ⟨hmoved _ h.memory, forall_map_insert h.disk hmoved, h.once⟩,
      hwritten _ h.memory, forall_map_insert h.disk hwritten, honce⟩
  decrypted := by
    intro evs memory memory' disk h hsessions
    refine ⟨fun addr s hlook => ?_, h.disk, h.once⟩
    rcases hsessions addr with hsame | ⟨s₀, ratchetHeader, rand, hbefore, hafter⟩
    · exact h.memory addr s (hsame ▸ hlook)
    · rw [hafter] at hlook
      cases hlook
      exact (h.memory addr s₀ hbefore).decrypt hkdf ratchetHeader rand
  restarted := by
    intro evs memory disk h
    refine ⟨?_, h.disk, h.once⟩
    cases disk with
    | none => exact AllSafe.empty _
    | some m => exact h.disk m rfl
  attached := by
    intro evs memory h
    exact ⟨AllSafe.empty _, fun m hm => Option.some.inj hm ▸ AllSafe.empty _, h.once⟩

/-- A session with written ciphertexts is on disk, and what is on disk is in memory: such a session
is never opened anew. -/
structure Kept (evs : List (SessionEvent K)) (memory : SessionMap K)
    (disk : Option (SessionMap K)) : Prop where
  stored : ∃ m, disk = some m ∧ (∀ addr, writtenKeys addr evs ≠ [] → addr ∈ m) ∧
    ∀ addr, addr ∈ m → addr ∈ memory
  same : ∀ addr, sessionKeys addr evs = writtenKeys addr evs

theorem mem_insert_mono {memory : SessionMap K} (h : ∀ a, a ∈ m → a ∈ memory) (addr : Address)
    (s : RatchetState K) : ∀ a, a ∈ m.insert addr s → a ∈ memory.insert addr s := by
  intro a ha
  rcases mem_insert.mp ha with rfl | ha
  · exact mem_insert.mpr (.inl rfl)
  · exact mem_insert.mpr (.inr (h a ha))

theorem kept_invariant : CrashInvariant (K := K) Kept where
  opened := by
    intro evs memory disk addr s h hnone _
    obtain ⟨⟨m, rfl, hwritten, hloaded⟩, hsame⟩ := h
    have hunused : writtenKeys addr evs = [] := by
      by_contra hne
      exact lookup_eq_none.mp hnone (hloaded addr (hwritten addr hne))
    have hsame' : ∀ a, sessionKeys a (evs ++ [.opened addr]) =
        writtenKeys a (evs ++ [.opened addr]) := by
      intro a
      rw [sessionKeys_concat, writtenKeys_opened, keysAfter]
      split
      · next ha => rw [← ha, hunused]
      · exact hsame a
    simp only [← writtenKeys_opened _ addr evs] at hwritten
    exact ⟨⟨⟨m, rfl, hwritten, fun a ha => mem_insert.mpr (.inr (hloaded a ha))⟩, hsame'⟩,
      ⟨_, rfl, fun a ha => mem_insert.mpr (.inr (hwritten a ha)),
        mem_insert_mono hloaded addr s⟩, hsame'⟩
  encrypted := by
    intro evs memory disk addr s h hsession
    obtain ⟨⟨m, rfl, hwritten, hloaded⟩, hsame⟩ := h
    have hmemory : ∀ a, a ∈ m → a ∈ memory.insert addr s.advanceSending :=
      fun a ha => mem_insert.mpr (.inr (hloaded a ha))
    have hmemory' := mem_insert_mono hloaded addr s.advanceSending
    refine ⟨⟨⟨m, rfl, hwritten, hmemory⟩, hsame⟩, ⟨⟨_, rfl, ?_, hmemory'⟩, hsame⟩,
      ⟨⟨_, rfl, ?_, hmemory'⟩, ?_⟩⟩
    · exact fun a ha => mem_insert.mpr (.inr (hwritten a ha))
    · intro a ha
      rw [writtenKeys_wrote] at ha
      split at ha
      · next heq => exact mem_insert.mpr (.inl heq.symm)
      · exact mem_insert.mpr (.inr (hwritten a ha))
    · intro a
      rw [sessionKeys_concat, writtenKeys_wrote, keysAfter, hsame a]
  decrypted := by
    intro evs memory memory' disk h hsessions
    obtain ⟨⟨m, hdisk, hwritten, hloaded⟩, hsame⟩ := h
    refine ⟨⟨m, hdisk, hwritten, fun addr ha => ?_⟩, hsame⟩
    rcases hsessions addr with hkept | ⟨_, _, _, -, hafter⟩
    · rw [← lookup_isSome, hkept, lookup_isSome]
      exact hloaded addr ha
    · exact mem_of_lookup_eq_some hafter
  restarted := by
    intro evs memory disk h
    obtain ⟨⟨m, rfl, hwritten, -⟩, hsame⟩ := h
    exact ⟨⟨m, rfl, hwritten, fun _ ha => ha⟩, hsame⟩
  attached := by
    intro evs memory h
    obtain ⟨m, hnone, -⟩ := h.stored
    cases hnone

end

/-- No two ciphertexts that a client writes for one session use the same message key, however often
it crashes. With storage this holds of all ciphertexts to a peer. -/
theorem no_key_written_twice (hkdf : IdealKdf K) {c₀ c : Client K}
    {shown : List (List (SessionEvent K))} (hmemory : c₀.ratchetSessions = ∅)
    (hdisk : ∀ m, c₀.stored = some m → m = ∅) (hrun : Run CrashStep c₀ shown c) (addr : Address) :
    (sessionKeys addr shown.flatten).Nodup ∧
    (c₀.stored.isSome → (writtenKeys addr shown.flatten).Nodup) := by
  have hdurable : Durable [] c₀.ratchetSessions c₀.stored :=
    ⟨hmemory ▸ AllSafe.empty _, fun m hm => hdisk m hm ▸ AllSafe.empty _, fun _ => nodup_nil⟩
  have hnodup := ((durable_invariant hkdf).run hdurable hrun).once addr
  refine ⟨hnodup, fun hattached => ?_⟩
  obtain ⟨m, hstored⟩ := Option.isSome_iff_exists.mp hattached
  have hkept : Kept [] c₀.ratchetSessions c₀.stored := by
    refine ⟨⟨m, hstored, fun _ hne => absurd rfl hne, ?_⟩, fun _ => rfl⟩
    rw [hdisk m hstored, hmemory]
    exact fun _ h => h
  rw [← (kept_invariant.run hkept hrun).same addr]
  exact hnodup

def storingClient : Client freeSuite :=
  { sampleClient 1 ∅ with sessionStorage := some .missing }

def resumed (file : SessionFile freeSuite) (sessions : SessionMap freeSuite) : Client freeSuite :=
  { sampleClient 1 sessions with sessionStorage := some file }

set_option maxRecDepth 4000 in
theorem no_key_written_twice_crash : ∃ shown c, Run CrashStep storingClient shown c ∧
    (writtenKeys (fill 20 2) shown.flatten).length = 2 ∧
    (writtenKeys (fill 20 2) shown.flatten).Nodup := by
  let bundle := (sampleHandshake ∅).bundle
  let moments := sendMoments storingClient (fill 20 2) (some bundle) [7] (sampleSend 5)
  let crash := lastMoment storingClient moments
  have hcrash : crash ∈ moments := mem_of_getElem? (i := 7) rfl
  let device : Device freeSuite := ⟨crash.client, 0, .missing, .missing⟩
  have h₁ : Run CrashStep storingClient _ _ := Run.nil.snoc
    (.sendCrashed (fill 20 2) (some bundle) [7] (sampleSend 5) crash ⟨rfl, rfl⟩ hcrash
      ⟨device, _, rfl, rfl, rfl⟩)
  have h₂ : Run CrashStep storingClient _ (resumed _ _) := h₁.snoc (.other rfl rfl)
  have h₃ := h₂.snoc (.sent (fill 20 2) none [8] (sampleSend 6) ⟨rfl, rfl⟩)
  refine ⟨_, _, h₃, by decide +kernel, ?_⟩
  exact (no_key_written_twice freeSuite_ideal rfl (by rintro m h; cases h; rfl) h₃ _).2 rfl

end Zentalk
