import Zentalk.Network.Establish

/-!
# Payloads from client to client

`send_cases`: a send fails, goes on with the session there is, or opens one and stores it.
-/

namespace Zentalk

open Wire List Finmap Client

variable {K : Suite}

def IsInitial (payload : Bytes) : Prop := 4 < payload.length ∧ slice payload 0 4 = x3dhMarker

/-! ## What a call depends on -/

def FrameEnv.delivers (env : FrameEnv) (payload : Bytes) : Bool :=
  (env.buildOnion payload).isOk && env.writeHeader.isOk && env.writeOnion.isOk

/-- The outside lets the next message of this session through. -/
def SendEnv.writes (env : SendEnv) (session : RatchetState K) (plaintext : Bytes) : Bool :=
  match env.randNonce with
  | .error _ => false
  | .ok nonce => env.message.delivers (ratchetPayload session.nextHeader.encode
      (nonce.bytes ++ K.gcmSeal nonce plaintext session.sendingKey))

/-- The session that a call of `SendRatchetMessage` finds. -/
def Client.current (c : Client K) (recipient : Address) : Option (RatchetState K) :=
  match c.connected, c.x3dhIdentity with
  | true, some _ => c.ratchetSessions.lookup recipient
  | _, _ => none

/-- The session that a call opens when it finds none, with its initial message. -/
def Client.opening (c : Client K) (recipient : Address) (recipientKeyBundle : Option KeyBundle)
    (rand : Except String (ByteArr 32)) : Option (RatchetState K × InitialMessage) :=
  match c.connected, c.x3dhIdentity, c.ratchetSessions.lookup recipient,
      recipientKeyBundle.or (c.keyBundleCache.lookup recipient) with
  | true, some identity, none, some bundle =>
    (openSession K c.address recipient identity bundle rand).toOption
  | _, _, _, _ => none

/-! ## Sending -/

theorem sendFrame_cases (recipient : Address) (payload : Bytes) (env : FrameEnv) :
    (env.delivers payload = false ∧
      ∃ frames e, sendFrame recipient payload env = (frames, .error e) ∧
        ∀ f ∈ frames, ¬ f.Complete) ∨
    (env.delivers payload = true ∧ ∃ f, sendFrame recipient payload env = ([f], .ok ()) ∧
      f.Complete ∧ f.recipient = recipient ∧ f.payload = payload) := by
  unfold sendFrame FrameEnv.delivers
  cases env.buildOnion payload with
  | error e => exact .inl ⟨rfl, [], e, rfl, fun _ h => nomatch h⟩
  | ok onion =>
    cases env.writeHeader with
    | error e => exact .inl ⟨rfl, [], e, rfl, fun _ h => nomatch h⟩
    | ok =>
      cases env.writeOnion with
      | error e =>
        refine .inl ⟨rfl, _, e, rfl, fun f hf => ?_⟩
        rw [mem_singleton.mp hf]
        exact fun h => nomatch h
      | ok => exact .inr ⟨rfl, _, rfl, rfl, rfl, rfl⟩

/-- A send changes nothing in a client but its sessions and what is stored of them. -/
structure SameKeys (c c' : Client K) : Prop where
  address : c'.address = c.address
  identity : c'.x3dhIdentity = c.x3dhIdentity
  signedPreKey : c'.signedPreKey = c.signedPreKey
  oneTimePreKeys : c'.oneTimePreKeys = c.oneTimePreKeys

theorem sameKeys_persist (c : Client K) (addr : Address) (session stored : RatchetState K)
    (outcome : WriteOutcome) :
    SameKeys c ((c.setSession addr session).persist addr stored outcome) := ⟨rfl, rfl, rfl, rfl⟩

variable {c c' : Client K} {peer : Address} {session : RatchetState K}

theorem SameKeys.trans {c'' : Client K} (h : SameKeys c c') (h' : SameKeys c' c'') :
    SameKeys c c'' :=
  ⟨h'.address.trans h.address, h'.identity.trans h.identity,
    h'.signedPreKey.trans h.signedPreKey, h'.oneTimePreKeys.trans h.oneTimePreKeys⟩

/-- From `RatchetEncrypt` on: the chain has moved, and the message was written or lost. -/
theorem sendWithSession_cases (c : Client K) (recipient : Address) (session : RatchetState K)
    (plaintext : Bytes) (env : SendEnv) :
    ∃ c' frames result, sendWithSession c recipient session plaintext env = ⟨c', frames, result⟩ ∧
      SameKeys c c' ∧
      c'.ratchetSessions = c.ratchetSessions.insert recipient session.advanceSending ∧
      ((env.writes session plaintext = false ∧ ∃ e, result = .error e ∧
          ∀ f ∈ frames, ¬ f.Complete) ∨
        (env.writes session plaintext = true ∧ ∃ f nonce, result = .ok () ∧ frames = [f] ∧
          f.Complete ∧ f.recipient = recipient ∧
          f.payload = ratchetPayload session.nextHeader.encode
            (nonce.bytes ++ K.gcmSeal nonce plaintext session.sendingKey))) := by
  cases hnonce : env.randNonce with
  | error e =>
    simp only [sendWithSession, ratchetEncrypt, aesEncryptGCM, SendEnv.writes, hnonce]
    exact ⟨_, _, _, rfl, ⟨rfl, rfl, rfl, rfl⟩, rfl, .inl ⟨trivial, _, rfl, fun _ h => nomatch h⟩⟩
  | ok nonce =>
    simp only [sendWithSession, ratchetEncrypt, aesEncryptGCM, SendEnv.writes, hnonce]
    refine ⟨_, _, _, rfl, sameKeys_persist _ _ _ _ _, rfl, ?_⟩
    obtain ⟨hlost, frames, e, h, hframes⟩ | ⟨hwritten, f, h, hcomplete, hto, hpayload⟩ :=
      sendFrame_cases recipient (ratchetPayload session.nextHeader.encode
        (nonce.bytes ++ K.gcmSeal nonce plaintext session.sendingKey)) env.message
    · rw [h]
      exact .inl ⟨hlost, e, rfl, hframes⟩
    · rw [h]
      exact .inr ⟨hwritten, f, nonce, rfl, rfl, hcomplete, hto, hpayload⟩

section Sends

variable (c : Client K) (recipient : Address) (recipientKeyBundle : Option KeyBundle)
  (plaintext : Bytes) (env : SendEnv)

/-- The send opens no session: it fails, or goes on with the one there is. -/
def SendsCurrent : Prop :=
  (c.opening recipient recipientKeyBundle env.randEphemeral = none ∧ c.current recipient = none ∧
    ∃ e, sendRatchetMessage c recipient recipientKeyBundle plaintext env = ⟨c, [], .error e⟩) ∨
  (c.opening recipient recipientKeyBundle env.randEphemeral = none ∧
    ∃ session, c.current recipient = some session ∧
      c.ratchetSessions.lookup recipient = some session ∧
      sendRatchetMessage c recipient recipientKeyBundle plaintext env =
        sendWithSession c recipient session plaintext env)

/-- The send opens `session`, which is stored whether or not its initial message gets through. -/
def SendsOpened (session : RatchetState K) (initialMsg : InitialMessage) : Prop :=
  c.opening recipient recipientKeyBundle env.randEphemeral = some (session, initialMsg) ∧
  let c₁ := (c.setSession recipient session).persist recipient session env.saveNew
  ((env.initial.delivers (initialPayload initialMsg) = false ∧
      ∃ frames e, (∀ f ∈ frames, ¬ f.Complete) ∧
      sendRatchetMessage c recipient recipientKeyBundle plaintext env = ⟨c₁, frames, .error e⟩) ∨
    (env.initial.delivers (initialPayload initialMsg) = true ∧
      ∃ f, f.Complete ∧ f.recipient = recipient ∧ f.payload = initialPayload initialMsg ∧
      let sent := sendWithSession c₁ recipient session plaintext env
      sendRatchetMessage c recipient recipientKeyBundle plaintext env =
        ⟨sent.client, f :: sent.frames, sent.result⟩))

theorem sendRatchetMessage_cases :
    SendsCurrent c recipient recipientKeyBundle plaintext env ∨
    ∃ identity bundle session initialMsg, c.ratchetSessions.lookup recipient = none ∧
      c.x3dhIdentity = some identity ∧
      recipientKeyBundle.or (c.keyBundleCache.lookup recipient) = some bundle ∧
      openSession K c.address recipient identity bundle env.randEphemeral =
        .ok (session, initialMsg) ∧
      SendsOpened c recipient recipientKeyBundle plaintext env session initialMsg := by
  unfold SendsCurrent SendsOpened
  cases hconn : c.connected with
  | false =>
    simp only [sendRatchetMessage, opening, current, hconn, if_true]
    exact .inl (.inl ⟨trivial, trivial, _, rfl⟩)
  | true =>
    simp only [sendRatchetMessage, opening, current, hconn, Bool.true_eq_false,
      if_false]
    cases hid : c.x3dhIdentity with
    | none => exact .inl (.inl ⟨rfl, rfl, _, rfl⟩)
    | some identity =>
      cases hsession : c.ratchetSessions.lookup recipient with
      | some session => exact .inl (.inr ⟨rfl, session, rfl, rfl, rfl⟩)
      | none =>
        cases hbundle : recipientKeyBundle.or (c.keyBundleCache.lookup recipient) with
        | none => exact .inl (.inl ⟨rfl, rfl, _, rfl⟩)
        | some bundle =>
          cases hopen : openSession K c.address recipient identity bundle env.randEphemeral with
          | error e =>
            exact .inl (.inl ⟨by simp only [hopen]; rfl, rfl, e, by simp only [hopen]⟩)
          | ok opened =>
            obtain ⟨session, initialMsg⟩ := opened
            refine .inr ⟨identity, bundle, session, initialMsg, rfl, rfl, rfl, hopen,
              by simp only [hopen]; rfl, ?_⟩
            obtain ⟨hlost, frames, e, h, hframes⟩ | ⟨hwritten, f, h, hcomplete, hto, hpayload⟩ :=
              sendFrame_cases recipient (initialPayload initialMsg) env.initial
            · refine .inl ⟨hlost, frames, "failed to send X3DH initial message: " ++ e, hframes, ?_⟩
              simp only [hopen, sendX3DHInitialMessage, h]
            · refine .inr ⟨hwritten, f, hcomplete, hto, hpayload, ?_⟩
              simp only [hopen, sendX3DHInitialMessage, h, singleton_append]

theorem sendRatchetMessage_others :
    let out := sendRatchetMessage c recipient recipientKeyBundle plaintext env
    SameKeys c out.client ∧ ∀ addr, addr ≠ recipient →
      out.client.ratchetSessions.lookup addr = c.ratchetSessions.lookup addr := by
  obtain (⟨-, -, e, h⟩ | ⟨-, session, -, -, h⟩) | ⟨_, _, session, _, -, -, -, -, -,
    ⟨-, frames, e, -, h⟩ | ⟨-, f, -, -, -, h⟩⟩ :=
    sendRatchetMessage_cases c recipient recipientKeyBundle plaintext env
  · rw [h]
    exact ⟨⟨rfl, rfl, rfl, rfl⟩, fun _ _ => rfl⟩
  · obtain ⟨c', _, _, heq, hkeys, hsessions, -⟩ :=
      sendWithSession_cases c recipient session plaintext env
    rw [h, heq]
    refine ⟨hkeys, fun addr hne => ?_⟩
    rw [hsessions, lookup_insert_of_ne _ hne]
  · rw [h]
    exact ⟨sameKeys_persist _ _ _ _ _, fun addr hne => lookup_insert_of_ne _ hne⟩
  · obtain ⟨c', _, _, heq, hkeys, hsessions, -⟩ := sendWithSession_cases
      ((c.setSession recipient session).persist recipient session env.saveNew) recipient session
      plaintext env
    rw [h, heq]
    refine ⟨(sameKeys_persist _ _ _ _ _).trans hkeys, fun addr hne => ?_⟩
    rw [hsessions, lookup_insert_of_ne _ hne]
    exact lookup_insert_of_ne _ hne

end Sends

/-- A bundle that `c` can open a session with is one that `peer` published and can still serve. -/
def Genuine (c peer : Client K) (recipientKeyBundle : Option KeyBundle) : Prop :=
  c.ratchetSessions.lookup peer.address = none →
    ∀ bundle, recipientKeyBundle.or (c.keyBundleCache.lookup peer.address) = some bundle →
      ∃ h : Handshake K, h.initiator = c ∧ h.responder = peer ∧ h.bundle = bundle

theorem send_cases {peer : Client K} {recipientKeyBundle : Option KeyBundle}
    (hgenuine : Genuine c peer recipientKeyBundle) (plaintext : Bytes) (env : SendEnv) :
    SendsCurrent c peer.address recipientKeyBundle plaintext env ∨
    ∃ (h : Handshake K) (eph : ByteArr 32), c.ratchetSessions.lookup peer.address = none ∧
      h.initiator = c ∧ h.responder = peer ∧
      SendsOpened c peer.address recipientKeyBundle plaintext env (h.initiatorState eph)
        (h.initialMsg eph) := by
  obtain h | ⟨identity, bundle, session, initialMsg, hnone, hid, hbundle, hopen, h⟩ :=
    sendRatchetMessage_cases c peer.address recipientKeyBundle plaintext env
  · exact .inl h
  · obtain ⟨hs, hinit, hresp, rfl⟩ := hgenuine hnone bundle hbundle
    have hidentity : identity = hs.aliceIdentity := by
      have := hs.initiator_identity
      rw [hinit, hid] at this
      exact Option.some.inj this
    have hopened : hs.opened env.randEphemeral = .ok (session, initialMsg) := by
      rw [Handshake.opened, hinit, hresp, ← hidentity]
      exact hopen
    obtain ⟨eph, -, heq⟩ := Handshake.opened_ok hopened
    obtain ⟨rfl, rfl⟩ := Prod.mk.inj heq
    exact .inr ⟨hs, eph, hnone, hinit, hresp, h⟩

/-! ## Receiving -/

/-- The outside as a client meets it: RSA decryption fails on a payload that was not RSA
encrypted, and the loop goes over each session once. -/
structure ReceiveEnv.Serves (env : ReceiveEnv) (c : Client K) (payload : Bytes) : Prop where
  notRsa : env.rsaDecrypt payload = none
  nodup : env.order.Nodup
  order : ∀ addr, addr ∈ env.order ↔ (c.ratchetSessions.lookup addr).isSome

theorem length_x3dhMarker : x3dhMarker.length = 4 := by decide

variable (initialMsg : InitialMessage)

theorem isInitial_initialPayload : IsInitial (initialPayload initialMsg) := by
  refine ⟨?_, slice_append_left length_x3dhMarker _⟩
  rw [initialPayload, length_append, length_x3dhMarker, InitialMessage.length_encode]
  omega

theorem not_isInitial_ratchetPayload {ratchetHeader : Bytes} (hlen : ratchetHeader.length = 40)
    (ciphertext : Bytes) : ¬ IsInitial (ratchetPayload ratchetHeader ciphertext) := by
  rintro ⟨-, hmarker⟩
  rw [ratchetPayload, hlen] at hmarker
  have hfirst : some (0 : UInt8) = some 88 := congrArg List.head? hmarker
  exact absurd hfirst (by decide)

variable {env : ReceiveEnv}

theorem handleDirectMessage_initial
    (hlen : initialMsg.ciphertext.length < 2 ^ 32)
    (hrsa : env.rsaDecrypt (initialPayload initialMsg) = none)
    (hinit : initializeRatchetSession c initialMsg.senderAddress initialMsg env.saveNew =
      (c', .ok ())) :
    handleDirectMessage c (initialPayload initialMsg) env =
      (c', .sessionReady initialMsg.senderAddress) := by
  have hbody : (initialPayload initialMsg).drop 4 = initialMsg.encode :=
    drop_left' length_x3dhMarker
  obtain ⟨hsize, hmarker⟩ := isInitial_initialPayload initialMsg
  simp only [handleDirectMessage, hrsa, Option.getD_none]
  rw [if_pos ⟨hsize, hmarker⟩, hbody, InitialMessage.decode_encode hlen]
  simp only [hinit]

section Ratchet

variable {c c' : Client K} {ratchetHeader ciphertext : Bytes} {env : ReceiveEnv}

theorem ratchetPayload_parts (hlen : ratchetHeader.length = 40) (ciphertext : Bytes) :
    getUint (slice (ratchetPayload ratchetHeader ciphertext) 0 2) = 40 ∧
    slice (ratchetPayload ratchetHeader ciphertext) 2 40 = ratchetHeader ∧
    (ratchetPayload ratchetHeader ciphertext).drop 42 = ciphertext ∧
    42 ≤ (ratchetPayload ratchetHeader ciphertext).length := by
  refine ⟨?_, ?_, ?_, ?_⟩
  · rw [ratchetPayload, slice_append_left (length_putUint 2 _), getUint_putUint, hlen]
    rfl
  · rw [ratchetPayload, slice_append_right (length_putUint 2 _).le, length_putUint,
      slice_append_left hlen]
  · rw [ratchetPayload, ← append_assoc]
    exact drop_left' (by rw [length_append, length_putUint, hlen])
  · rw [ratchetPayload, length_append, length_append, length_putUint, hlen]
    omega

/-- What the loop over the sessions makes of a payload. -/
def Incoming.ofSessions (payload : Bytes) : Option (Address × Bytes) → Incoming
  | some (sender, plaintext) => .decrypted sender plaintext
  | none => .passedOn payload

theorem handleDirectMessage_ratchet (hlen : ratchetHeader.length = 40)
    (hrsa : env.rsaDecrypt (ratchetPayload ratchetHeader ciphertext) = none)
    {found : Option (Address × Bytes)}
    (htry : trySessions ratchetHeader ciphertext env.rand env.order c = (c', found)) :
    handleDirectMessage c (ratchetPayload ratchetHeader ciphertext) env =
      (c', .ofSessions (ratchetPayload ratchetHeader ciphertext) found) := by
  obtain ⟨hnum, hheader, hbody, hsize⟩ := ratchetPayload_parts hlen ciphertext
  have hkind := not_isInitial_ratchetPayload hlen ciphertext
  unfold IsInitial at hkind
  simp only [handleDirectMessage, hrsa, Option.getD_none]
  rw [if_neg hkind, hnum, if_pos (by omega), hheader, hbody]
  cases found with
  | some found => simp only [htry, Incoming.ofSessions]
  | none => simp only [htry, Incoming.ofSessions]

end Ratchet

/-- The client has a session with `peer` and no other. -/
structure OnlySession (c : Client K) (peer : Address) (session : RatchetState K) : Prop where
  here : c.ratchetSessions.lookup peer = some session
  others : ∀ addr, addr ≠ peer → c.ratchetSessions.lookup addr = none

variable {session' : RatchetState K}

theorem onlySession_set (h : OnlySession c peer session)
    (heq : c'.ratchetSessions = c.ratchetSessions.insert peer session') :
    OnlySession c' peer session' := by
  refine ⟨?_, fun addr hne => ?_⟩
  · rw [heq, lookup_insert]
  · rw [heq, lookup_insert_of_ne _ hne]
    exact h.others addr hne

theorem onlySession_first (hempty : c.ratchetSessions = ∅)
    (heq : c'.ratchetSessions = c.ratchetSessions.insert peer session) :
    OnlySession c' peer session := by
  refine ⟨?_, fun addr hne => ?_⟩
  · rw [heq, lookup_insert]
  · rw [heq, lookup_insert_of_ne _ hne, hempty]
    rfl

def plainReceive (order : List Address) : ReceiveEnv :=
  { rsaDecrypt := fun _ => none
    order := order
    rand := fun _ => .error "no key"
    saveNew := .written }

theorem serves_none (hempty : c.ratchetSessions = ∅) (payload : Bytes) :
    (plainReceive []).Serves c payload := by
  refine ⟨rfl, nodup_nil, fun addr => ?_⟩
  rw [hempty]
  exact ⟨fun h => (nomatch h), fun h => (nomatch h)⟩

theorem serves_only (h : OnlySession c peer session) (payload : Bytes) :
    (plainReceive [peer]).Serves c payload := by
  refine ⟨rfl, nodup_singleton _, fun addr => mem_singleton.trans ?_⟩
  constructor
  · rintro rfl
    rw [h.here]
    rfl
  · intro hsome
    by_contra hne
    rw [h.others addr hne] at hsome
    cases hsome

section Loop

variable {c : Client K} {peer : Address} {session session' : RatchetState K}
  {ratchetHeader ciphertext : Bytes} {rand : Address → RandomKey}

/-- The session with `addr`, if there is one, fails on the message and is not changed by it. -/
def TurnsAway (c : Client K) (ratchetHeader ciphertext : Bytes)
    (rand : Address → RandomKey) (addr : Address) : Prop :=
  ∀ session, c.ratchetSessions.lookup addr = some session →
    ∃ e, ratchetDecrypt session ratchetHeader ciphertext (rand addr) aesDecryptGCM =
      (session, .error e)

theorem setSession_same {addr : Address} (h : c.ratchetSessions.lookup addr = some session) :
    c.setSession addr session = c := by
  have hsame : c.ratchetSessions.insert addr session = c.ratchetSessions := by
    apply ext_lookup
    intro a
    by_cases ha : a = addr
    · rw [ha, lookup_insert, h]
    · rw [lookup_insert_of_ne _ ha]
  rw [setSession, hsame]

theorem trySessions_skip {addr : Address} (h : TurnsAway c ratchetHeader ciphertext rand addr)
    (rest : List Address) :
    trySessions ratchetHeader ciphertext rand (addr :: rest) c =
      trySessions ratchetHeader ciphertext rand rest c := by
  cases hlook : c.ratchetSessions.lookup addr with
  | none => simp only [trySessions, hlook]
  | some session =>
    obtain ⟨e, he⟩ := h session hlook
    simp only [trySessions, hlook, he, setSession_same hlook]

variable {order : List Address}

theorem trySessions_none (h : ∀ addr ∈ order, TurnsAway c ratchetHeader ciphertext rand addr) :
    trySessions ratchetHeader ciphertext rand order c = (c, none) := by
  induction order with
  | nil => rfl
  | cons addr order ih =>
    rw [trySessions_skip (h addr mem_cons_self)]
    exact ih fun a ha => h a (mem_cons_of_mem _ ha)

theorem trySessions_only {result : Except String Bytes}
    (hhere : c.ratchetSessions.lookup peer = some session)
    (hdec : ratchetDecrypt session ratchetHeader ciphertext (rand peer) aesDecryptGCM =
      (session', result)) (hnodup : order.Nodup) (hmem : peer ∈ order)
    (hothers : ∀ addr ∈ order, addr ≠ peer → TurnsAway c ratchetHeader ciphertext rand addr) :
    trySessions ratchetHeader ciphertext rand order c =
      (c.setSession peer session', result.toOption.map fun plaintext => (peer, plaintext)) := by
  induction order with
  | nil => cases hmem
  | cons addr order ih =>
    obtain ⟨hhead, hnodup⟩ := nodup_cons.mp hnodup
    by_cases hpeer : addr = peer
    · subst hpeer
      cases result with
      | ok plaintext =>
        simp only [trySessions, hhere, hdec]
        rfl
      | error e =>
        simp only [trySessions, hhere, hdec]
        refine trySessions_none fun a ha session hsession => ?_
        have hne : a ≠ addr := fun heq => hhead (heq ▸ ha)
        rw [setSession, lookup_insert_of_ne _ hne] at hsession
        exact hothers a (mem_cons_of_mem _ ha) hne session hsession
    · rw [trySessions_skip (hothers addr mem_cons_self hpeer)]
      exact ih hnodup ((mem_cons.mp hmem).resolve_left fun heq => hpeer heq.symm)
        fun a ha => hothers a (mem_cons_of_mem _ ha)

end Loop

theorem handleDirectMessage_only {ratchetHeader ciphertext : Bytes} {result : Except String Bytes}
    (hlen : ratchetHeader.length = 40) (honly : OnlySession c peer session)
    (hserves : env.Serves c (ratchetPayload ratchetHeader ciphertext))
    (hdec : ratchetDecrypt session ratchetHeader ciphertext (env.rand peer) aesDecryptGCM =
      (session', result)) :
    (handleDirectMessage c (ratchetPayload ratchetHeader ciphertext) env).1 =
      c.setSession peer session' ∧
    ∀ plaintext, (handleDirectMessage c (ratchetPayload ratchetHeader ciphertext) env).2 =
      .decrypted peer plaintext ↔ result = .ok plaintext := by
  have hmem : peer ∈ env.order := by
    rw [hserves.order, honly.here]
    rfl
  have htry := trySessions_only honly.here hdec hserves.nodup hmem fun addr _ hne session' h => by
    rw [honly.others addr hne] at h
    cases h
  cases result with
  | ok plaintext =>
    rw [handleDirectMessage_ratchet hlen hserves.notRsa htry]
    refine ⟨rfl, fun plaintext' => ⟨fun h => ?_, fun h => ?_⟩⟩
    · rw [(Incoming.decrypted.inj h).2]
    · rw [Except.ok.inj h]
      rfl
  | error e =>
    rw [handleDirectMessage_ratchet hlen hserves.notRsa htry]
    exact ⟨rfl, fun plaintext' => ⟨fun h => (nomatch h), fun h => (nomatch h)⟩⟩

/-! ## What a receiver makes of several payloads -/

/-- A payload on its way, with the plaintext of the call that sent it. -/
structure Packet where
  payload : Bytes
  plaintext : Bytes

/-- Whatever the outside answers, the client decrypts every packet that is not an initial message,
for this sender and to its plaintext. -/
def ReadsAll (sender : Address) : Client K → List Packet → Prop
  | _, [] => True
  | c, m :: rest => ∀ env : ReceiveEnv, env.Serves c m.payload →
    (¬ IsInitial m.payload →
      (handleDirectMessage c m.payload env).2 = .decrypted sender m.plaintext) ∧
    ReadsAll sender (handleDirectMessage c m.payload env).1 rest

end Zentalk
