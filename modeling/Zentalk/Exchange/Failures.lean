import Zentalk.Exchange.Agreement
import Zentalk.Exchange.Reorder

/-!
# Calls that fail on the way

A lost initial message is never sent again (`failures_iff`). `Track` says where the session is.
-/

namespace Zentalk

open Wire Runs Window List Function Option Finmap MessageHeader Nat

variable {K : Suite}

/-! ## The system -/

/-- The clients at the other end, which have no sessions yet. -/
structure Peers (K : Suite) where
  client : Address → Client K
  address_eq : ∀ addr, (client addr).address = addr
  noSessions : ∀ addr, (client addr).ratchetSessions = ∅

/-- One call: the client that makes it, its arguments and what the outside answers. -/
structure SendCall (K : Suite) where
  before : Client K
  recipient : Address
  recipientKeyBundle : Option KeyBundle
  plaintext : Bytes
  env : SendEnv

def completed (plaintext : Bytes) (frames : List Frame) : List Packet :=
  (frames.filter fun f => f.Complete).map fun f => ⟨f.payload, plaintext⟩

namespace SendCall

/-- What `SendRatchetMessage` does. -/
def outcome (call : SendCall K) : SendOutcome K :=
  sendRatchetMessage call.before call.recipient call.recipientKeyBundle call.plaintext call.env

def packets (call : SendCall K) : List Packet := completed call.plaintext call.outcome.frames

/-- The session that the call opens, with its initial message. -/
def opening (call : SendCall K) : Option (RatchetState K × InitialMessage) :=
  call.before.opening call.recipient call.recipientKeyBundle call.env.randEphemeral

def InitialDelivered (call : SendCall K) : Prop :=
  ∀ session initialMsg, call.opening = some (session, initialMsg) →
    call.env.initial.delivers (initialPayload initialMsg) = true

/-- The session with which the call gets to `RatchetEncrypt`. -/
def session (call : SendCall K) : Option (RatchetState K) :=
  match call.opening with
  | some (session, initialMsg) =>
    if call.env.initial.delivers (initialPayload initialMsg) then some session else none
  | none => call.before.current call.recipient

def numbers (call : SendCall K) : List Nat :=
  match call.session with
  | some s => if call.env.writes s call.plaintext then [s.sendingMsgNum.toNat] else []
  | none => []

/-- One call of `SendRatchetMessage`, whatever the outside answers. Key bundles are genuine,
and a chain has fewer than `2 ^ 32` messages. -/
inductive Step (peers : Peers K) : Client K → SendCall K → Client K → Prop
  | intro (call : SendCall K) :
      Genuine call.before (peers.client call.recipient) call.recipientKeyBundle →
      (∀ s, call.before.ratchetSessions.lookup call.recipient = some s →
        s.sendingMsgNum.toNat + 1 < 2 ^ 32) →
      Step peers call.before call call.outcome.client

end SendCall

def packetsTo (recipient : Address) (calls : List (SendCall K)) : List Packet :=
  calls.flatMap fun call => if call.recipient = recipient then call.packets else []

def numbersTo (recipient : Address) (calls : List (SendCall K)) : List Nat :=
  calls.flatMap fun call => if call.recipient = recipient then call.numbers else []

/-- The initial message of every session was completely written to its peer. -/
def Announced (calls : List (SendCall K)) (c : Client K) : Prop :=
  ∀ recipient s, c.ratchetSessions.lookup recipient = some s →
    ∃ call ∈ calls, call.recipient = recipient ∧
      ∃ f ∈ call.outcome.frames, f.Complete ∧
        ∃ initialMsg : InitialMessage, f.payload = initialPayload initialMsg ∧
          initialMsg.ephemeralKey = s.dhSendingPublic

/-! ## What was written -/

theorem packetsTo_concat (recipient : Address) (calls : List (SendCall K)) (call : SendCall K) :
    packetsTo recipient (calls ++ [call]) = packetsTo recipient calls ++
      if call.recipient = recipient then call.packets else [] := by
  simp only [packetsTo, flatMap_append, flatMap_singleton]

theorem numbersTo_concat (recipient : Address) (calls : List (SendCall K)) (call : SendCall K) :
    numbersTo recipient (calls ++ [call]) = numbersTo recipient calls ++
      if call.recipient = recipient then call.numbers else [] := by
  simp only [numbersTo, flatMap_append, flatMap_singleton]

theorem mem_packetsTo {recipient : Address} {calls : List (SendCall K)} {m : Packet} :
    m ∈ packetsTo recipient calls ↔ ∃ call ∈ calls, call.recipient = recipient ∧
      ∃ f ∈ call.outcome.frames, f.Complete ∧ m = ⟨f.payload, call.plaintext⟩ := by
  rw [packetsTo, mem_flatMap]
  refine exists_congr fun call => and_congr_right fun _ => ?_
  constructor
  · intro hm
    split at hm
    · next hto =>
      obtain ⟨f, hf, rfl⟩ := mem_map.mp hm
      obtain ⟨hf, hcomplete⟩ := mem_filter.mp hf
      exact ⟨hto, f, hf, of_decide_eq_true hcomplete, rfl⟩
    · cases hm
  · rintro ⟨hto, f, hf, hcomplete, rfl⟩
    rw [if_pos hto]
    exact mem_map.mpr ⟨f, mem_filter.mpr ⟨hf, decide_eq_true hcomplete⟩, rfl⟩

theorem completed_lost {frames : List Frame} (h : ∀ f ∈ frames, ¬ f.Complete) (plaintext : Bytes) :
    completed plaintext frames = [] := by
  rw [completed, filter_eq_nil_iff.mpr fun f hf => by simpa using h f hf, map_nil]

theorem completed_cons {f : Frame} (h : f.Complete) (plaintext : Bytes) (frames : List Frame) :
    completed plaintext (f :: frames) = ⟨f.payload, plaintext⟩ :: completed plaintext frames := by
  rw [completed, filter_cons, if_pos (decide_eq_true h)]
  rfl

theorem completed_message (hgcm : K.GcmOpens) (c : Client K) (recipient : Address)
    (s : RatchetState K) (plaintext : Bytes) (env : SendEnv) :
    let sent := sendWithSession c recipient s plaintext env
    sent.client.ratchetSessions = c.ratchetSessions.insert recipient s.advanceSending ∧
    ((env.writes s plaintext = false ∧ completed plaintext sent.frames = []) ∨
      (env.writes s plaintext = true ∧
        ∃ ciphertext, aesDecryptGCM ciphertext s.sendingKey = .ok plaintext ∧
          completed plaintext sent.frames =
            [Packet.ofFlight ⟨s.nextHeader.encode, ciphertext, plaintext⟩])) := by
  obtain ⟨c', frames, result, heq, -, hsessions, ⟨hlost, e, rfl, hframes⟩ |
    ⟨hwritten, f, nonce, rfl, rfl, hcomplete, -, hpayload⟩⟩ :=
    sendWithSession_cases c recipient s plaintext env
  · rw [heq]
    exact ⟨hsessions, .inl ⟨hlost, completed_lost hframes plaintext⟩⟩
  · rw [heq]
    refine ⟨hsessions, .inr ⟨hwritten, _, aesDecryptGCM_seal hgcm nonce plaintext s.sendingKey, ?_⟩⟩
    rw [completed_cons hcomplete, hpayload]
    rfl

/-- The ratchet messages `q` with the numbers `xs` were written on the chain that started at
`s₀` and has come to `s`. -/
structure SentOn (s₀ s : RatchetState K) (q : List Flight) (xs : List Nat) : Prop where
  key : s.dhSendingPublic = s₀.dhSendingPublic
  prev : s.previousChainLen = s₀.previousChainLen
  chain : s.sendingChainKey = K.chainAt s₀.sendingChainKey s.sendingMsgNum.toNat
  placed : List.Forall₂
    (Placed aesDecryptGCM s₀.dhSendingPublic s₀.previousChainLen s₀.sendingChainKey 0 0) q xs
  below : ∀ x ∈ xs, x < s.sendingMsgNum.toNat
  increasing : xs.Pairwise (· < ·)

section Chain

variable {s₀ s : RatchetState K} {q : List Flight} {xs : List Nat}

theorem sentOn_start (hzero : s₀.sendingMsgNum = 0) : SentOn s₀ s₀ [] [] := by
  refine ⟨rfl, rfl, ?_, .nil, fun _ h => (nomatch h), List.Pairwise.nil⟩
  rw [hzero]
  rfl

/-- A message that is lost uses its number. -/
theorem sentOn_lost (h : SentOn s₀ s q xs) (hlt : s.sendingMsgNum.toNat + 1 < 2 ^ 32) :
    SentOn s₀ s.advanceSending q xs := by
  have hsucc : s.advanceSending.sendingMsgNum.toNat = s.sendingMsgNum.toNat + 1 :=
    toNat_succ hlt
  refine ⟨h.key, h.prev, ?_, h.placed, fun x hx => ?_, h.increasing⟩
  · rw [hsucc, K.chainAt_succ, ← h.chain]
    rfl
  · rw [hsucc]
    exact lt_succ_of_lt (h.below x hx)

theorem sentOn_sent (h : SentOn s₀ s q xs) (hlt : s.sendingMsgNum.toNat + 1 < 2 ^ 32)
    {plaintext ciphertext : Bytes} (hopen : aesDecryptGCM ciphertext s.sendingKey = .ok plaintext) :
    SentOn s₀ s.advanceSending (q ++ [⟨s.nextHeader.encode, ciphertext, plaintext⟩])
      (xs ++ [s.sendingMsgNum.toNat]) := by
  have hlost := sentOn_lost h hlt
  have hsucc : s.advanceSending.sendingMsgNum.toNat = s.sendingMsgNum.toNat + 1 :=
    toNat_succ hlt
  refine ⟨hlost.key, hlost.prev, hlost.chain, ?_, fun x hx => ?_, ?_⟩
  · refine rel_append h.placed (.cons ⟨s.sendingMsgNum, by omega, hlt, ?_, ?_⟩ .nil)
    · rw [RatchetState.nextHeader, h.key, h.prev]
    · rw [zero_add, Suite.keyAt, ← h.chain]
      exact hopen
  · rcases mem_append.mp hx with hx | hx
    · exact hlost.below x hx
    · rw [mem_singleton.mp hx, hsucc]
      exact lt_succ_self _
  · refine pairwise_append.mpr ⟨h.increasing, pairwise_singleton _ _, ?_⟩
    intro x hx y hy
    rw [mem_singleton.mp hy]
    exact h.below x hx

theorem sentOn_call (hgcm : K.GcmOpens) (h : SentOn s₀ s q xs)
    (hlt : s.sendingMsgNum.toNat + 1 < 2 ^ 32) (c : Client K) (recipient : Address)
    (plaintext : Bytes) (env : SendEnv) :
    let sent := sendWithSession c recipient s plaintext env
    ∃ q', completed plaintext sent.frames = q'.map Packet.ofFlight ∧
      SentOn s₀ s.advanceSending (q ++ q')
        (xs ++ if env.writes s plaintext then [s.sendingMsgNum.toNat] else []) := by
  obtain ⟨-, ⟨hlost, hcompleted⟩ | ⟨hwritten, ciphertext, hopen, hcompleted⟩⟩ :=
    completed_message hgcm c recipient s plaintext env
  · refine ⟨[], hcompleted, ?_⟩
    rw [hlost, append_nil]
    exact (append_nil xs).symm ▸ sentOn_lost h hlt
  · refine ⟨[⟨s.nextHeader.encode, ciphertext, plaintext⟩], hcompleted, ?_⟩
    rw [hwritten]
    exact sentOn_sent h hlt hopen

end Chain

/-! ## One call -/

/-- Where the session of `sender` with one peer is after these calls. -/
inductive Track (peers : Peers K) (sender recipient : Address) (calls : List (SendCall K))
    (c : Client K) : Prop
  | closed : c.ratchetSessions.lookup recipient = none →
      (∀ call ∈ calls, call.recipient = recipient → call.opening = none) →
      packetsTo recipient calls = [] → numbersTo recipient calls = [] →
      Track peers sender recipient calls c
  | silent {s : RatchetState K} {call : SendCall K} :
      c.ratchetSessions.lookup recipient = some s →
      call ∈ calls → ¬ call.InitialDelivered →
      (∀ m ∈ packetsTo recipient calls, ¬ IsInitial m.payload) →
      Track peers sender recipient calls c
  | announced {s : RatchetState K} {h : Handshake K} {eph : ByteArr 32} {q : List Flight} :
      c.ratchetSessions.lookup recipient = some s →
      h.initiator.address = sender → h.responder = peers.client recipient →
      (∀ call ∈ calls, call.recipient = recipient → call.InitialDelivered) →
      (∃ plaintext, packetsTo recipient calls =
        ⟨initialPayload (h.initialMsg eph), plaintext⟩ :: q.map Packet.ofFlight) →
      SentOn (h.initiatorState eph) s q (numbersTo recipient calls) →
      Track peers sender recipient calls c

section Step

variable {peers : Peers K} {sender recipient : Address} {calls : List (SendCall K)}
  {c : Client K} {call : SendCall K}

theorem initialDelivered_of_none (h : call.opening = none) : call.InitialDelivered :=
  fun _ _ hsome => nomatch h.symm.trans hsome

theorem track_frame (h : Track peers sender recipient calls call.before)
    (hlookup : call.outcome.client.ratchetSessions.lookup recipient =
      call.before.ratchetSessions.lookup recipient)
    (hopening : call.recipient = recipient → call.opening = none)
    (hpackets : packetsTo recipient (calls ++ [call]) = packetsTo recipient calls)
    (hnumbers : numbersTo recipient (calls ++ [call]) = numbersTo recipient calls) :
    Track peers sender recipient (calls ++ [call]) call.outcome.client := by
  cases h with
  | closed hnone hcalls hp hn =>
    exact .closed (hlookup.trans hnone) (forall_mem_append.mpr
      ⟨hcalls, forall_mem_singleton.mpr hopening⟩) (hpackets.trans hp) (hnumbers.trans hn)
  | silent hsome hmem hlost hp =>
    exact .silent (hlookup.trans hsome) (mem_append_left _ hmem) hlost (hpackets ▸ hp)
  | announced hsome hinit hresp hcalls hp hsent =>
    exact .announced (hlookup.trans hsome) hinit hresp (forall_mem_append.mpr
      ⟨hcalls, forall_mem_singleton.mpr fun hto => initialDelivered_of_none (hopening hto)⟩)
      (hpackets ▸ hp) (hnumbers ▸ hsent)

variable {s : RatchetState K}

theorem track_session (hgcm : K.GcmOpens) (h : Track peers sender call.recipient calls call.before)
    (hopening : call.opening = none) (hcurrent : call.before.current call.recipient = some s)
    (hsome : call.before.ratchetSessions.lookup call.recipient = some s)
    (hout : call.outcome = sendWithSession call.before call.recipient s call.plaintext call.env)
    (hlt : s.sendingMsgNum.toNat + 1 < 2 ^ 32) :
    Track peers sender call.recipient (calls ++ [call]) call.outcome.client := by
  obtain ⟨hsessions, hmessage⟩ :=
    completed_message hgcm call.before call.recipient s call.plaintext call.env
  rw [← hout] at hsessions hmessage
  have hnew : call.outcome.client.ratchetSessions.lookup call.recipient =
      some s.advanceSending := by
    rw [hsessions, lookup_insert]
  cases h with
  | closed hnone => exact nomatch hsome.symm.trans hnone
  | silent _ hmem hlost hp =>
    refine .silent hnew (mem_append_left _ hmem) hlost ?_
    rw [packetsTo_concat, if_pos rfl]
    refine forall_mem_append.mpr ⟨hp, fun m hm => ?_⟩
    rcases hmessage with ⟨-, hcompleted⟩ | ⟨-, ciphertext, -, hcompleted⟩
    · rw [SendCall.packets, hcompleted] at hm
      cases hm
    · rw [SendCall.packets, hcompleted] at hm
      rw [mem_singleton.mp hm]
      exact not_isInitial_ratchetPayload (length_encode _) _
  | announced hsome' hinit hresp hcalls hp hsent =>
    obtain rfl := some.inj (hsome.symm.trans hsome')
    obtain ⟨text, hp⟩ := hp
    obtain ⟨q', hcompleted, hsent'⟩ :=
      sentOn_call hgcm hsent hlt call.before call.recipient call.plaintext call.env
    rw [← hout] at hcompleted
    have hnumbers : numbersTo call.recipient (calls ++ [call]) =
        numbersTo call.recipient calls ++
          if call.env.writes s call.plaintext then [s.sendingMsgNum.toNat] else [] := by
      simp only [numbersTo_concat, if_true, SendCall.numbers, SendCall.session, hopening, hcurrent]
    refine .announced hnew hinit hresp (forall_mem_append.mpr
      ⟨hcalls, forall_mem_singleton.mpr fun _ => initialDelivered_of_none hopening⟩)
      ⟨text, ?_⟩ (hnumbers ▸ hsent')
    rw [packetsTo_concat, if_pos rfl, hp, SendCall.packets, hcompleted, map_append, cons_append]

theorem track_lost (h : Track peers sender call.recipient calls call.before)
    (hnone : call.before.ratchetSessions.lookup call.recipient = none) {initialMsg : InitialMessage}
    (hopening : call.opening = some (s, initialMsg))
    (hlost : call.env.initial.delivers (initialPayload initialMsg) = false)
    (hsome : call.outcome.client.ratchetSessions.lookup call.recipient = some s)
    (hframes : ∀ f ∈ call.outcome.frames, ¬ f.Complete) :
    Track peers sender call.recipient (calls ++ [call]) call.outcome.client := by
  cases h with
  | closed _ _ hp _ =>
    refine .silent hsome (mem_append_right _ (mem_singleton_self _)) ?_ ?_
    · intro hdelivered
      exact nomatch hlost.symm.trans (hdelivered _ _ hopening)
    · rw [packetsTo_concat, hp, if_pos rfl, SendCall.packets, completed_lost hframes]
      exact fun _ hm => nomatch hm
  | silent hsome' => exact nomatch hsome'.symm.trans hnone
  | announced hsome' => exact nomatch hsome'.symm.trans hnone

theorem track_opened (hgcm : K.GcmOpens) (h : Track peers sender call.recipient calls call.before)
    (hnone : call.before.ratchetSessions.lookup call.recipient = none) {hs : Handshake K}
    {eph : ByteArr 32} (hinit : hs.initiator.address = sender)
    (hresp : hs.responder = peers.client call.recipient)
    (hopening : call.opening = some (hs.initiatorState eph, hs.initialMsg eph))
    (hdelivered : call.env.initial.delivers (initialPayload (hs.initialMsg eph)) = true)
    {f : Frame} (hcomplete : f.Complete)
    (hpayload : f.payload = initialPayload (hs.initialMsg eph)) {c₁ : Client K}
    {sent : SendOutcome K}
    (hsent : sendWithSession c₁ call.recipient (hs.initiatorState eph) call.plaintext call.env =
      sent)
    (hout : call.outcome = ⟨sent.client, f :: sent.frames, sent.result⟩) :
    Track peers sender call.recipient (calls ++ [call]) call.outcome.client := by
  subst hsent
  obtain ⟨hsessions, -⟩ :=
    completed_message hgcm c₁ call.recipient (hs.initiatorState eph) call.plaintext call.env
  have hnew : call.outcome.client.ratchetSessions.lookup call.recipient =
      some (hs.initiatorState eph).advanceSending := by
    rw [hout, hsessions, lookup_insert]
  have hzero : (hs.initiatorState eph).sendingMsgNum = 0 := rfl
  cases h with
  | closed _ hcalls hp hn =>
    obtain ⟨q, hcompleted, hsent⟩ := sentOn_call hgcm (sentOn_start hzero) (by rw [hzero]; decide)
      c₁ call.recipient call.plaintext call.env
    have hnumbers : numbersTo call.recipient (calls ++ [call]) =
        [] ++ if call.env.writes (hs.initiatorState eph) call.plaintext then
          [(hs.initiatorState eph).sendingMsgNum.toNat] else [] := by
      simp only [numbersTo_concat, hn, if_true, SendCall.numbers, SendCall.session, hopening,
        hdelivered]
    have hcall : call.InitialDelivered := by
      intro session initialMsg hsome
      obtain ⟨rfl, rfl⟩ := Prod.mk.inj (some.inj (hopening.symm.trans hsome))
      exact hdelivered
    refine .announced hnew hinit hresp (forall_mem_append.mpr
      ⟨fun call' hmem hto => initialDelivered_of_none (hcalls call' hmem hto),
        forall_mem_singleton.mpr fun _ => hcall⟩)
      ⟨call.plaintext, ?_⟩ (hnumbers ▸ hsent)
    rw [packetsTo_concat, hp, if_pos rfl, SendCall.packets, hout, completed_cons hcomplete,
      hpayload, hcompleted]
    rfl
  | silent hsome' => exact nomatch hsome'.symm.trans hnone
  | announced hsome' => exact nomatch hsome'.symm.trans hnone

theorem track_step (hgcm : K.GcmOpens) {c' : Client K} (h : Track peers sender recipient calls c)
    (haddr : c.address = sender) (hstep : SendCall.Step peers c call c') :
    Track peers sender recipient (calls ++ [call]) c' := by
  cases hstep with
  | intro call hgenuine hlt =>
    by_cases hpeer : call.recipient = recipient
    · subst hpeer
      have hcases := send_cases hgenuine call.plaintext call.env
      rw [peers.address_eq] at hcases
      obtain (⟨hopening, hcurrent, e, hout⟩ | ⟨hopening, s, hcurrent, hsome, hout⟩) |
        ⟨hs, eph, hnone, hinit, hresp, hopening, ⟨hlost, frames, e, hframes, hout⟩ |
          ⟨hdelivered, f, hcomplete, -, hpayload, hout⟩⟩ := hcases
      · have hclient : call.outcome = ⟨call.before, [], .error e⟩ := hout
        refine track_frame h (by rw [hclient]) (fun _ => hopening) ?_ ?_
        · rw [packetsTo_concat, if_pos rfl, SendCall.packets, hclient]
          exact append_nil _
        · have hnone : call.opening = none := hopening
          simp only [numbersTo_concat, if_true, SendCall.numbers, SendCall.session, hnone, hcurrent,
            append_nil]
      · exact track_session hgcm h hopening hcurrent hsome hout (hlt s hsome)
      · have hclient : call.outcome = _ := hout
        refine track_lost h hnone hopening hlost ?_ ?_
        · rw [hclient]
          exact lookup_insert _
        · rw [hclient]
          exact hframes
      · exact track_opened hgcm h hnone (hinit ▸ haddr) hresp hopening hdelivered hcomplete hpayload
          rfl hout
    · obtain ⟨-, hothers⟩ := sendRatchetMessage_others call.before call.recipient
        call.recipientKeyBundle call.plaintext call.env
      refine track_frame h (hothers recipient (Ne.symm hpeer)) (fun heq => absurd heq hpeer) ?_ ?_
      · rw [packetsTo_concat, if_neg hpeer, append_nil]
      · rw [numbersTo_concat, if_neg hpeer, append_nil]

theorem track_run (hgcm : K.GcmOpens) {c₀ : Client K} (hempty : c₀.ratchetSessions = ∅)
    (hrun : Run (SendCall.Step peers) c₀ calls c) (recipient : Address) :
    Track peers c₀.address recipient calls c := by
  have h := hrun.trace_invariant
    (I := fun calls c => c.address = c₀.address ∧ Track peers c₀.address recipient calls c) ?_ ?_
  · exact h.2
  · refine ⟨rfl, .closed ?_ (fun _ h => nomatch h) rfl rfl⟩
    rw [hempty]
    rfl
  · rintro calls call c c' ⟨haddr, htrack⟩ hstep
    refine ⟨?_, track_step hgcm htrack haddr hstep⟩
    cases hstep with
    | intro => exact (sendRatchetMessage_others ..).1.address.trans haddr

end Step

/-! ## What the peer reads -/

/-- A peer on the chain reads the messages exactly when its window is aligned with them. -/
theorem readsAll_iff_aligned (hchains : ∀ ck : K.ChainKey, Injective (K.keyAt ck))
    (hone : OpensUnderOneKey (K := K) aesDecryptGCM) {dhKey : DHPublicKey} {prev : UInt32}
    {ck : K.ChainKey} {r : RatchetState K} {w : Window} (h : Simulates dhKey ck 0 0 r w)
    {c : Client K} {sender : Address} (honly : OnlySession c sender r) {q : List Flight}
    {xs : List Nat} (hplaced : List.Forall₂ (Placed aesDecryptGCM dhKey prev ck 0 0) q xs) :
    ReadsAll sender c (q.map Packet.ofFlight) ↔ Aligned 1000 w xs := by
  induction hplaced generalizing r w c with
  | nil => exact Iff.rfl
  | @cons m x q xs hm hq ih =>
    obtain ⟨num, hnum, hlt, hheader, hopen⟩ := hm
    have hx : num.toNat - 0 = x := by omega
    rw [zero_add, ← hx] at hopen
    have hlen : m.header.length = 40 := by rw [hheader, length_encode]
    have hkind := not_isInitial_ratchetPayload hlen m.ciphertext
    -- one delivery, whatever the outside answers
    have hdeliver : ∀ env : ReceiveEnv, env.Serves c (Packet.ofFlight m).payload →
        ((handleDirectMessage c (Packet.ofFlight m).payload env).2 = .decrypted sender m.plaintext ↔
          x - w.counter ≤ 1000 ∧ (w.take x).2 = x) ∧
        (x - w.counter ≤ 1000 → (w.take x).2 = x →
          (ReadsAll sender (handleDirectMessage c (Packet.ofFlight m).payload env).1
            (q.map Packet.ofFlight) ↔ Aligned 1000 (w.take x).1 xs)) := by
      intro env hserves
      obtain ⟨hiff, hnext⟩ := simulates_deliver hchains hone h (le_refl 0) (zero_le _) hlt
        hheader hopen (env.rand sender)
      rw [hx] at hiff hnext
      obtain ⟨hclient, hresult⟩ := handleDirectMessage_only hlen honly hserves
        (Prod.mk.eta (p := ratchetDecrypt r m.header m.ciphertext (env.rand sender)
          aesDecryptGCM)).symm
      refine ⟨(hresult m.plaintext).trans hiff, fun hlimit hpos => ?_⟩
      rw [show (handleDirectMessage c (Packet.ofFlight m).payload env).1 = _ from hclient]
      exact ih (hnext hpos hlimit) (onlySession_set honly rfl)
    constructor
    · intro hreads
      have hserves := serves_only honly (Packet.ofFlight m).payload
      obtain ⟨hdec, hrest⟩ := hreads _ hserves
      obtain ⟨hiff, hnext⟩ := hdeliver _ hserves
      obtain ⟨hlimit, hpos⟩ := hiff.mp (hdec hkind)
      exact ⟨hlimit, hpos, (hnext hlimit hpos).mp hrest⟩
    · rintro ⟨hlimit, hpos, hrest⟩ env hserves
      obtain ⟨hiff, hnext⟩ := hdeliver env hserves
      exact ⟨fun _ => hiff.mpr ⟨hlimit, hpos⟩, (hnext hlimit hpos).mpr hrest⟩

theorem readsAll_announced (hdh : K.DHCommutes)
    (hchains : ∀ ck : K.ChainKey, Injective (K.keyAt ck))
    (hone : OpensUnderOneKey (K := K) aesDecryptGCM) (h : Handshake K) (eph : ByteArr 32)
    (hempty : h.responder.ratchetSessions = ∅) {s : RatchetState K} {q : List Flight}
    {xs : List Nat} (hsent : SentOn (h.initiatorState eph) s q xs) (plaintext : Bytes) :
    ReadsAll h.initiator.address h.responder
        (⟨initialPayload (h.initialMsg eph), plaintext⟩ :: q.map Packet.ofFlight) ↔
      OneGap 1000 xs := by
  have hchain : (h.initiatorState eph).sendingChainKey = (h.responderState eph).receivingChainKey :=
    (h.states_match hdh eph).2.symm
  have hsim : Simulates (h.initiatorState eph).dhSendingPublic
      (h.initiatorState eph).sendingChainKey 0 0 (h.responderState eph) (level 0) :=
    ⟨rfl, hchain.symm, rfl, fun _ _ => rfl, le_refl 0⟩
  have hnone : h.responder.ratchetSessions.lookup h.initiator.address = none := by
    rw [hempty]
    rfl
  -- the initial message makes the responder's session, whatever the outside answers
  have hinitial : ∀ env : ReceiveEnv,
      env.Serves h.responder (initialPayload (h.initialMsg eph)) →
      (ReadsAll h.initiator.address
        (handleDirectMessage h.responder (initialPayload (h.initialMsg eph)) env).1
        (q.map Packet.ofFlight) ↔ OneGap 1000 xs) := by
    intro env hserves
    rw [handleDirectMessage_initial (h.initialMsg eph) (Nat.two_pow_pos 32) hserves.notRsa
      (h.initialize_eq hdh eph hnone env.saveNew), ← aligned_increasing hsent.increasing]
    exact readsAll_iff_aligned hchains hone hsim (onlySession_first hempty rfl) hsent.placed
  constructor
  · intro hreads
    have hserves := serves_none hempty (initialPayload (h.initialMsg eph))
    exact (hinitial _ hserves).mp (hreads _ hserves).2
  · intro hgap env hserves
    exact ⟨fun hkind => absurd (isInitial_initialPayload _) hkind, (hinitial env hserves).mpr hgap⟩

/-- The initial message of every session was written, and every peer reads all that was written to
it, exactly when every initial message was let through, and the other messages that were let through
are in order but for the last, which may follow up to 1000 lost ones. -/
theorem failures_iff (hdh : K.DHCommutes) (hgcm : K.GcmOpens)
    (hchains : ∀ ck : K.ChainKey, Injective (K.keyAt ck))
    (hone : OpensUnderOneKey (K := K) aesDecryptGCM) (peers : Peers K) {c₀ c : Client K}
    (hempty : c₀.ratchetSessions = ∅) {calls : List (SendCall K)}
    (hrun : Run (SendCall.Step peers) c₀ calls c) :
    (Announced calls c ∧
        ∀ recipient, ReadsAll c₀.address (peers.client recipient) (packetsTo recipient calls)) ↔
      (∀ call ∈ calls, call.InitialDelivered) ∧
        ∀ recipient, OneGap 1000 (numbersTo recipient calls) := by
  have htrack := track_run hgcm hempty hrun
  have hannounced : Announced calls c ↔ ∀ call ∈ calls, call.InitialDelivered := by
    constructor
    · intro hall call hmem
      cases htrack call.recipient with
      | closed _ hcalls _ _ => exact initialDelivered_of_none (hcalls call hmem rfl)
      | silent hsome _ _ hp =>
        obtain ⟨call', hmem', hto, f, hf, hcomplete, initialMsg, hpayload, -⟩ := hall _ _ hsome
        have hin := mem_packetsTo.mpr ⟨call', hmem', hto, f, hf, hcomplete, rfl⟩
        refine absurd ?_ (hp _ hin)
        rw [hpayload]
        exact isInitial_initialPayload initialMsg
      | announced _ _ _ hcalls _ _ => exact hcalls call hmem rfl
    · intro hall recipient s hsome
      cases htrack recipient with
      | closed hnone => exact nomatch hsome.symm.trans hnone
      | silent _ hmem hlost _ => exact absurd (hall _ hmem) hlost
      | announced hsome' _ _ _ hp hsent =>
        obtain rfl := some.inj (hsome.symm.trans hsome')
        obtain ⟨text, hp⟩ := hp
        obtain ⟨call, hmem, hto, f, hf, hcomplete, heq⟩ :=
          mem_packetsTo.mp (hp ▸ mem_cons_self)
        exact ⟨call, hmem, hto, f, hf, hcomplete, _, (congrArg Packet.payload heq).symm,
          hsent.key.symm⟩
  rw [hannounced]
  refine and_congr_right fun hall => forall_congr' fun recipient => ?_
  cases htrack recipient with
  | closed _ _ hp hn =>
    rw [hp, hn]
    exact ⟨fun _ => .inl rfl, fun _ => trivial⟩
  | silent _ hmem hlost _ => exact absurd (hall _ hmem) hlost
  | @announced s h eph q _ hinit hresp _ hp hsent =>
    obtain ⟨text, hp⟩ := hp
    rw [hp, ← hinit, ← hresp]
    exact readsAll_announced hdh hchains hone h eph (hresp ▸ peers.noSessions recipient) hsent text

/-! ## Two runs of a client of the suite of terms -/

def samplePeers : Peers freeSuite :=
  { client := fun addr => { sampleClient 2 ∅ with address := addr }
    address_eq := fun _ => rfl
    noSessions := fun _ => rfl }

def brokenFrame : FrameEnv := { sampleFrame with buildOnion := fun _ => .error "empty relay path" }

def sampleCall (c : Client freeSuite) (env : SendEnv) : SendCall freeSuite :=
  { before := c
    recipient := fill 20 2
    recipientKeyBundle := some (meeting 1 2 ∅ ∅).bundle
    plaintext := [7]
    env := env }

theorem sample_step_first (env : SendEnv) :
    SendCall.Step samplePeers (sampleClient 1 ∅) (sampleCall (sampleClient 1 ∅) env)
      (sampleCall (sampleClient 1 ∅) env).outcome.client :=
  .intro (sampleCall (sampleClient 1 ∅) env) (sample_genuine 1 2 ∅ ∅) fun _ h => nomatch h

theorem sample_step_next {c : Client freeSuite} {s : RatchetState freeSuite}
    (hsome : c.ratchetSessions.lookup (fill 20 2) = some s)
    (hlt : s.sendingMsgNum.toNat + 1 < 2 ^ 32) (env : SendEnv) :
    SendCall.Step samplePeers c (sampleCall c env) (sampleCall c env).outcome.client := by
  refine .intro (sampleCall c env) (fun hnone => nomatch hsome.symm.trans hnone) fun s' hs' => ?_
  rw [← some.inj (hsome.symm.trans hs')]
  exact hlt

set_option maxRecDepth 4000 in
/-- The first initial message cannot be built, and the peer cannot read what follows. -/
theorem initial_message_lost : ∃ (lost sent : SendCall freeSuite) (c : Client freeSuite),
    Run (SendCall.Step samplePeers) (sampleClient 1 ∅) [lost, sent] c ∧
    lost.outcome.result.isOk = false ∧ sent.outcome.result = .ok () ∧
    lost.recipient = fill 20 2 ∧ sent.recipient = fill 20 2 ∧
    ¬ Announced [lost, sent] c ∧
    ¬ ReadsAll (fill 20 1) (samplePeers.client (fill 20 2))
      (packetsTo (fill 20 2) [lost, sent]) := by
  have h1 := Run.nil.snoc (sample_step_first { sampleSend 5 with initial := brokenFrame })
  have h2 := h1.snoc (sample_step_next (lookup_insert _) (by decide) (sampleSend 6))
  have hkind : ∀ header ciphertext, ¬ IsInitial (ratchetPayload (encode header)
      ciphertext) := fun header => not_isInitial_ratchetPayload (length_encode header)
  refine ⟨_, _, _, h2, rfl, rfl, rfl, rfl, fun hall => ?_, fun hreads => ?_⟩
  · obtain ⟨call, hmem, -, f, hf, -, initialMsg, hpayload, -⟩ :=
      hall (fill 20 2) _ (lookup_insert _)
    have hinitial := isInitial_initialPayload initialMsg
    rw [← hpayload] at hinitial
    rcases mem_cons.mp hmem with rfl | hmem
    · cases hf
    · obtain rfl := mem_singleton.mp hmem
      obtain rfl := mem_singleton.mp hf
      exact hkind _ _ hinitial
  · have hread := (hreads (plainReceive []) (serves_none rfl _)).1 (hkind _ _)
    exact nomatch hread

/-- The second of three messages is lost, and the peer reads the others. -/
theorem failures_iff_one_lost : ∃ (calls : List (SendCall freeSuite)) (c : Client freeSuite),
    Run (SendCall.Step samplePeers) (sampleClient 1 ∅) calls c ∧
    calls.map (fun call => call.outcome.result.isOk) = [true, false, true] ∧
    Announced calls c ∧ ∀ recipient,
      ReadsAll (fill 20 1) (samplePeers.client recipient) (packetsTo recipient calls) := by
  have h1 := Run.nil.snoc (sample_step_first (sampleSend 5))
  have h2 := h1.snoc (sample_step_next (lookup_insert _) (by decide)
    { sampleSend 5 with message := brokenFrame })
  have h3 := h2.snoc (sample_step_next (lookup_insert _) (by decide) (sampleSend 5))
  refine ⟨_, _, h3, rfl, (failures_iff freeSuite_dhCommutes freeSuite_gcmOpens
    freeSuite_keyAt_injective freeSuite_opensUnderOneKey samplePeers rfl h3).mpr ⟨?_, ?_⟩⟩
  · intro call hmem session initialMsg hopening
    simp only [nil_append, cons_append, mem_cons, not_mem_nil, or_false] at hmem
    rcases hmem with rfl | rfl | rfl
    · rfl
    · exact nomatch hopening
    · exact nomatch hopening
  · intro recipient
    by_cases hto : fill 20 2 = recipient
    · subst hto
      exact .inr ⟨1, 2, rfl, by decide⟩
    · refine .inl ?_
      simp only [numbersTo, sampleCall, hto, if_false, flatMap_append,
        flatMap_singleton, append_nil, flatMap_nil]

end Zentalk
