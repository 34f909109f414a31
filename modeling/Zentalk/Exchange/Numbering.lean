import Zentalk.Lib.Run
import Zentalk.Network.Ordering
import Zentalk.Network.Transport

/-!
# The numbering of direct messages

A sequence number is taken before the steps that can fail (`numbers_gapless`).
-/

namespace Zentalk

open Wire Runs Reassembly List Function DirectMessage

/-! ## Sending -/

/-- The fields of `Client` that the direct send path reads or writes. -/
structure Sender where
  address : Address
  connected : Bool
  sendSequenceNumbers : Finmap fun _ : Address => UInt64

def Sender.init (address : Address) : Sender := ⟨address, false, ∅⟩

/-- `sendSequenceNumbers[recipient]`. -/
def Sender.next (s : Sender) (recipient : Address) : UInt64 :=
  (s.sendSequenceNumbers.lookup recipient).getD 0

def getNextSequenceNumber (s : Sender) (recipient : Address) : Sender × UInt64 :=
  ({ s with sendSequenceNumbers := s.sendSequenceNumbers.insert recipient (s.next recipient + 1) },
    s.next recipient)

structure DirectEnv where
  nowMilli : UInt64
  rsaEncrypt : Bytes → Except String Bytes
  frame : FrameEnv

/-- What a call leaves: the client, the frames it started to write, each with the message that
it carries, and the result. -/
structure DirectOutcome (α : Type) where
  sender : Sender
  written : List (DirectMessage × Frame)
  result : Except String α

/-- The common end of the send paths: RSA encryption, then the frame. -/
def sendDirect (recipient : Address) (msg : DirectMessage) (env : DirectEnv) :
    List (DirectMessage × Frame) × Except String Unit :=
  match env.rsaEncrypt msg.encode with
  | .error _ => ([], .error "encryption failed")
  | .ok encryptedMsg =>
    let sent := sendFrame recipient encryptedMsg env.frame
    (sent.1.map fun frame => (msg, frame), sent.2)

def Sender.message (s : Sender) (recipient : Address) (content : Bytes) (contentType : UInt8)
    (env : DirectEnv) : DirectMessage :=
  { fromAddr := s.address
    toAddr := recipient
    timestamp := env.nowMilli
    sequenceNumber := (getNextSequenceNumber s recipient).2
    contentType := contentType
    replyTo := ByteArr.zero 16
    content := content
    signature := [] }

/-- `SendMessage`. The number is taken when the message is built. -/
def sendMessage (s : Sender) (recipient : Address) (content : Bytes) (contentType : UInt8)
    (env : DirectEnv) : DirectOutcome Unit :=
  if s.connected = false then ⟨s, [], .error "not connected"⟩
  else
    let sent := sendDirect recipient (s.message recipient content contentType env) env
    ⟨(getNextSequenceNumber s recipient).1, sent.1, sent.2⟩

/-- The content of a media message: the chunk ID and the key. -/
def mediaContent (chunkID : UInt64) (encryptionKey : Bytes) : Bytes :=
  putUint 8 chunkID.toNat ++ (ByteArr.ofSlice 32 encryptionKey).bytes

/-- `SendMediaMessage`; `uploadEncrypted` is `none` if the storage client has no such method. -/
def sendMediaMessage (s : Sender) (recipient : Address) (mediaData : Bytes) (mediaType : UInt8)
    (uploadEncrypted : Option (Bytes → Except String (UInt64 × Bytes))) (env : DirectEnv) :
    DirectOutcome (UInt64 × Bytes) :=
  if s.connected = false then ⟨s, [], .error "not connected"⟩
  else
    match uploadEncrypted with
    | none => ⟨s, [], .error "invalid MeshStorage client - must implement UploadEncrypted"⟩
    | some upload =>
      match upload mediaData with
      | .error e => ⟨s, [], .error e⟩
      | .ok (chunkID, encryptionKey) =>
        let sent := sendMessage s recipient (mediaContent chunkID encryptionKey) mediaType env
        ⟨sent.sender, sent.written, sent.result.map fun _ => (chunkID, encryptionKey)⟩

/-- The message that `RequestProfile` builds. Its sequence number keeps its zero value. -/
def Sender.profileRequest (s : Sender) (targetAddr : Address) (env : DirectEnv) : DirectMessage :=
  { fromAddr := s.address
    toAddr := targetAddr
    timestamp := env.nowMilli
    sequenceNumber := 0
    contentType := 0x00
    replyTo := ByteArr.zero 16
    content := asciiBytes "PROFILE_REQUEST"
    signature := [] }

def requestProfile (s : Sender) (targetAddr : Address) (env : DirectEnv) : DirectOutcome Unit :=
  if s.connected = false then ⟨s, [], .error "not connected"⟩
  else
    let sent := sendDirect targetAddr (s.profileRequest targetAddr env) env
    ⟨s, sent.1, sent.2⟩

/-! ## Runs -/

/-- The calls that build direct messages, and a change of the connection. -/
inductive DirectOp
  | sendMessage (recipient : Address) (content : Bytes) (contentType : UInt8) (env : DirectEnv)
  | sendMediaMessage (recipient : Address) (mediaData : Bytes) (mediaType : UInt8)
      (uploadEncrypted : Option (Bytes → Except String (UInt64 × Bytes))) (env : DirectEnv)
  | requestProfile (targetAddr : Address) (env : DirectEnv)
  | setConnected (connected : Bool)

structure DirectCall where
  before : Sender
  op : DirectOp

namespace DirectCall

def after (call : DirectCall) : Sender :=
  match call.op with
  | .sendMessage recipient content contentType env =>
    (Zentalk.sendMessage call.before recipient content contentType env).sender
  | .sendMediaMessage recipient mediaData mediaType upload env =>
    (Zentalk.sendMediaMessage call.before recipient mediaData mediaType upload env).sender
  | .requestProfile targetAddr env => (Zentalk.requestProfile call.before targetAddr env).sender
  | .setConnected connected => { call.before with connected := connected }

def written (call : DirectCall) : List (DirectMessage × Frame) :=
  match call.op with
  | .sendMessage recipient content contentType env =>
    (Zentalk.sendMessage call.before recipient content contentType env).written
  | .sendMediaMessage recipient mediaData mediaType upload env =>
    (Zentalk.sendMediaMessage call.before recipient mediaData mediaType upload env).written
  | .requestProfile targetAddr env => (Zentalk.requestProfile call.before targetAddr env).written
  | .setConnected _ => []

def completed (call : DirectCall) : List DirectMessage :=
  (call.written.filter fun w => w.2.Complete).map Prod.fst

/-- One call, whatever the outside answers. -/
inductive Step : Sender → DirectCall → Sender → Prop
  | intro (call : DirectCall) : Step call.before call call.after

end DirectCall

def writtenTo (peer : Address) (calls : List DirectCall) : List DirectMessage :=
  (calls.flatMap DirectCall.completed).filter fun msg => msg.toAddr = peer

def DirectEnv.delivers (env : DirectEnv) (msg : DirectMessage) : Bool :=
  match env.rsaEncrypt msg.encode with
  | .error _ => false
  | .ok encryptedMsg => env.frame.delivers encryptedMsg

def Sender.GetsThrough (s : Sender) (recipient : Address) (content : Bytes) (contentType : UInt8)
    (env : DirectEnv) : Prop :=
  s.connected = true →
    env.delivers (s.message recipient content contentType env) = true ∧
      (s.next recipient).toNat + 1 < 2 ^ 64

/-- A message that takes a number gets through, and a profile request does not. -/
def DirectCall.KeepsNumbers (call : DirectCall) : Prop :=
  match call.op with
  | .sendMessage recipient content contentType env =>
    call.before.GetsThrough recipient content contentType env
  | .sendMediaMessage recipient mediaData mediaType uploadEncrypted env =>
    ∀ upload chunkID encryptionKey, uploadEncrypted = some upload →
      upload mediaData = .ok (chunkID, encryptionKey) →
      call.before.GetsThrough recipient (mediaContent chunkID encryptionKey) mediaType env
  | .requestProfile targetAddr env =>
    call.before.connected = true →
      env.delivers (call.before.profileRequest targetAddr env) = false
  | .setConnected _ => True

/-- The messages completely written to the peer are numbered 0, 1, 2, …. Once all of them have
arrived there, in any order, repeated and between messages of others, the peer has delivered each
of them once, in order. -/
structure Gapless (address peer : Address) (calls : List DirectCall) : Prop where
  numbers : (writtenTo peer calls).map DirectMessage.position =
    List.range (writtenTo peer calls).length
  delivered : ∀ arrivals,
    (∀ msg, msg ∈ messagesOf address arrivals ↔ msg ∈ writtenTo peer calls) →
    messagesOf address (handleAll arrivals).2 = writtenTo peer calls

section

/-! ## One call -/

/-- The messages among these frames that were completely written. -/
def completedOf (written : List (DirectMessage × Frame)) : List DirectMessage :=
  (written.filter fun w => w.2.Complete).map Prod.fst

theorem completedOf_sendDirect (recipient : Address) (msg : DirectMessage) (env : DirectEnv) :
    completedOf (sendDirect recipient msg env).1 = if env.delivers msg then [msg] else [] := by
  unfold sendDirect DirectEnv.delivers
  cases env.rsaEncrypt msg.encode with
  | error e => rfl
  | ok encryptedMsg =>
    obtain ⟨hlost, frames, e, heq, hframes⟩ | ⟨hwritten, f, heq, hcomplete, -⟩ :=
      sendFrame_cases recipient encryptedMsg env.frame
    · have hnone : ∀ w ∈ frames.map fun frame => (msg, frame), ¬ w.2.Complete := by
        intro w hw
        obtain ⟨f, hf, rfl⟩ := mem_map.mp hw
        exact hframes f hf
      simp only [heq, hlost, completedOf]
      rw [filter_eq_nil_iff.mpr fun w hw => by simpa using hnone w hw]
      rfl
    · simp [heq, hwritten, completedOf, hcomplete]

/-- A call leaves the numbers alone and writes nothing, or takes the next number of a peer and
writes the message with this number. -/
inductive Effect (s : Sender) (completed : List DirectMessage) (s' : Sender) : Prop
  | quiet : completed = [] → s'.address = s.address → s'.next = s.next →
      Effect s completed s'
  | numbered (msg : DirectMessage) : completed = [msg] → s'.address = s.address →
      msg.fromAddr = s.address → msg.sequenceNumber = s.next msg.toAddr →
      (s.next msg.toAddr).toNat + 1 < 2 ^ 64 →
      s'.next = update s.next msg.toAddr (s.next msg.toAddr + 1) →
      Effect s completed s'

theorem next_taken (s : Sender) (recipient : Address) :
    (getNextSequenceNumber s recipient).1.next =
      update s.next recipient (s.next recipient + 1) := by
  funext a
  unfold getNextSequenceNumber Sender.next
  by_cases ha : a = recipient
  · rw [ha, update_self, Finmap.lookup_insert, Option.getD_some]
  · rw [update_of_ne ha, Finmap.lookup_insert_of_ne _ ha]

theorem effect_sendMessage (s : Sender) (recipient : Address) (content : Bytes)
    (contentType : UInt8) (env : DirectEnv) (h : s.GetsThrough recipient content contentType env) :
    Effect s (completedOf (sendMessage s recipient content contentType env).written)
      (sendMessage s recipient content contentType env).sender := by
  unfold sendMessage
  split
  · exact .quiet rfl rfl rfl
  · next hconnected =>
    obtain ⟨hdelivers, hbound⟩ := h (Bool.eq_true_of_not_eq_false hconnected)
    refine .numbered (s.message recipient content contentType env) ?_ rfl rfl rfl hbound
      (next_taken s recipient)
    rw [completedOf_sendDirect, if_pos hdelivers]

theorem effect_call (call : DirectCall) (h : call.KeepsNumbers) :
    Effect call.before call.completed call.after := by
  obtain ⟨s, op⟩ := call
  cases op with
  | sendMessage recipient content contentType env =>
    exact effect_sendMessage s recipient content contentType env h
  | sendMediaMessage recipient mediaData mediaType uploadEncrypted env =>
    show Effect s
      (completedOf (sendMediaMessage s recipient mediaData mediaType uploadEncrypted env).written)
      (sendMediaMessage s recipient mediaData mediaType uploadEncrypted env).sender
    unfold sendMediaMessage
    split
    · exact .quiet rfl rfl rfl
    · split
      · exact .quiet rfl rfl rfl
      · next upload =>
        split
        · exact .quiet rfl rfl rfl
        · next chunkID encryptionKey hupload =>
          exact effect_sendMessage s recipient _ mediaType env
            (h upload chunkID encryptionKey rfl hupload)
  | requestProfile targetAddr env =>
    show Effect s (completedOf (requestProfile s targetAddr env).written)
      (requestProfile s targetAddr env).sender
    unfold requestProfile
    split
    · exact .quiet rfl rfl rfl
    · next hconnected =>
      have hlost := h (Bool.eq_true_of_not_eq_false hconnected)
      refine .quiet ?_ rfl rfl
      rw [completedOf_sendDirect, if_neg (by rw [hlost]; exact Bool.false_ne_true)]
  | setConnected connected => exact .quiet rfl rfl rfl

/-! ## Runs -/

/-- The messages written to each peer are numbered from 0, and the counter is past them. -/
structure Numbered (address : Address) (calls : List DirectCall) (s : Sender) : Prop where
  address_eq : s.address = address
  sender : ∀ peer, ∀ msg ∈ writtenTo peer calls, msg.fromAddr = address
  numbers : ∀ peer,
    (writtenTo peer calls).map DirectMessage.position = List.range (s.next peer).toNat

theorem writtenTo_concat (peer : Address) (calls : List DirectCall) (call : DirectCall) :
    writtenTo peer (calls ++ [call]) =
      writtenTo peer calls ++ call.completed.filter fun msg => msg.toAddr = peer := by
  simp [writtenTo, flatMap_append]

theorem numbered_init (address : Address) : Numbered address [] (.init address) :=
  ⟨rfl, fun _ _ h => (nomatch h), fun _ => rfl⟩

variable {calls : List DirectCall} {address : Address}

theorem numbered_step {call : DirectCall} {s s' : Sender} (h : Numbered address calls s)
    (hstep : DirectCall.Step s call s') (hkeeps : call.KeepsNumbers) :
    Numbered address (calls ++ [call]) s' := by
  obtain ⟨call⟩ := hstep
  cases effect_call call hkeeps with
  | quiet hnothing haddress hnext =>
    have hsame : ∀ peer, writtenTo peer (calls ++ [call]) = writtenTo peer calls := by
      intro peer
      rw [writtenTo_concat, hnothing, filter_nil, append_nil]
    refine ⟨haddress.trans h.address_eq, fun peer => ?_, fun peer => ?_⟩
    · rw [hsame]
      exact h.sender peer
    · rw [hsame, hnext]
      exact h.numbers peer
  | numbered msg hmsg haddress hfrom hnumber hbound hnext =>
    have hown : writtenTo msg.toAddr (calls ++ [call]) = writtenTo msg.toAddr calls ++ [msg] := by
      rw [writtenTo_concat, hmsg, filter_singleton]
      simp
    have hother : ∀ peer, peer ≠ msg.toAddr →
        writtenTo peer (calls ++ [call]) = writtenTo peer calls := by
      intro peer hpeer
      rw [writtenTo_concat, hmsg, filter_singleton]
      simp [hpeer.symm]
    refine ⟨haddress.trans h.address_eq, fun peer => ?_, fun peer => ?_⟩
    · by_cases hpeer : peer = msg.toAddr
      · rw [hpeer, hown]
        intro m hm
        rcases mem_append.mp hm with hm | hm
        · exact h.sender msg.toAddr m hm
        · rw [mem_singleton.mp hm, hfrom, h.address_eq]
      · rw [hother peer hpeer]
        exact h.sender peer
    · by_cases hpeer : peer = msg.toAddr
      · have hcount : (call.before.next msg.toAddr + 1).toNat =
            (call.before.next msg.toAddr).toNat + 1 := by
          exact Nat.mod_eq_of_lt hbound
        rw [hpeer, hown, hnext, update_self, hcount, map_append, h.numbers,
          range_succ, map_singleton, position, hnumber]
      · rw [hother peer hpeer, hnext, update_of_ne hpeer]
        exact h.numbers peer

theorem numbered_run {s : Sender} (hrun : Run DirectCall.Step (.init address) calls s)
    (hkeeps : ∀ call ∈ calls, call.KeepsNumbers) : Numbered address calls s := by
  refine hrun.trace_invariant
    (I := fun calls s => (∀ call ∈ calls, call.KeepsNumbers) → Numbered address calls s)
    (fun _ => numbered_init address) ?_ hkeeps
  intro calls call s s' ih hstep hkeeps
  exact numbered_step (ih fun c hc => hkeeps c (mem_append_left _ hc)) hstep
    (hkeeps call (mem_append_right _ (mem_singleton_self call)))

end

/-- When every number that is taken reaches the connection and no profile request does, the messages
to each peer have no gap, and the peer delivers them all. -/
theorem numbers_gapless {address : Address} {calls : List DirectCall} {s : Sender}
    (hrun : Run DirectCall.Step (.init address) calls s)
    (hkeeps : ∀ call ∈ calls, call.KeepsNumbers) (peer : Address) : Gapless address peer calls := by
  have hnumbers := (numbered_run hrun hkeeps).numbers peer
  have hlength : (writtenTo peer calls).length = (s.next peer).toNat := by
    rw [← length_map position, hnumbers, length_range]
  rw [← hlength] at hnumbers
  refine ⟨hnumbers, fun arrivals harrivals => ?_⟩
  obtain ⟨k, hstate⟩ := peerState_handleAll arrivals address
  exact hstate.ordered.inOrder.all_passed ⟨hnumbers, harrivals⟩ hstate.missing

/-- A profile request has the number 0 again, and is dropped by a peer that has received it. -/
theorem profile_request_dropped (s : Sender) (peer : Address) (env : DirectEnv)
    {arrivals : List DirectMessage}
    (hseen : ∃ msg ∈ messagesOf s.address arrivals, msg.position = 0) :
    (handleOrderedMessage (handleAll arrivals).1 (s.profileRequest peer env)).2 = [] := by
  obtain ⟨msg, hmsg, hzero⟩ := hseen
  obtain ⟨k, hstate⟩ := peerState_handleAll arrivals s.address
  have hreceived : (handleAll arrivals).1.received s.address 0 = true := by
    refine (hstate.received 0).mpr fun hnone => ?_
    exact first_eq_none.mp hnone msg hmsg hzero
  exact handleOrderedMessage_seen hreceived

/-! ## Runs of fixed calls -/

/-- The calls of a client that makes them one after the other. -/
def callsFrom (s : Sender) : List DirectOp → List DirectCall
  | [] => []
  | op :: ops => ⟨s, op⟩ :: callsFrom (DirectCall.after ⟨s, op⟩) ops

theorem callsFrom_run (s : Sender) (ops : List DirectOp) :
    ∃ s', Run DirectCall.Step s (callsFrom s ops) s' := by
  induction ops generalizing s with
  | nil => exact ⟨s, Run.nil⟩
  | cons op ops ih =>
    obtain ⟨s', hrun⟩ := ih (DirectCall.after ⟨s, op⟩)
    exact ⟨s', hrun.cons (.intro ⟨s, op⟩)⟩

def directEnv (rsaEncrypt : Bytes → Except String Bytes) : DirectEnv :=
  { nowMilli := 0
    rsaEncrypt := rsaEncrypt
    frame :=
      { buildOnion := .ok
        messageID := fill 16 0
        writeHeader := .ok ()
        writeOnion := .ok () } }

def sampleCalls (ops : List DirectOp) : List DirectCall :=
  callsFrom (.init (fill 20 1)) (.setConnected true :: ops)

/-- Two messages, of which the second gets through. -/
def twoCalls (rsaEncrypt : Bytes → Except String Bytes) : List DirectCall :=
  sampleCalls [.sendMessage (fill 20 2) [7] 0 (directEnv rsaEncrypt),
    .sendMessage (fill 20 2) [8] 0 (directEnv .ok)]

theorem numbers_gapless_two : (writtenTo (fill 20 2) (twoCalls .ok)).length = 2 ∧
    Gapless (fill 20 1) (fill 20 2) (twoCalls .ok) := by
  obtain ⟨s, hrun⟩ : ∃ s, Run DirectCall.Step (.init (fill 20 1)) (twoCalls .ok) s :=
    callsFrom_run _ _
  refine ⟨by decide +kernel, numbers_gapless hrun ?_ (fill 20 2)⟩
  simp only [twoCalls, sampleCalls, callsFrom, forall_mem_cons]
  exact ⟨trivial, fun _ => ⟨by decide +kernel, by decide +kernel⟩,
    fun _ => ⟨by decide +kernel, by decide +kernel⟩, fun _ h => absurd h not_mem_nil⟩

/-- The content of the first message is too long for RSA. -/
def burntCalls : List DirectCall := twoCalls fun _ => .error "message too long"

/-- A message that could not be encrypted leaves a gap, and the peer delivers nothing. -/
theorem burnt_number_stalls :
    (∃ s, Run DirectCall.Step (.init (fill 20 1)) burntCalls s) ∧
    (writtenTo (fill 20 2) burntCalls).map DirectMessage.position = [1] ∧
    (handleAll (writtenTo (fill 20 2) burntCalls)).2 = [] ∧
    ¬ Gapless (fill 20 1) (fill 20 2) burntCalls := by
  have hposition : (writtenTo (fill 20 2) burntCalls).map position = [1] := by
    decide +kernel
  refine ⟨callsFrom_run _ _, hposition, by decide +kernel, fun hgapless => ?_⟩
  have hnumbers := hgapless.numbers
  cases hnumbers

end Zentalk
