import Zentalk.Codec.Signing
import Zentalk.Network.Transport

/-!
# Group notifications

The calls log what fails for a member and return nil (`notified_iff`).
-/

namespace Zentalk

open Wire List

/-- A member of a group, with what the outside answers when it is notified: `crypto.RSAEncrypt` with
its public key, and the rest. -/
structure GroupMember where
  address : Address
  rsaEncrypt : Bytes → Except String Bytes
  frame : FrameEnv

/-- A client when it calls one of the functions, with the members that it is to notify. -/
structure GroupClient where
  connected : Bool
  address : Address
  /-- `time.Now().UnixMilli()`. -/
  now : UInt64
  /-- `crypto.SignData` with the private key. -/
  signData : Bytes → Except String Bytes
  members : List GroupMember

/-- The frames that were written, and the result, which is `none` for a panic. -/
abbrev GroupResult := List Frame × Option (Except String Unit)

/-- One round of the loop. -/
def GroupMember.notify (self : Address) (payload : Bytes) (member : GroupMember) : List Frame :=
  if member.address = self then []
  else
    match member.rsaEncrypt payload with
    | .error _ => []
    | .ok encryptedMsg => (sendFrame member.address encryptedMsg member.frame).1

namespace GroupClient

variable (c : GroupClient)

def notify (payload : Bytes) : GroupResult :=
  (c.members.flatMap (GroupMember.notify c.address payload), some (.ok ()))

def notConnected : GroupResult := ([], some (.error "not connected"))

def groupMsg (groupID : ByteArr 32) (content : Bytes) : GroupMessage where
  fromAddr := c.address
  groupID := groupID
  timestamp := c.now
  contentType := 0
  content := content
  signature := []

def sendGroupMessage (groupID : ByteArr 32) (content : Bytes) : GroupResult :=
  if !c.connected then notConnected else c.notify (c.groupMsg groupID content).encode

def createMsg (groupID : ByteArr 32) (groupName : Bytes) : GroupCreateMessage where
  groupID := groupID
  groupName := groupName
  creatorAddr := c.address
  timestamp := c.now
  members := c.members.map GroupMember.address

def createGroup (groupID : ByteArr 32) (groupName : Bytes) : GroupResult :=
  if !c.connected then notConnected else c.notify (c.createMsg groupID groupName).encode

def leaveMsg (groupID : ByteArr 32) (signature : Bytes) : GroupLeaveMessage where
  groupID := groupID
  memberAddr := c.address
  timestamp := c.now
  signature := signature

def leaveGroup (groupID : ByteArr 32) : GroupResult :=
  if !c.connected then notConnected
  else
    match c.signData (c.leaveMsg groupID []).encodeForSigning with
    | .error e => ([], some (.error e))
    | .ok signature => c.notify (c.leaveMsg groupID signature).encode

def updateMsg (groupID : ByteArr 32) (updateType : UInt8) (newGroupName : Bytes)
    (targetMember : Option Address) (signature : Bytes) : GroupUpdateMessage where
  groupID := groupID
  updateType := updateType
  updatedBy := c.address
  timestamp := c.now
  newGroupName := newGroupName
  memberAddr := targetMember.getD (ByteArr.zero 20)
  signature := signature

def updateGroup (groupID : ByteArr 32) (updateType : UInt8) (newGroupName : Bytes)
    (targetMember : Option Address) : GroupResult :=
  if !c.connected then notConnected
  else
    let updateMsg := c.updateMsg groupID updateType newGroupName targetMember
    match c.signData (updateMsg []).encodeForSigning with
    | .error e => ([], some (.error e))
    | .ok signature =>
      -- the log line for these types takes the address of the target
      if targetMember = none ∧ (updateType = 2 ∨ updateType = 3 ∨ updateType = 4) then ([], none)
      else c.notify (updateMsg signature).encode

/-- The signature of `data`, if there is one. -/
def signature (data : Bytes) : Bytes := (c.signData data).toOption.getD []

end GroupClient

inductive GroupCall
  | sendGroupMessage (groupID : ByteArr 32) (content : Bytes)
  | createGroup (groupID : ByteArr 32) (groupName : Bytes)
  | leaveGroup (groupID : ByteArr 32)
  | updateGroup (groupID : ByteArr 32) (updateType : UInt8) (newGroupName : Bytes)
      (targetMember : Option Address)

def GroupCall.run (c : GroupClient) : GroupCall → GroupResult
  | sendGroupMessage groupID content => c.sendGroupMessage groupID content
  | createGroup groupID groupName => c.createGroup groupID groupName
  | leaveGroup groupID => c.leaveGroup groupID
  | updateGroup groupID updateType newGroupName targetMember =>
    c.updateGroup groupID updateType newGroupName targetMember

/-- The message that a call sends. -/
def GroupCall.payload (c : GroupClient) : GroupCall → Bytes
  | sendGroupMessage groupID content => (c.groupMsg groupID content).encode
  | createGroup groupID groupName => (c.createMsg groupID groupName).encode
  | leaveGroup groupID =>
    (c.leaveMsg groupID (c.signature (c.leaveMsg groupID []).encodeForSigning)).encode
  | updateGroup groupID updateType newGroupName targetMember =>
    let updateMsg := c.updateMsg groupID updateType newGroupName targetMember
    (updateMsg (c.signature (updateMsg []).encodeForSigning)).encode

/-- A message for the member goes through: it can be encrypted and put into an onion, and both
writes succeed. -/
def GroupMember.Reached (member : GroupMember) (payload : Bytes) : Prop :=
  ∃ encryptedMsg, member.rsaEncrypt payload = .ok encryptedMsg ∧
    member.frame.delivers encryptedMsg = true

/-- A complete frame was written for every other member. -/
def GroupClient.Notified (c : GroupClient) (frames : List Frame) : Prop :=
  ∀ member ∈ c.members, member.address ≠ c.address →
    ∃ f ∈ frames, f.Complete ∧ f.recipient = member.address

/-- The message goes through for every other member. -/
def GroupClient.Reaches (c : GroupClient) (payload : Bytes) : Prop :=
  ∀ member ∈ c.members, member.address ≠ c.address →
    ∃ other ∈ c.members, other.address = member.address ∧ other.Reached payload

/-- Keys of 4096 bits: a plaintext has at most 446 bytes, and a signature has 512. -/
structure GroupClient.Rsa4096 (c : GroupClient) : Prop where
  limit : ∀ member ∈ c.members, ∀ data, 446 < data.length → ∃ e, member.rsaEncrypt data = .error e
  signature : ∀ data signature, c.signData data = .ok signature → signature.length = 512

/-- What a call has to sign before it sends. -/
def GroupCall.toSign (c : GroupClient) : GroupCall → Option Bytes
  | leaveGroup groupID => some (c.leaveMsg groupID []).encodeForSigning
  | updateGroup groupID updateType newGroupName targetMember =>
    some (c.updateMsg groupID updateType newGroupName targetMember []).encodeForSigning
  | _ => none

/-- The update is about a member, and there is none. -/
def GroupCall.NilTarget : GroupCall → Prop
  | updateGroup _ updateType _ targetMember =>
    targetMember = none ∧ (updateType = 2 ∨ updateType = 3 ∨ updateType = 4)
  | _ => False

/-- A call that does not come to its loop: the client is not connected, the message cannot be
signed, or there is no member for the update. -/
def GroupCall.Stops (c : GroupClient) (call : GroupCall) : Prop :=
  c.connected = false ∨ (∃ data e, call.toSign c = some data ∧ c.signData data = .error e) ∨
    call.NilTarget

section

variable {c : GroupClient} {call : GroupCall} {payload : Bytes}

theorem complete_notify_iff (member : GroupMember) (self address : Address) (payload : Bytes) :
    (∃ f ∈ member.notify self payload, f.Complete ∧ f.recipient = address) ↔
      member.address ≠ self ∧ member.address = address ∧ member.Reached payload := by
  unfold GroupMember.notify GroupMember.Reached
  split
  · next hself => simp [hself]
  · next hself =>
    cases hencrypt : member.rsaEncrypt payload with
    | error e => simp
    | ok encryptedMsg =>
      obtain ⟨hlost, frames, e, hframes, hcut⟩ | ⟨hsent, f, hf, hcomplete, hrecipient, -⟩ :=
        sendFrame_cases member.address encryptedMsg member.frame
      · dsimp only
        rw [hframes]
        constructor
        · rintro ⟨f, hmem, hcomplete, -⟩
          exact absurd hcomplete (hcut f hmem)
        · rintro ⟨-, -, sent, hok, hsent⟩
          cases hok
          rw [hlost] at hsent
          cases hsent
      · dsimp only
        rw [hf]
        constructor
        · rintro ⟨f', hmem, -, haddress⟩
          rw [mem_singleton.mp hmem, hrecipient] at haddress
          exact ⟨hself, haddress, encryptedMsg, rfl, hsent⟩
        · rintro ⟨-, haddress, -⟩
          exact ⟨f, mem_singleton_self f, hcomplete, hrecipient.trans haddress⟩

/-- The loop notifies all other members if the message goes through for each of them. -/
theorem notified_notify_iff (c : GroupClient) (payload : Bytes) :
    c.Notified (c.notify payload).1 ↔ c.Reaches payload := by
  refine forall₃_congr fun member _ hself => ?_
  constructor
  · rintro ⟨f, hf, hcomplete, hrecipient⟩
    obtain ⟨other, hother, hmem⟩ := mem_flatMap.mp hf
    obtain ⟨-, haddress, hreached⟩ := (complete_notify_iff other c.address member.address
      payload).mp ⟨f, hmem, hcomplete, hrecipient⟩
    exact ⟨other, hother, haddress, hreached⟩
  · rintro ⟨other, hother, haddress, hreached⟩
    obtain ⟨f, hmem, hf⟩ := (complete_notify_iff other c.address member.address payload).mpr
      ⟨haddress ▸ hself, haddress, hreached⟩
    exact ⟨f, mem_flatMap.mpr ⟨other, hother, hmem⟩, hf⟩

theorem signature_eq {data signature : Bytes} (h : c.signData data = .ok signature) :
    c.signature data = signature := by
  rw [GroupClient.signature, h]
  rfl

theorem length_leaveMsg (c : GroupClient) (groupID : ByteArr 32) (signature : Bytes) :
    (c.leaveMsg groupID signature).encode.length = 64 + signature.length := by
  simp [GroupJoinMessage.encode, GroupJoinMessage.layout, GroupClient.leaveMsg]
  omega

/-- A call that does not stop before the loop runs it for its message. -/
theorem run_cases (c : GroupClient) (call : GroupCall) :
    (call.Stops c ∧ (call.run c).1 = [] ∧ (call.run c).2 ≠ some (.ok ())) ∨
    ¬ call.Stops c ∧ call.run c = c.notify (call.payload c) ∧
      (call.toSign c ≠ none → ∃ data signature, c.signData data = .ok signature ∧
        signature.length ≤ (call.payload c).length) := by
  cases hconn : c.connected with
  | false =>
    refine .inl ⟨.inl hconn, ?_⟩
    cases call <;> simp [GroupCall.run, GroupClient.sendGroupMessage, GroupClient.createGroup,
      GroupClient.leaveGroup, GroupClient.updateGroup, GroupClient.notConnected, hconn]
  | true =>
    cases call with
    | sendGroupMessage groupID content =>
      simp [GroupCall.Stops, GroupCall.run, GroupClient.sendGroupMessage, GroupCall.payload,
        GroupCall.toSign, GroupCall.NilTarget, hconn]
    | createGroup groupID groupName =>
      simp [GroupCall.Stops, GroupCall.run, GroupClient.createGroup, GroupCall.payload,
        GroupCall.toSign, GroupCall.NilTarget, hconn]
    | leaveGroup groupID =>
      simp only [GroupCall.Stops, GroupCall.run, GroupClient.leaveGroup, GroupCall.payload,
        GroupCall.toSign, GroupCall.NilTarget, hconn]
      cases hsign : c.signData (c.leaveMsg groupID []).encodeForSigning with
      | error e => simp [hsign]
      | ok signature =>
        rw [signature_eq hsign]
        refine .inr ⟨by simp [hsign], rfl, fun _ => ⟨_, signature, hsign, ?_⟩⟩
        rw [length_leaveMsg]
        omega
    | updateGroup groupID updateType newGroupName targetMember =>
      simp only [GroupCall.Stops, GroupCall.run, GroupClient.updateGroup, GroupCall.payload,
        GroupCall.toSign, GroupCall.NilTarget, hconn]
      cases hsign : c.signData
          (c.updateMsg groupID updateType newGroupName targetMember []).encodeForSigning with
      | error e => simp [hsign]
      | ok signature =>
        rw [signature_eq hsign]
        by_cases hnil : targetMember = none ∧ (updateType = 2 ∨ updateType = 3 ∨ updateType = 4)
        · simp [hnil]
        · refine .inr ⟨by simp [hsign, hnil], by simp [hnil], fun _ => ⟨_, signature, hsign, ?_⟩⟩
          simp [GroupUpdateMessage.encode, GroupUpdateMessage.layout, GroupClient.updateMsg]
          omega

theorem notify_eq_nil (h : c.Rsa4096) (hlong : 446 < payload.length) :
    (c.notify payload).1 = [] := by
  refine flatMap_eq_nil_iff.mpr fun member hmember => ?_
  obtain ⟨e, he⟩ := h.limit member hmember payload hlong
  rw [GroupMember.notify, he]
  split
  · rfl
  · rfl

end

/-- Returning nil means that all other members were notified if, and only if, the call stops before
its loop or its message goes through for each of them. With keys of 4096 bits a signed message is
too long to be encrypted, and no frame is written. -/
theorem notified_iff (c : GroupClient) (call : GroupCall) :
    (((call.run c).2 = some (.ok ()) → c.Notified (call.run c).1) ↔
      call.Stops c ∨ c.Reaches (call.payload c)) ∧
    (c.Rsa4096 → call.toSign c ≠ none → (call.run c).1 = []) := by
  obtain ⟨hstops, hnone, hfails⟩ | ⟨hgoes, hrun, hsigned⟩ := run_cases c call
  · exact ⟨iff_of_true (fun h => absurd h hfails) (.inl hstops), fun _ _ => hnone⟩
  · rw [hrun, or_iff_right hgoes]
    refine ⟨(imp_iff_right rfl).trans (notified_notify_iff c (call.payload c)), fun h hcall => ?_⟩
    obtain ⟨data, signature, hsign, hle⟩ := hsigned hcall
    have hlen := h.signature data signature hsign
    exact notify_eq_nil h (by omega)

/-- A group of two, in which nothing fails but the encryption of more than 446 bytes. -/
def pair : GroupClient where
  connected := true
  address := ByteArr.zero 20
  now := 0
  signData _ := .ok (List.replicate 512 0)
  members :=
    [{ address := ByteArr.ofSlice 20 [1]
       rsaEncrypt := fun data =>
         if 446 < data.length then .error "encryption failed" else .ok (List.replicate 512 0)
       frame := ⟨.ok, ByteArr.zero 16, .ok (), .ok ()⟩ }]

theorem pair_rsa4096 : pair.Rsa4096 where
  limit := by
    intro member hmember data hlong
    rw [mem_singleton.mp hmember]
    exact ⟨_, if_pos hlong⟩
  signature := by
    rintro data signature h
    cases h
    exact length_replicate

theorem notified_pair : ((GroupCall.leaveGroup (ByteArr.zero 32)).run pair).1 = [] :=
  (notified_iff pair (.leaveGroup (ByteArr.zero 32))).2 pair_rsa4096 (Option.some_ne_none _)

/-- The call returns nil, and the other member is not told. -/
theorem leaveGroup_silent :
    pair.Rsa4096 ∧ (pair.leaveGroup (ByteArr.zero 32)).2 = some (.ok ()) ∧
      (pair.leaveGroup (ByteArr.zero 32)).1 = [] ∧
      ¬ pair.Notified (pair.leaveGroup (ByteArr.zero 32)).1 := by
  have hlong : 446 < (pair.leaveMsg (ByteArr.zero 32) (List.replicate 512 0)).encode.length := by
    rw [length_leaveMsg, length_replicate]
    decide
  have hnil : (pair.leaveGroup (ByteArr.zero 32)).1 = [] := notify_eq_nil pair_rsa4096 hlong
  refine ⟨pair_rsa4096, rfl, hnil, fun h => ?_⟩
  obtain ⟨f, hf, -⟩ := h _ (mem_singleton_self _) (by decide)
  rw [hnil] at hf
  cases hf

end Zentalk
