import Zentalk.Network.Transport
import Zentalk.Exchange.Errors

/-!
# What a received payload does to the sessions

`trySessions_kept_iff`: the loop changes nothing just when every session rejects the header.
-/

namespace Zentalk

open Wire Finmap

variable {K : Suite}

/-! ## The branches of the handler -/

/-- The payload after the attempt to undo RSA encryption. -/
def ReceiveEnv.unwrapped (env : ReceiveEnv) (payload : Bytes) : Bytes :=
  (env.rsaDecrypt payload).getD payload

/-- The header and the ciphertext that the ratchet branch reads from a payload. -/
def ratchetParts (payload : Bytes) : Option (Bytes × Bytes) :=
  let headerLen := getUint (slice payload 0 2)
  if 2 < payload.length ∧ 40 ≤ headerLen ∧ headerLen ≤ 200 ∧ 2 + headerLen ≤ payload.length then
    some (slice payload 2 headerLen, payload.drop (2 + headerLen))
  else none

/-- Go iterates over each session once. -/
structure ReceiveEnv.Iterates (env : ReceiveEnv) (c : Client K) : Prop where
  nodup : env.order.Nodup
  order : ∀ addr, addr ∈ env.order ↔ (c.ratchetSessions.lookup addr).isSome

variable (c : Client K)

/-- Nothing happens, an initial message is handed to `InitializeRatchetSession`, or the sessions are
tried. -/
theorem handleDirectMessage_cases (payload : Bytes) (env : ReceiveEnv) :
    let out := handleDirectMessage c payload env
    ((IsInitial (env.unwrapped payload) ∨ ratchetParts (env.unwrapped payload) = none) ∧
      out.1 = c ∧ ∀ sender, out.2 ≠ .sessionReady sender) ∨
    (IsInitial (env.unwrapped payload) ∧ ∃ initialMsg,
      let opened := initializeRatchetSession c initialMsg.senderAddress initialMsg env.saveNew
      out.1 = opened.1 ∧
        (opened.2 = .ok () ∧ out.2 = .sessionReady initialMsg.senderAddress ∨
          opened.2 ≠ .ok () ∧ ∀ sender, out.2 ≠ .sessionReady sender)) ∨
    (¬ IsInitial (env.unwrapped payload) ∧ ∃ ratchetHeader ciphertext,
      ratchetParts (env.unwrapped payload) = some (ratchetHeader, ciphertext) ∧
      out.1 = (trySessions ratchetHeader ciphertext env.rand env.order c).1 ∧
      ∀ sender, out.2 ≠ .sessionReady sender) := by
  simp only [handleDirectMessage, ratchetParts]
  rw [show (env.rsaDecrypt payload).getD payload = env.unwrapped payload from rfl]
  by_cases hinit : IsInitial (env.unwrapped payload)
  · rw [if_pos (show 4 < _ ∧ _ from hinit)]
    cases InitialMessage.decode ((env.unwrapped payload).drop 4) with
    | error e => exact .inl ⟨.inl hinit, rfl, by simp⟩
    | ok initialMsg =>
      refine .inr (.inl ⟨hinit, initialMsg, ?_⟩)
      simp only
      split
      · next e h => exact ⟨by rw [h], .inr (by simp [h])⟩
      · next h => exact ⟨by rw [h], .inl (by simp [h])⟩
  · rw [if_neg (show ¬ (4 < _ ∧ _) from hinit)]
    split
    · refine .inr (.inr ⟨hinit, _, _, rfl, ?_⟩)
      split <;> next h => exact ⟨by rw [h], by simp⟩
    · exact .inl ⟨.inr rfl, rfl, by simp⟩

theorem tryDecryptRatchetMessage_cases (payload : Bytes) (sender : Address)
    (rand : RandomKey) (outcome : WriteOutcome) :
    ((ratchetParts payload = none ∨ c.ratchetSessions.lookup sender = none) ∧
      tryDecryptRatchetMessage c payload sender rand outcome = (c, none)) ∨
    ∃ ratchetHeader ciphertext session,
      ratchetParts payload = some (ratchetHeader, ciphertext) ∧
      c.ratchetSessions.lookup sender = some session ∧
      tryDecryptRatchetMessage c payload sender rand outcome = c.settle sender outcome
        (ratchetDecrypt session ratchetHeader ciphertext rand aesDecryptGCM) := by
  simp only [tryDecryptRatchetMessage, ratchetParts]
  by_cases hread : 2 < payload.length ∧ 40 ≤ getUint (slice payload 0 2) ∧
      getUint (slice payload 0 2) ≤ 200 ∧ 2 + getUint (slice payload 0 2) ≤ payload.length
  · rw [if_pos hread, if_neg (by omega), if_neg (by omega)]
    cases c.ratchetSessions.lookup sender with
    | none => exact .inl ⟨.inr rfl, rfl⟩
    | some session => exact .inr ⟨_, _, session, rfl, rfl, rfl⟩
  · rw [if_neg hread]
    refine .inl ⟨.inl rfl, ?_⟩
    split
    · rfl
    · rw [if_pos (by omega)]

theorem initializeRatchetSession_sessions (sender : Address) (initialMsg : InitialMessage)
    (outcome : WriteOutcome) :
    let out := initializeRatchetSession c sender initialMsg outcome
    ((out.2 = .ok () → c.ratchetSessions.lookup sender ≠ none) ∧
      out.1.ratchetSessions = c.ratchetSessions ∧ out.1.sessionStorage = c.sessionStorage) ∨
    (out.2 = .ok () ∧ c.ratchetSessions.lookup sender = none ∧ ∃ secret spk,
      let session : RatchetState K :=
        responderSession secret spk initialMsg.ephemeralKey c.address sender
      out.1.ratchetSessions = c.ratchetSessions.insert sender session ∧
      out.1.sessionStorage = (c.persist sender session outcome).sessionStorage) := by
  intro out
  have hfails : ∀ {e : String} {P : Prop}, (Except.error e : Except String Unit) = .ok () → P := by
    intro e P h
    cases h
  simp only [out, initializeRatchetSession]
  cases c.x3dhIdentity with
  | none => exact .inl ⟨hfails, rfl, rfl⟩
  | some identity =>
    cases c.signedPreKey with
    | none => exact .inl ⟨hfails, rfl, rfl⟩
    | some spk =>
      cases hlook : c.ratchetSessions.lookup sender with
      | some session => exact .inl ⟨fun _ => Option.some_ne_none _, rfl, rfl⟩
      | none =>
        simp only
        split
        · exact .inl ⟨hfails, rfl, rfl⟩
        · next secret _ => exact .inr ⟨rfl, trivial, secret, spk, rfl, rfl⟩

/-! ## The loop over the sessions -/

section Loop

variable {c : Client K} {ratchetHeader ciphertext : Bytes}
  {rand : Address → RandomKey} {order : List Address}

theorem trySessions_client (c : Client K) (order : List Address) :
    ∃ sessions, (trySessions ratchetHeader ciphertext rand order c).1 =
      { c with ratchetSessions := sessions } := by
  induction order generalizing c with
  | nil => exact ⟨c.ratchetSessions, rfl⟩
  | cons addr order ih =>
    rw [trySessions]
    split
    · exact ih c
    · split
      · exact ⟨_, rfl⟩
      · obtain ⟨sessions, h⟩ := ih (c.setSession addr _)
        exact ⟨sessions, h⟩

variable {addr : Address}

theorem trySessions_other (h : addr ∉ order) :
    (trySessions ratchetHeader ciphertext rand order c).1.ratchetSessions.lookup addr =
      c.ratchetSessions.lookup addr := by
  induction order generalizing c with
  | nil => rfl
  | cons a order ih =>
    rw [List.mem_cons, not_or] at h
    rw [trySessions]
    split
    · exact ih h.2
    · split
      · exact lookup_insert_of_ne _ h.1
      · rw [ih h.2]
        exact lookup_insert_of_ne _ h.1

theorem trySessions_head (ratchetHeader ciphertext : Bytes)
    (rand : Address → RandomKey) {session : RatchetState K} (hhead : addr ∉ order)
    (hsession : c.ratchetSessions.lookup addr = some session) :
    (trySessions ratchetHeader ciphertext rand (addr :: order) c).1.ratchetSessions.lookup addr =
      some (ratchetDecrypt session ratchetHeader ciphertext (rand addr) aesDecryptGCM).1 := by
  simp only [trySessions, hsession]
  split
  · next h =>
    rw [h]
    exact lookup_insert _
  · next h =>
    rw [h, trySessions_other hhead]
    exact lookup_insert _

/-- After the loop each session is as it was, or as its own attempt left it. -/
theorem trySessions_lookup (hnodup : order.Nodup) (addr : Address) :
    (trySessions ratchetHeader ciphertext rand order c).1.ratchetSessions.lookup addr =
      c.ratchetSessions.lookup addr ∨
    ∃ session, c.ratchetSessions.lookup addr = some session ∧
      (trySessions ratchetHeader ciphertext rand order c).1.ratchetSessions.lookup addr =
        some (ratchetDecrypt session ratchetHeader ciphertext (rand addr) aesDecryptGCM).1 := by
  induction order generalizing c with
  | nil => exact .inl rfl
  | cons a order ih =>
    obtain ⟨hhead, hnodup⟩ := List.nodup_cons.mp hnodup
    by_cases ha : addr = a
    · subst ha
      cases hlook : c.ratchetSessions.lookup addr with
      | none =>
        refine .inl ?_
        simp only [trySessions, hlook]
        exact (trySessions_other hhead).trans hlook
      | some session => exact .inr ⟨session, rfl, trySessions_head _ _ _ hhead hlook⟩
    · rw [trySessions]
      split
      · exact ih hnodup
      · split
        · exact .inl (lookup_insert_of_ne _ ha)
        · next session' _ _ =>
          have hsame : (c.setSession a session').ratchetSessions.lookup addr =
              c.ratchetSessions.lookup addr := lookup_insert_of_ne _ ha
          have hrest := ih (c := c.setSession a session') hnodup
          rw [hsame] at hrest
          exact hrest

theorem turnsAway_of_rejects
    (h : ∀ session, c.ratchetSessions.lookup addr = some session → Rejects session ratchetHeader) :
    TurnsAway c ratchetHeader ciphertext rand addr := by
  intro session hsession
  exact rejects_result (h session hsession) ciphertext (rand addr) aesDecryptGCM

/-- The loop changes no session exactly when every session that it meets rejects the header. -/
theorem trySessions_kept_iff (ratchetHeader ciphertext : Bytes)
    (rand : Address → RandomKey) (hnodup : order.Nodup) :
    (trySessions ratchetHeader ciphertext rand order c).1.ratchetSessions = c.ratchetSessions ↔
      ∀ addr ∈ order, ∀ session, c.ratchetSessions.lookup addr = some session →
        Rejects session ratchetHeader := by
  constructor
  · intro hkept
    induction order with
    | nil => exact fun _ h => nomatch h
    | cons a order ih =>
      obtain ⟨hhead, hnodup⟩ := List.nodup_cons.mp hnodup
      have ha : ∀ session, c.ratchetSessions.lookup a = some session →
          Rejects session ratchetHeader := by
        intro session hsession
        have hnow := trySessions_head ratchetHeader ciphertext rand hhead hsession
        rw [hkept, hsession] at hnow
        exact (state_kept_iff _ _ _ _ _).mp (Option.some.inj hnow).symm
      rw [trySessions_skip (turnsAway_of_rejects ha)] at hkept
      intro addr hmem
      rcases List.mem_cons.mp hmem with rfl | hmem
      · exact ha
      · exact ih hnodup hkept addr hmem
  · intro h
    rw [trySessions_none fun addr hmem => turnsAway_of_rejects (h addr hmem)]

end Loop

end Zentalk
