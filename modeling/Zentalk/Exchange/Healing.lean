import Zentalk.Exchange.Duplex

/-!
# Sessions of the client never ratchet

Both have each other's DH key already, so no message brings a new one (`quiet_run`).
-/

namespace Zentalk

open Wire Runs List Function Party Handshake

variable {K : Suite}

/-! ## Healing -/

def Sends (p : Party) (evs : List (Event K)) : Prop := ∃ key root, Event.sent p key root ∈ evs

def Receives (p : Party) (evs : List (Event K)) : Prop := ∃ key, Event.received p key ∈ evs

/-- The party has sent nothing since it first saw this DH key. -/
def Unanswered (p : Party) (key : DHPublicKey) (evs : List (Event K)) : Prop :=
  ∃ pre post, evs = pre ++ .received p key :: post ∧ .received p key ∉ pre ∧ ¬ Sends p post

def Heals (evs : List (Event K)) : Prop :=
  ∀ pre post p key root, evs = pre ++ .sent p key root :: post → (∃ k, Unanswered p k pre) →
    ∀ root', Event.sent p key root' ∉ pre

/-- The party sends before and after the first message it receives. -/
def Resumes (p : Party) (evs : List (Event K)) : Prop :=
  ∃ pre key post, evs = pre ++ .received p key :: post ∧ ¬ Receives p pre ∧ Sends p pre ∧
    Sends p post

/-- One round of an alternating conversation: the DH key and the root key of each message. -/
structure Round (K : Suite) where
  aliceKey : DHPublicKey
  aliceRoot : K.RootKey
  bobKey : DHPublicKey
  bobRoot : K.RootKey

def Round.events (r : Round K) : List (Event K) :=
  [.sent .alice r.aliceKey r.aliceRoot, .received .bob r.aliceKey,
    .sent .bob r.bobKey r.bobRoot, .received .alice r.bobKey]

def conversation (rounds : List (Round K)) : List (Event K) := rounds.flatMap Round.events

/-- Each party has a new DH key and a new root key in every round after the first. -/
def FreshRounds (rounds : List (Round K)) : Prop :=
  rounds.Pairwise (fun r r' => r.aliceKey ≠ r'.aliceKey ∧ r.bobKey ≠ r'.bobKey) ∧
  rounds.IsChain (fun r r' => r.aliceRoot ≠ r'.aliceRoot ∧ r.bobRoot ≠ r'.bobRoot)

section

/-! ## Both parties keep their keys -/

/-- The party stored no skipped keys and still has these keys. -/
structure Keeps (keys : Party → DHPublicKey) (root : K.RootKey) (p : Party) (s : RatchetState K) :
    Prop where
  noSkipped : s.skippedMessageKeys = ∅
  key : s.dhSendingPublic = keys p
  root : s.rootKey = root

/-- Both directions are in `Sync`, and both parties keep their keys. -/
structure Quiet (aesDecrypt : K.Cipher)
    (keys : Party → DHPublicKey) (root : K.RootKey) (d : Duplex K) : Prop where
  sync : ∀ p, Sync aesDecrypt (d.state p) (d.state p.peer) (d.inbox p.peer)
  keeps : ∀ p, Keeps keys root p (d.state p)

/-- The event shows those keys. -/
def Fixed (keys : Party → DHPublicKey) (root : K.RootKey) : Event K → Prop
  | .sent p key r => key = keys p ∧ r = root
  | .received p key => key = keys p.peer

variable {aesDecrypt : K.Cipher} {keys : Party → DHPublicKey} {root : K.RootKey}

variable {d : Duplex K}

theorem quiet_encrypt (h : Quiet aesDecrypt keys root d) (x : Party) {plaintext ciphertext : Bytes}
    (hlt : (d.state x).sendingMsgNum.toNat + 1 < 2 ^ 32)
    (hopen : aesDecrypt ciphertext (d.state x).sendingKey = .ok plaintext) :
    Quiet aesDecrypt keys root
      { d with
        state := update d.state x (d.state x).advanceSending
        inbox := update d.inbox x.peer
          (d.inbox x.peer ++ [⟨(d.state x).nextHeader.encode, ciphertext, plaintext⟩]) } := by
  have hx := h.keeps x
  constructor
  · intro p
    rcases eq_or_eq_peer p x with rfl | rfl
    · simp only [update_self, update_peer]
      exact sync_encrypt (h.sync x) hlt hopen
    · simp only [peer_peer, update_self, update_of_peer, update_peer]
      exact sync_receiver_sends (h.sync p)
  · exact (forall_update_iff d.state (Keeps keys root)).mpr
      ⟨⟨hx.noSkipped, hx.key, hx.root⟩, fun p _ => h.keeps p⟩

theorem quiet_deliver (h : Quiet aesDecrypt keys root d) {x : Party} {m : Flight}
    {rest : List Flight} (hin : d.inbox x = m :: rest) (rand : RandomKey)
    (published : List DHPublicKey) :
    ratchetDecrypt (d.state x) m.header m.ciphertext rand aesDecrypt =
      ((d.state x).advanceReceiving, .ok m.plaintext) ∧
    headerKey m.header = keys x.peer ∧
    Quiet aesDecrypt keys root
      { state := update d.state x (d.state x).advanceReceiving
        inbox := update d.inbox x rest
        published := published } := by
  have hx := h.keeps x
  have hsync := h.sync x.peer
  rw [peer_peer, hin] at hsync
  obtain ⟨⟨num, -, hheader⟩, -, -⟩ := hsync.segment
  obtain ⟨hdec, hsync'⟩ := sync_deliver hsync hx.noSkipped rand
  refine ⟨hdec, ?_, ?_, ?_⟩
  · rw [hheader, headerKey_encode]
    exact (h.keeps x.peer).key
  · intro p
    rcases eq_or_eq_peer p x with rfl | rfl
    · simp only [update_self, update_peer]
      exact sync_sender_receives (h.sync x)
    · simp only [update_self, update_of_peer]
      rw [peer_peer] at hsync'
      exact hsync'
  · exact (forall_update_iff d.state (Keeps keys root)).mpr
      ⟨⟨hx.noSkipped, hx.key, hx.root⟩, fun p _ => h.keeps p⟩

theorem quiet_step {d d' : Duplex K} {e : Event K} (h : Quiet aesDecrypt keys root d)
    (hstep : Duplex.Step aesDecrypt d e d') :
    Quiet aesDecrypt keys root d' ∧ Fixed keys root e := by
  cases hstep with
  | encrypt x hinverts hlt henc =>
    obtain ⟨rfl, rfl, hopen⟩ := encrypt_ok hinverts henc
    exact ⟨quiet_encrypt h x hlt hopen, (headerKey_encode _).trans (h.keeps x).key,
      (h.keeps x).root⟩
  | @deliver x m rest newPrivate s result hin hfresh hdec =>
    obtain ⟨hdec', hkey, hquiet⟩ := quiet_deliver h hin (.ok newPrivate)
      (s.dhSendingPublic :: d.published)
    obtain ⟨rfl, -⟩ := Prod.mk.inj (hdec'.symm.trans hdec)
    exact ⟨hquiet, hkey⟩

variable {evs : List (Event K)}

theorem quiet_run {d₀ d : Duplex K} (h₀ : Quiet aesDecrypt keys root d₀)
    (hrun : Run (Duplex.Step aesDecrypt) d₀ evs d) :
    Quiet aesDecrypt keys root d ∧ ∀ e ∈ evs, Fixed keys root e := by
  refine hrun.trace_invariant (I := fun evs d => Quiet aesDecrypt keys root d ∧
    ∀ e ∈ evs, Fixed keys root e) ⟨h₀, fun _ h => nomatch h⟩ ?_
  intro evs e d d' ⟨hquiet, hfixed⟩ hstep
  obtain ⟨hquiet', he⟩ := quiet_step hquiet hstep
  refine ⟨hquiet', fun e' hmem => ?_⟩
  rcases mem_append.mp hmem with hmem | hmem
  · exact hfixed e' hmem
  · rw [mem_singleton.mp hmem]
    exact he

def ratchetKeys (h : Handshake K) (eph : ByteArr 32) (p x : Party) : DHPublicKey :=
  if x = p then K.scalarBaseMult eph else h.signedPreKey.publicKey

theorem quiet_handshake (hdh : K.DHCommutes) (h : Handshake K) (eph : ByteArr 32) {p : Party}
    (hinit : d.state p = h.initiatorState eph) (hresp : d.state p.peer = h.responderState eph)
    (hempty : ∀ x, d.inbox x = []) :
    Quiet aesDecrypt (ratchetKeys h eph p) (h.initiatorState eph).rootKey d := by
  obtain ⟨hroot, hchain⟩ := h.states_match hdh eph
  constructor
  · intro x
    rw [hempty]
    rcases eq_or_eq_peer p x with rfl | rfl
    · rw [hinit, hresp]
      exact ⟨rfl, trivial, hchain, rfl⟩
    · rw [peer_peer, hinit, hresp]
      exact ⟨rfl, trivial, rfl, rfl⟩
  · intro x
    rcases eq_or_eq_peer p x with rfl | rfl
    · rw [hinit]
      exact ⟨rfl, (if_pos rfl).symm, rfl⟩
    · rw [hresp]
      exact ⟨rfl, (if_neg (peer_ne p)).symm, hroot⟩

/-! ## What follows for traces -/

theorem heals_iff (hfixed : ∀ e ∈ evs, Fixed keys root e) : Heals evs ↔ ∀ p, ¬ Resumes p evs := by
  -- a party only ever sends one event, and only ever receives one
  have hsent : ∀ l, l ⊆ evs → ∀ p, Sends p l → .sent p (keys p) root ∈ l := by
    rintro l hl p ⟨key, r, hmem⟩
    obtain ⟨rfl, rfl⟩ := hfixed _ (hl hmem)
    exact hmem
  constructor
  · rintro hheals p ⟨pre, key, post, rfl, hfirst, hbefore, hafter⟩
    have hpre := hsent pre (subset_append_left _ _) p hbefore
    have hpost := hsent post (fun _ h => mem_append_right _ (mem_cons_of_mem _ h)) p hafter
    obtain ⟨a, b, rfl, hnot⟩ := eq_append_cons_of_mem hpost
    refine hheals (pre ++ .received p key :: a) b p (keys p) root (by simp)
      ⟨key, pre, a, rfl, fun hmem => hfirst ⟨key, hmem⟩, fun hs => hnot (hsent a ?_ p hs)⟩ root
      (mem_append_left _ hpre)
    intro e he
    simp [he]
  · rintro hres pre post p key r rfl ⟨k, a, b, rfl, hfirst, hquiet⟩ r' hmem
    apply hres p
    refine ⟨a, k, b ++ .sent p key r :: post, by simp, ?_, ?_, key, r, by simp⟩
    · rintro ⟨k', hk'⟩
      have h1 : k' = keys p.peer := hfixed (.received p k') (by simp [hk'])
      have h2 : k = keys p.peer := hfixed (.received p k) (by simp)
      rw [h1, ← h2] at hk'
      exact hfirst hk'
    · rcases mem_append.mp hmem with hmem | hmem
      · exact ⟨key, r', hmem⟩
      · rcases mem_cons.mp hmem with hmem | hmem
        · cases hmem
        · exact absurd ⟨key, r', hmem⟩ hquiet

theorem freshRounds_iff {rounds : List (Round K)}
    (hfixed : ∀ e ∈ conversation rounds, Fixed keys root e) :
    FreshRounds rounds ↔ rounds.length ≤ 1 := by
  have hkey : ∀ r ∈ rounds, r.aliceKey = keys .alice := by
    intro r hr
    have hmem : .sent .alice r.aliceKey r.aliceRoot ∈ conversation rounds :=
      mem_flatMap.mpr ⟨r, hr, mem_cons_self⟩
    exact (hfixed _ hmem).1
  constructor
  · rintro ⟨hpairs, -⟩
    cases rounds with
    | nil => exact Nat.zero_le 1
    | cons r rounds =>
      cases rounds with
      | nil => exact Nat.le_refl 1
      | cons r' rounds =>
        have hne := (pairwise_cons.mp hpairs).1 r' mem_cons_self
        have heq : r.aliceKey = r'.aliceKey := by
          rw [hkey r mem_cons_self, hkey r' (by simp)]
        exact absurd heq hne.1
  · intro hlen
    cases rounds with
    | nil => exact ⟨List.Pairwise.nil, List.IsChain.nil⟩
    | cons r rounds =>
      obtain rfl : rounds = [] := length_eq_zero_iff.mp (by simpa using hlen)
      exact ⟨pairwise_singleton _ _, List.IsChain.singleton _⟩

end

/-- A send while a DH key is unanswered carries a new DH key exactly when the party has not sent
before, and a conversation is fresh after its first round exactly when it has no such round. -/
theorem healing_iff (hdh : K.DHCommutes) {aesDecrypt : K.Cipher} {h : Handshake K}
    {eph : ByteArr 32} {alice bob : RatchetState K} (hc : h.Completes eph alice bob)
    {evs : List (Event K)} {d : Duplex K}
    (hrun : Run (Duplex.Step aesDecrypt) (Duplex.start alice bob) evs d) :
    (Heals evs ↔ ∀ p, ¬ Resumes p evs) ∧
    ∀ rounds, evs = conversation rounds → (FreshRounds rounds ↔ rounds.length ≤ 1) := by
  obtain ⟨rfl, rfl⟩ := completes_eq hdh hc
  have hquiet : Quiet aesDecrypt (ratchetKeys h eph .alice) (h.initiatorState eph).rootKey
      (Duplex.start (h.initiatorState eph) (h.responderState eph)) :=
    quiet_handshake hdh h eph rfl rfl fun _ => rfl
  obtain ⟨-, hfixed⟩ := quiet_run hquiet hrun
  exact ⟨heals_iff hfixed, fun rounds heq => freshRounds_iff (heq ▸ hfixed)⟩

/-! ## A conversation of two rounds -/

def sampleRound : Round freeSuite :=
  { aliceKey := fill 32 5
    aliceRoot := sampleInitiator.rootKey
    bobKey := fill 32 3
    bobRoot := sampleInitiator.rootKey }

theorem two_rounds : ∃ d : Duplex freeSuite,
    Run (Duplex.Step aesDecryptGCM) (Duplex.start sampleInitiator sampleResponder)
      (conversation [sampleRound, sampleRound]) d := by
  have hgcm := freeSuite_gcmOpens
  have h0 : Run (Duplex.Step aesDecryptGCM) (Duplex.start sampleInitiator sampleResponder) [] _ :=
    Run.nil
  have h1 := h0.snoc (encrypt_step hgcm (fill 12 0) _ .alice [7] (by decide))
  have h2 := h1.snoc (deliver_step (p := .bob) (fill 32 9) rfl (by decide))
  have h3 := h2.snoc (encrypt_step hgcm (fill 12 0) _ .bob [7] (by decide))
  have h4 := h3.snoc (deliver_step (p := .alice) (fill 32 9) rfl (by decide))
  have h5 := h4.snoc (encrypt_step hgcm (fill 12 0) _ .alice [7] (by decide))
  have h6 := h5.snoc (deliver_step (p := .bob) (fill 32 9) rfl (by decide))
  have h7 := h6.snoc (encrypt_step hgcm (fill 12 0) _ .bob [7] (by decide))
  have h8 := h7.snoc (deliver_step (p := .alice) (fill 32 9) rfl (by decide))
  exact ⟨_, h8⟩

/-- In the second round Alice sends the DH key of the first again, although Bob has answered. -/
theorem healing_fails : ∃ (d : Duplex freeSuite) (rounds : List (Round freeSuite)),
    (sampleHandshake ∅).Completes (fill 32 5) sampleInitiator sampleResponder ∧
    Run (Duplex.Step aesDecryptGCM) (Duplex.start sampleInitiator sampleResponder)
      (conversation rounds) d ∧
    rounds.length = 2 ∧ ¬ Heals (conversation rounds) ∧ ¬ FreshRounds rounds := by
  obtain ⟨d, hrun⟩ := two_rounds
  refine ⟨d, _, completes freeSuite_dhCommutes rfl _, hrun, rfl, ?_, ?_⟩
  · intro hheals
    refine hheals (sampleRound.events) _ .alice sampleRound.aliceKey sampleRound.aliceRoot rfl
      ⟨sampleRound.bobKey, sampleRound.events.take 3, [], rfl, ?_, ?_⟩ sampleRound.aliceRoot
      mem_cons_self
    · simp [Round.events]
    · rintro ⟨_, _, hmem⟩
      exact nomatch hmem
  · rintro ⟨hpairs, -⟩
    exact ((pairwise_cons.mp hpairs).1 sampleRound mem_cons_self).1 rfl

theorem healing_iff_two_rounds : ∃ d : Duplex freeSuite,
    Run (Duplex.Step aesDecryptGCM) (Duplex.start sampleInitiator sampleResponder)
      (conversation [sampleRound, sampleRound]) d ∧
    (Heals (conversation [sampleRound, sampleRound]) ↔
      ∀ p, ¬ Resumes p (conversation [sampleRound, sampleRound])) := by
  obtain ⟨d, hrun⟩ := two_rounds
  exact ⟨d, hrun, (healing_iff freeSuite_dhCommutes
    (completes freeSuite_dhCommutes rfl (fill 32 5)) hrun).1⟩

end Zentalk
