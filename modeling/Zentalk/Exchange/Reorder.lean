import Zentalk.Exchange.Duplex
import Zentalk.Exchange.Window

/-!
# Messages of one chain in any order

`Simulates` ties the state of the receiver to a `Window` (`allDecrypt_iff_aligned`).
-/

namespace Zentalk

open Wire Window List Function UInt32 RatchetState MessageHeader Nat

variable {K : Suite}

/-- The sender encrypts these messages on its current chain, one after the other. -/
inductive SendsChain (aesDecrypt : K.Cipher)
    (s : RatchetState K) : List Flight → RatchetState K → Prop
  | nil : SendsChain aesDecrypt s [] s
  | snoc {q : List Flight} {s' s'' : RatchetState K} {plaintext header ciphertext : Bytes}
      {aesEncrypt : K.Cipher} :
      SendsChain aesDecrypt s q s' → Inverts aesEncrypt aesDecrypt →
      s'.sendingMsgNum.toNat + 1 < 2 ^ 32 →
      ratchetEncrypt s' plaintext aesEncrypt = (s'', .ok (header, ciphertext)) →
      SendsChain aesDecrypt s (q ++ [⟨header, ciphertext, plaintext⟩]) s''

/-- Each message, given next to its place in the order of sending, decrypts to its own plaintext. -/
def AllDecrypt (aesDecrypt : K.Cipher)
    (rand : Nat → DHPrivateKey) : RatchetState K → List (Flight × Nat) → Prop
  | _, [] => True
  | r, (m, i) :: ms =>
    (ratchetDecrypt r m.header m.ciphertext (.ok (rand i)) aesDecrypt).2 = .ok m.plaintext ∧
    AllDecrypt aesDecrypt rand
      (ratchetDecrypt r m.header m.ciphertext (.ok (rand i)) aesDecrypt).1 ms

/-- The receiver follows the sender's chain and has not been given the last `k` messages
before the sender's next one. Either it is on that chain, or it has not seen the chain's DH
key and can ratchet to it. It has no keys for messages that are still to be sent. -/
inductive Tracks (s r : RatchetState K) (k : Nat) : Prop
  | sameChain : r.dhReceivingPublic = s.dhSendingPublic →
      s.sendingChainKey = K.chainAt r.receivingChainKey k →
      r.receivingMsgNum ≤ s.sendingMsgNum →
      (∀ num, s.sendingMsgNum ≤ num →
        r.skippedMessageKeys.lookup ⟨s.dhSendingPublic, num⟩ = none) → Tracks s r k
  | newChain : r.dhReceivingPublic ≠ s.dhSendingPublic →
      ¬ SkipsTooMany r.receivingMsgNum s.previousChainLen →
      s.sendingChainKey =
        K.chainAt (K.kdfRK r.rootKey (K.dh r.dhSendingPrivate s.dhSendingPublic)).2 k →
      s.sendingMsgNum.toNat = k →
      (∀ num, r.skippedMessageKeys.lookup ⟨s.dhSendingPublic, num⟩ = none) → Tracks s r k

section

variable {aesDecrypt : K.Cipher}

/-! ## What the sender sends -/

variable {q : List Flight} {dhKey : DHPublicKey} {prev : UInt32} {ck : K.ChainKey}
  {r : RatchetState K}

theorem sendsChain_segment {s s' : RatchetState K} (h : SendsChain aesDecrypt s q s') :
    Segment aesDecrypt s.dhSendingPublic s.previousChainLen s.sendingChainKey
        s.sendingMsgNum.toNat q ∧
      s'.sendingChainKey = K.chainAt s.sendingChainKey q.length ∧
      s'.sendingMsgNum.toNat = s.sendingMsgNum.toNat + q.length ∧
      s'.dhSendingPublic = s.dhSendingPublic ∧ s'.previousChainLen = s.previousChainLen := by
  induction h with
  | nil => exact ⟨trivial, rfl, rfl, rfl, rfl⟩
  | @snoc q s' s'' plaintext header ciphertext aesEncrypt _ hinv hlt henc ih =>
    obtain ⟨hseg, hchain, hnum, hkey, hprev⟩ := ih
    obtain ⟨rfl, rfl, hopen⟩ := encrypt_ok hinv henc
    refine ⟨segment_concat hseg ⟨s'.sendingMsgNum, hnum, ?_⟩ ?_, ?_, ?_, hkey, hprev⟩
    · rw [nextHeader, hkey, hprev]
    · rw [← hchain]
      exact hopen
    · rw [length_append, length_singleton, K.chainAt_succ, ← hchain]
      rfl
    · rw [length_append, length_singleton, ← add_assoc, ← hnum]
      exact toNat_succ hlt

theorem segment_get {n : Nat} (h : Segment aesDecrypt dhKey prev ck n q) {i : Nat} {m : Flight}
    (hm : q[i]? = some m) :
    (∃ num : UInt32, num.toNat = n + i ∧ m.header = (MessageHeader.mk dhKey prev num).encode) ∧
    aesDecrypt m.ciphertext (K.keyAt ck i) = .ok m.plaintext := by
  induction q generalizing ck n i with
  | nil => cases hm
  | cons x q ih =>
    obtain ⟨hx, hopen, htail⟩ := h
    cases i with
    | zero =>
      obtain rfl := Option.some.inj hm
      exact ⟨hx, hopen⟩
    | succ i =>
      obtain ⟨⟨num, hnum, hheader⟩, hopen'⟩ := ih htail hm
      exact ⟨⟨num, by omega, hheader⟩, hopen'⟩

/-! ## One delivery -/

/-- The receiver's state follows the window. Numbers are counted from `base`, and chain
positions from the chain key `ck`; only numbers from `low` on matter. -/
structure Simulates (dhKey : DHPublicKey) (ck : K.ChainKey) (base low : Nat)
    (r : RatchetState K) (w : Window) : Prop where
  key : r.dhReceivingPublic = dhKey
  chain : r.receivingChainKey = K.chainAt ck w.position
  counter : r.receivingMsgNum.toNat = base + w.counter
  stored : ∀ num : UInt32, low ≤ num.toNat →
    r.skippedMessageKeys.lookup ⟨dhKey, num⟩ = (w.stored (num.toNat - base)).map (K.keyAt ck)
  le : w.counter ≤ w.position

section Delivery

variable {dhKey : DHPublicKey} {ck : K.ChainKey} {base low : Nat} {r : RatchetState K}
  {w : Window} {prev num : UInt32}

section

variable (h : Simulates dhKey ck base low r w)

include h

theorem simulates_ahead (j : UInt32) : r.ahead j = j.toNat - base - w.counter := by
  unfold ahead
  rw [h.counter]
  omega

theorem simulates_refuses : r.Refuses ⟨dhKey, prev, num⟩ ↔ 1000 < num.toNat - base - w.counter := by
  have hahead := simulates_ahead h num
  unfold ahead at hahead
  constructor
  · rintro ⟨hlt, hmany⟩
    rw [skipsTooMany_iff (UInt32.le_of_lt hlt)] at hmany
    dsimp only at hmany
    omega
  · intro hmany
    have hlt : r.receivingMsgNum < num := lt_iff_toNat_lt.mpr (by omega)
    refine ⟨hlt, ?_⟩
    rw [skipsTooMany_iff (UInt32.le_of_lt hlt)]
    omega

theorem simulates_skip (hbase : base ≤ low) :
    Simulates dhKey ck base low (r.skipTo dhKey num) (w.skip (num.toNat - base)) := by
  constructor
  · exact h.key
  · show K.chainAt r.receivingChainKey (r.ahead num) = _
    rw [h.chain, K.chainAt_chainAt, simulates_ahead h]
    rfl
  · exact h.counter
  · intro j hj
    rw [lookup_skipTo, h.stored j hj, h.counter, simulates_ahead h, h.chain, K.keyAt_chainAt]
    have hrange : (base + w.counter ≤ j.toNat ∧ j.toNat < num.toNat) ↔
        (w.counter ≤ j.toNat - base ∧ j.toNat - base < num.toNat - base) := by
      omega
    simp only [Window.skip, hrange]
    split
    · rfl
    · rfl
  · show w.counter ≤ w.position + _
    have := h.le
    omega

/-- A delivery takes the key at the window's position, and goes on following the window if that is
right. -/
theorem simulates_take (hbase : base ≤ low) (hlow : low ≤ num.toNat)
    (hnum : num.toNat + 1 < 2 ^ 32) (hok : ¬ r.Refuses ⟨dhKey, prev, num⟩) :
    ∃ r', takeMessageKey r ⟨dhKey, prev, num⟩ =
        (r', .ok (K.keyAt ck (w.take (num.toNat - base)).2)) ∧
      ((w.take (num.toNat - base)).2 = num.toNat - base →
        Simulates dhKey ck base low r' (w.take (num.toNat - base)).1) := by
  have hskip : Simulates dhKey ck base low (r.skipTo dhKey num) (w.skip (num.toNat - base)) :=
    simulates_skip h hbase
  have hlookup := h.stored num hlow
  cases hst : w.stored (num.toNat - base) with
  | some position =>
    rw [hst] at hlookup
    rw [take_some hst]
    refine ⟨_, takeMessageKey_stored hok hlookup, fun _ => ?_⟩
    refine ⟨hskip.key, hskip.chain, hskip.counter, ?_, hskip.le⟩
    intro j hj
    show ((r.skipTo dhKey num).skippedMessageKeys.erase ⟨dhKey, num⟩).lookup ⟨dhKey, j⟩ =
      (update (w.skip (num.toNat - base)).stored (num.toNat - base) none
        (j.toNat - base)).map (K.keyAt ck)
    by_cases hjn : j = num
    · rw [hjn, Finmap.lookup_erase, update_self]
      rfl
    · have hid : (⟨dhKey, j⟩ : MessageKeyID) ≠ ⟨dhKey, num⟩ :=
        fun heq => hjn (congrArg MessageKeyID.messageNum heq)
      have hne : j.toNat - base ≠ num.toNat - base := by
        have : j.toNat ≠ num.toNat := fun heq => hjn (UInt32.toNat_inj.mp heq)
        omega
      rw [Finmap.lookup_erase_ne hid, update_of_ne hne]
      exact hskip.stored j hj
  | none =>
    rw [hst] at hlookup
    have htake : w.take (num.toNat - base) =
        ({ w.skip (num.toNat - base) with
            position := (w.skip (num.toNat - base)).position + 1
            counter := w.counter + 1 }, (w.skip (num.toNat - base)).position) := by
      simp only [Window.take, hst]
    have hkey : K.keyAt r.receivingChainKey (r.ahead num) =
        K.keyAt ck (w.skip (num.toNat - base)).position := by
      rw [h.chain, K.keyAt_chainAt, simulates_ahead h]
      rfl
    rw [htake]
    refine ⟨_, (takeMessageKey_fresh hok hlookup).trans (by rw [hkey]), fun hpos => ?_⟩
    rw [takeFresh_eq]
    refine ⟨hskip.key, ?_, ?_, hskip.stored, ?_⟩
    · show K.nextChainKey (r.skipTo dhKey num).receivingChainKey = _
      rw [hskip.chain, K.chainAt_succ]
    · have hle := h.le
      have hcounter := h.counter
      simp only [Window.skip] at hpos
      show (r.receivingMsgNum + 1).toNat = base + (w.counter + 1)
      rw [toNat_succ (by omega)]
      omega
    · have hle := hskip.le
      exact succ_le_succ hle

end

/-- The message decrypts exactly when it is not too far ahead and the window is right for it. -/
theorem simulates_deliver (hchains : ∀ ck : K.ChainKey, Injective (K.keyAt ck))
    (hone : OpensUnderOneKey aesDecrypt) (h : Simulates dhKey ck base low r w)
    (hbase : base ≤ low) (hlow : low ≤ num.toNat) (hnum : num.toNat + 1 < 2 ^ 32) {m : Flight}
    (hheader : m.header = (MessageHeader.mk dhKey prev num).encode)
    (hopen : aesDecrypt m.ciphertext (K.keyAt ck (num.toNat - base)) = .ok m.plaintext)
    (rand : RandomKey) :
    ((ratchetDecrypt r m.header m.ciphertext rand aesDecrypt).2 = .ok m.plaintext ↔
      num.toNat - base - w.counter ≤ 1000 ∧
      (w.take (num.toNat - base)).2 = num.toNat - base) ∧
    ((w.take (num.toNat - base)).2 = num.toNat - base → num.toNat - base - w.counter ≤ 1000 →
      Simulates dhKey ck base low (ratchetDecrypt r m.header m.ciphertext rand aesDecrypt).1
        (w.take (num.toNat - base)).1) := by
  have hdec : decode m.header = .ok ⟨dhKey, prev, num⟩ := by
    rw [hheader, decode_encode]
  rw [ratchetDecrypt, receivingKey_same hdec h.key.symm]
  by_cases href : r.Refuses ⟨dhKey, prev, num⟩
  · obtain ⟨e, he⟩ := takeMessageKey_refused href
    have hmany := (simulates_refuses h).mp href
    rw [he]
    refine ⟨⟨?_, ?_⟩, fun _ hle => absurd hmany (not_lt.mpr hle)⟩
    · intro hok
      cases hok
    · rintro ⟨hle, -⟩
      exact absurd hmany (not_lt.mpr hle)
  · obtain ⟨r', htake, hnext⟩ := simulates_take h hbase hlow hnum href
    have hfew := fun hmany => href ((simulates_refuses h).mpr hmany)
    rw [htake]
    refine ⟨⟨fun hok => ⟨Nat.le_of_not_lt hfew, ?_⟩, ?_⟩, fun hpos _ => hnext hpos⟩
    · exact hchains ck (hone _ _ _ _ _ hok hopen)
    · rintro ⟨-, hpos⟩
      rw [hpos]
      exact hopen

end Delivery

/-! ## All deliveries -/

/-- The message is number `first + i` of the chain from `ck`, counted from `base`. -/
def Placed (aesDecrypt : K.Cipher) (dhKey : DHPublicKey)
    (prev : UInt32) (ck : K.ChainKey) (base first : Nat) (m : Flight) (i : Nat) : Prop :=
  ∃ num : UInt32, num.toNat = base + (first + i) ∧ num.toNat + 1 < 2 ^ 32 ∧
    m.header = (MessageHeader.mk dhKey prev num).encode ∧
    aesDecrypt m.ciphertext (K.keyAt ck (first + i)) = .ok m.plaintext

variable {msgs : List (Flight × Nat)}

theorem allDecrypt_iff_aligned (hchains : ∀ ck : K.ChainKey, Injective (K.keyAt ck))
    (hone : OpensUnderOneKey aesDecrypt) {base first : Nat} {w : Window}
    (h : Simulates dhKey ck base (base + first) r w)
    (hmsgs : ∀ mi ∈ msgs, Placed aesDecrypt dhKey prev ck base first mi.1 mi.2)
    (rand : Nat → DHPrivateKey) :
    AllDecrypt aesDecrypt rand r msgs ↔ Aligned 1000 w (msgs.map fun mi => first + mi.2) := by
  induction msgs generalizing r w with
  | nil => exact Iff.rfl
  | cons mi msgs ih =>
    obtain ⟨m, i⟩ := mi
    obtain ⟨num, hnum, hlt, hheader, hopen⟩ := hmsgs (m, i) mem_cons_self
    have hx : num.toNat - base = first + i := by omega
    rw [← hx] at hopen
    obtain ⟨hiff, hnext⟩ := simulates_deliver hchains hone h (le_add_right _ _)
      (by omega) hlt hheader hopen (.ok (rand i))
    rw [hx] at hiff hnext
    have hrest := fun mi hmi => hmsgs mi (mem_cons_of_mem _ hmi)
    rw [AllDecrypt, map_cons, Aligned, hiff, and_assoc]
    refine and_congr_right fun hlimit => and_congr_right fun hpos => ?_
    exact ih (hnext hpos hlimit) hrest

theorem first_key (hchains : ∀ ck : K.ChainKey, Injective (K.keyAt ck))
    (hone : OpensUnderOneKey aesDecrypt) {num : UInt32} {base low : Nat}
    (h : Simulates dhKey ck base low r (level 0)) (hbase : base ≤ low) (hlow : low ≤ num.toNat)
    (hnum : num.toNat + 1 < 2 ^ 32) {m : Flight}
    (hheader : m.header = (MessageHeader.mk dhKey prev num).encode) {position : Nat}
    (hopen : aesDecrypt m.ciphertext (K.keyAt ck position) = .ok m.plaintext) {rand : RandomKey}
    (hok : (ratchetDecrypt r m.header m.ciphertext rand aesDecrypt).2 = .ok m.plaintext) :
    position = num.toNat - base := by
  have hdec : decode m.header = .ok ⟨dhKey, prev, num⟩ := by
    rw [hheader, decode_encode]
  rw [ratchetDecrypt, receivingKey_same hdec h.key.symm] at hok
  by_cases href : r.Refuses ⟨dhKey, prev, num⟩
  · obtain ⟨e, he⟩ := takeMessageKey_refused href
    rw [he] at hok
    cases hok
  · obtain ⟨r', htake, -⟩ := simulates_take h hbase hlow hnum href
    rw [htake] at hok
    have hpos : ((level 0).take (num.toNat - base)).2 = num.toNat - base := zero_add _
    rw [hpos] at hok
    exact hchains ck (hone _ _ _ _ _ hopen hok)

theorem tracks_start (aesDecrypt : K.Cipher) {s : RatchetState K} {k : Nat} (h : Tracks s r k) :
    ∃ (ck : K.ChainKey) (base : Nat),
      s.sendingChainKey = K.chainAt ck k ∧ base ≤ s.sendingMsgNum.toNat ∧
      (base + k = s.sendingMsgNum.toNat ↔ (r.dhReceivingPublic = s.dhSendingPublic →
        r.receivingMsgNum.toNat + k = s.sendingMsgNum.toNat)) ∧
      ∀ (num : UInt32) (newPrivate : DHPrivateKey), ∃ r',
        Simulates s.dhSendingPublic ck base s.sendingMsgNum.toNat r' (level 0) ∧
        ∀ ciphertext,
          ratchetDecrypt r (MessageHeader.mk s.dhSendingPublic s.previousChainLen num).encode
            ciphertext (.ok newPrivate) aesDecrypt =
          ratchetDecrypt r' (MessageHeader.mk s.dhSendingPublic s.previousChainLen num).encode
            ciphertext (.ok newPrivate) aesDecrypt := by
  cases h with
  | sameChain hkey hchain hle hnone =>
    refine ⟨r.receivingChainKey, r.receivingMsgNum.toNat, hchain, le_iff_toNat_le.mp hle,
      ⟨fun h _ => h, fun h => h hkey⟩, fun num newPrivate => ⟨r, ?_, fun _ => rfl⟩⟩
    exact ⟨hkey, rfl, rfl, fun j hj => hnone j (le_iff_toNat_le.mpr hj), le_refl 0⟩
  | newChain hkey hfew hchain hnum hnone =>
    refine ⟨_, 0, hchain, zero_le _, ⟨fun _ h => absurd h hkey, fun _ => by omega⟩,
      fun num newPrivate => ⟨r.ratchetTo ⟨s.dhSendingPublic, s.previousChainLen, num⟩ newPrivate,
        ⟨rfl, rfl, rfl, fun j _ => ?_, le_refl 0⟩, fun ciphertext => ?_⟩⟩
    · exact (lookup_skipTo_other (Ne.symm hkey) _).trans (hnone j)
    · have hdec := decode_encode ⟨s.dhSendingPublic, s.previousChainLen, num⟩
      rw [ratchetDecrypt, receivingKey_ratchet hdec (Ne.symm hkey) hfew, ratchetDecrypt,
        receivingKey_same hdec rfl]

theorem places (hperm : msgs.Perm q.zipIdx) (hne : q ≠ []) (k : Nat) :
    (msgs.map fun mi => k + mi.2).Nodup ∧
    (∀ x ∈ msgs.map fun mi => k + mi.2, x ≤ k + q.length - 1) ∧
    k + q.length - 1 ∈ msgs.map fun mi => k + mi.2 := by
  have hpos := length_pos_of_ne_nil hne
  refine ⟨?_, ?_, ?_⟩
  · have hnodup : (msgs.map Prod.snd).Nodup :=
      (hperm.map Prod.snd).nodup_iff.mpr (nodup_zipIdx_map_snd q)
    have hmap := hnodup.map (f := fun i => k + i) fun a b h => add_left_cancel h
    rw [map_map] at hmap
    exact hmap
  · intro x hx
    obtain ⟨⟨m, i⟩, hmem, rfl⟩ := mem_map.mp hx
    have hget := mem_zipIdx_iff_getElem?.mp (hperm.mem_iff.mp hmem)
    obtain ⟨hlt, -⟩ := List.getElem?_eq_some_iff.mp hget
    omega
  · have hget : q[q.length - 1]? = some (q.getLast hne) := by
      rw [← getLast?_eq_getElem?, getLast?_eq_some_getLast hne]
    have hmem : (q.getLast hne, q.length - 1) ∈ q.zipIdx := mem_zipIdx_iff_getElem?.mpr hget
    exact mem_map.mpr ⟨_, hperm.mem_iff.mpr hmem, by dsimp only; omega⟩

end

/-- All messages of a chain decrypt exactly when the receiver's counter is in step and the order
fits the window: in order up to some point, then the last message, then the others, those after the
first missing one in increasing order. -/
theorem reordered_iff {aesDecrypt : K.Cipher} (hchains : ∀ ck : K.ChainKey, Injective (K.keyAt ck))
    (hone : OpensUnderOneKey aesDecrypt) {s s' r : RatchetState K} {q : List Flight}
    (hsent : SendsChain aesDecrypt s q s') {k : Nat} (hr : Tracks s r k)
    {msgs : List (Flight × Nat)} (hperm : msgs.Perm q.zipIdx) (rand : Nat → DHPrivateKey) :
    AllDecrypt aesDecrypt rand r msgs ↔
      q = [] ∨
      ((r.dhReceivingPublic = s.dhSendingPublic →
          r.receivingMsgNum.toNat + k = s.sendingMsgNum.toNat) ∧
        InWindow 1000 (k + q.length - 1) (msgs.map fun mi => k + mi.2)) := by
  by_cases hq : q = []
  · subst hq
    obtain rfl := hperm.eq_nil
    exact ⟨fun _ => .inl rfl, fun _ => trivial⟩
  obtain ⟨hseg, -, hnum', -, -⟩ := sendsChain_segment hsent
  obtain ⟨ck, base, hck, hbase, hcount, hstart⟩ := tracks_start aesDecrypt hr
  -- every message, by its place in the order of sending
  have hget : ∀ mi ∈ msgs, ∃ num : UInt32, num.toNat = s.sendingMsgNum.toNat + mi.2 ∧
      num.toNat + 1 < 2 ^ 32 ∧
      mi.1.header = (mk s.dhSendingPublic s.previousChainLen num).encode ∧
      aesDecrypt mi.1.ciphertext (K.keyAt ck (k + mi.2)) = .ok mi.1.plaintext := by
    intro mi hmi
    have hmem := mem_zipIdx_iff_getElem?.mp (hperm.mem_iff.mp hmi)
    obtain ⟨⟨num, hnum, hheader⟩, hopen⟩ := segment_get hseg hmem
    obtain ⟨hlt, -⟩ := List.getElem?_eq_some_iff.mp hmem
    have hbound := s'.sendingMsgNum.toNat_lt
    rw [hck, K.keyAt_chainAt] at hopen
    exact ⟨num, hnum, by omega, hheader, hopen⟩
  cases msgs with
  | nil =>
    have := hperm.length_eq
    rw [length_zipIdx, length_nil] at this
    exact absurd (length_eq_zero_iff.mp this.symm) hq
  | cons mi msgs =>
    obtain ⟨m, i⟩ := mi
    obtain ⟨num, hnum, hlt, hheader, hopen⟩ := hget (m, i) mem_cons_self
    obtain ⟨r', hsim, hsame⟩ := hstart num (rand i)
    have hfirst : AllDecrypt aesDecrypt rand r ((m, i) :: msgs) ↔
        AllDecrypt aesDecrypt rand r' ((m, i) :: msgs) := by
      rw [AllDecrypt, AllDecrypt, hheader, hsame]
    rw [hfirst]
    by_cases hstep : base + k = s.sendingMsgNum.toNat
    · have hplaced : ∀ mi ∈ (m, i) :: msgs, Placed aesDecrypt s.dhSendingPublic
          s.previousChainLen ck base k mi.1 mi.2 := by
        intro mi hmi
        obtain ⟨num, hnum, h⟩ := hget mi hmi
        exact ⟨num, by omega, h⟩
      obtain ⟨hnodup, hle, hlast⟩ := places hperm hq k
      rw [← hstep] at hsim
      rw [allDecrypt_iff_aligned hchains hone hsim hplaced rand,
        Window.aligned_iff hnodup hle hlast]
      exact ⟨fun h => .inr ⟨hcount.mp hstep, h⟩, fun h => (h.resolve_left hq).2⟩
    · constructor
      · rintro ⟨hok, -⟩
        have hpos := first_key hchains hone hsim hbase (by omega) hlt hheader hopen hok
        omega
      · rintro (h | ⟨h, -⟩)
        · exact absurd h hq
        · exact absurd (hcount.mpr h) hstep

/-! ## Three messages -/

theorem sendsChain_gcm (hgcm : K.GcmOpens) (nonce : ByteArr 12) {s s' : RatchetState K}
    {q : List Flight} (h : SendsChain aesDecryptGCM s q s') (plaintext : Bytes)
    (hlt : s'.sendingMsgNum.toNat + 1 < 2 ^ 32) :
    SendsChain aesDecryptGCM s
      (q ++ [⟨s'.nextHeader.encode, nonce.bytes ++ K.gcmSeal nonce plaintext s'.sendingKey,
        plaintext⟩]) s'.advanceSending :=
  h.snoc (inverts_aesGCM hgcm nonce) hlt rfl

def sampleMessage (i : Nat) : Flight :=
  { header := (MessageHeader.mk (fill 32 2) 0 (UInt32.ofNat i)).encode
    ciphertext := (fill 12 0).bytes ++ freeSuite.gcmSeal (fill 12 0) [UInt8.ofNat i]
      (freeSuite.keyAt sampleAlice.sendingChainKey i)
    plaintext := [UInt8.ofNat i] }

theorem three_messages : ∃ s, SendsChain aesDecryptGCM sampleAlice
    [sampleMessage 0, sampleMessage 1, sampleMessage 2] s := by
  have hgcm := freeSuite_gcmOpens
  have h1 := sendsChain_gcm hgcm (fill 12 0) (.nil (s := sampleAlice)) [0] (by decide)
  have h2 := sendsChain_gcm hgcm (fill 12 0) h1 [1] (by decide)
  have h3 := sendsChain_gcm hgcm (fill 12 0) h2 [2] (by decide)
  exact ⟨_, h3⟩

theorem sample_tracks : Tracks sampleAlice sampleBob 0 :=
  .newChain (by decide) (by decide) rfl rfl fun _ => rfl

/-- Message 1, then 0, then 2: the last one does not decrypt. -/
theorem reordered_fails : ∃ (q : List Flight) (s : RatchetState freeSuite)
    (msgs : List (Flight × Nat)),
    SendsChain aesDecryptGCM sampleAlice q s ∧ q.length = 3 ∧ Tracks sampleAlice sampleBob 0 ∧
    msgs.Perm q.zipIdx ∧ ¬ AllDecrypt aesDecryptGCM (fun _ => fill 32 9) sampleBob msgs := by
  obtain ⟨s, hsent⟩ := three_messages
  refine ⟨_, s, [(sampleMessage 1, 1), (sampleMessage 0, 0), (sampleMessage 2, 2)], hsent, rfl,
    sample_tracks, Perm.swap _ _ _, ?_⟩
  rintro ⟨-, -, hlast, -⟩
  exact nomatch hlast

/-- The last message first, then the others in order. -/
theorem reordered_iff_last_first :
    AllDecrypt aesDecryptGCM (fun _ => fill 32 9) sampleBob
      [(sampleMessage 2, 2), (sampleMessage 0, 0), (sampleMessage 1, 1)] := by
  obtain ⟨s, hsent⟩ := three_messages
  refine (reordered_iff freeSuite_keyAt_injective freeSuite_opensUnderOneKey hsent sample_tracks
    ?_ _).mpr (.inr ⟨fun h => absurd h (by decide), 0, [0, 1], rfl, by decide, ?_⟩)
  · exact (perm_append_comm : ([(sampleMessage 2, 2)] ++ _).Perm _)
  · simp

end Zentalk
