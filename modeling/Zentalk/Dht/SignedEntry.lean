import Zentalk.Dht.NodeId

/-!
# Signed entries

The value and the nonce have no length in front (`entry_unambiguous_iff`).
-/

namespace Zentalk.Dht

open Wire List

structure SignedEntry where
  key : NodeID
  value : Bytes
  publicKey : Bytes
  signature : Bytes
  timestamp : Int64
  ttl : Int64
  nonce : Bytes
deriving DecidableEq

/-- What the entries are signed and encoded with: `ed25519.Sign`, `ed25519.Verify`, and
`json.Marshal` and `json.Unmarshal` of an entry. -/
structure EntrySuite where
  sign : Bytes → Bytes → Bytes
  verify : Bytes → Bytes → Bytes → Bool
  marshal : SignedEntry → Except String Bytes
  unmarshal : Bytes → Except String SignedEntry

/-- The eight bytes of an `int64` in two's complement, most significant first. -/
def int64Bytes (v : Int64) : Bytes := putUint 8 v.toUInt64.toNat

@[simp] theorem length_int64Bytes (v : Int64) : (int64Bytes v).length = 8 := length_putUint 8 _

theorem int64Bytes_inj {v w : Int64} (h : int64Bytes v = int64Bytes w) : v = w := by
  have hnat u : getUint (int64Bytes u) = u.toUInt64.toNat := by
    have hlt : u.toUInt64.toNat < 256 ^ 8 := u.toUInt64.toNat_lt
    rw [int64Bytes, getUint_putUint, Nat.mod_eq_of_lt hlt]
  have huint : v.toUInt64 = w.toUInt64 := by
    apply UInt64.toNat_inj.mp
    rw [← hnat v, h, hnat w]
  exact Int64.toBitVec_inj.mp (congrArg UInt64.toBitVec huint)

namespace SignedEntry

/-- `signatureMessage`: key, value, public key, timestamp, time to live and nonce. -/
def signatureMessage (e : SignedEntry) : Bytes :=
  e.key.bytes ++ e.value ++ e.publicKey ++ int64Bytes e.timestamp ++ int64Bytes e.ttl ++ e.nonce

def sign (S : EntrySuite) (privateKey : Bytes) (e : SignedEntry) : SignedEntry :=
  { e with signature := S.sign privateKey e.signatureMessage }

/-- `IsExpired` at the Unix time `now`. The sum wraps as an `int64` does. -/
def isExpired (now : Int64) (e : SignedEntry) : Bool := e.timestamp + e.ttl < now

/-- `Verify` at the Unix time `now`. -/
def verify (S : EntrySuite) (now : Int64) (e : SignedEntry) : Except String Unit :=
  if e.publicKey.length ≠ 32 then
    .error ("invalid public key size: " ++ toString e.publicKey.length)
  else if e.signature.length ≠ 64 then
    .error ("invalid signature size: " ++ toString e.signature.length)
  else if e.isExpired now then .error "entry expired"
  else if !S.verify e.publicKey e.signatureMessage e.signature then .error "invalid signature"
  else .ok ()

/-- The entry without its signature. -/
def contents (e : SignedEntry) : SignedEntry := { e with signature := [] }

end SignedEntry

/-- `SignEntry`, with the time to live in seconds. The public key is the second half of the private
key. -/
def signEntry (S : EntrySuite) (key : NodeID) (value privateKey : Bytes) (ttl now : Int64)
    (rand : Except String (ByteArr 16)) : Except String SignedEntry :=
  if privateKey.length ≠ 64 then
    .error ("invalid private key size: " ++ toString privateKey.length)
  else
    match rand with
    | .error e => .error ("failed to generate nonce: " ++ e)
    | .ok nonce =>
      let entry : SignedEntry :=
        { key, value, publicKey := privateKey.drop 32, signature := [], timestamp := now, ttl,
          nonce := nonce.bytes }
      .ok (entry.sign S privateKey)

/-- `VerifyAndExtract` at the Unix time `now`. -/
def verifyAndExtract (S : EntrySuite) (now : Int64) (data : Bytes) : Except String Bytes :=
  match S.unmarshal data with
  | .error e => .error ("failed to decode entry: " ++ e)
  | .ok entry =>
    match entry.verify S now with
    | .error e => .error ("signature verification failed: " ++ e)
    | .ok () => .ok entry.value

/-! ## What passes -/

/-- The sizes are right, the entry has not expired and the signature verifies. -/
structure SignedEntry.Valid (S : EntrySuite) (now : Int64) (e : SignedEntry) : Prop where
  publicKey : e.publicKey.length = 32
  signature : e.signature.length = 64
  fresh : now ≤ e.timestamp + e.ttl
  verifies : S.verify e.publicKey e.signatureMessage e.signature = true

theorem SignedEntry.verify_ok_iff (S : EntrySuite) (now : Int64) (e : SignedEntry) :
    e.verify S now = .ok () ↔ e.Valid S now := by
  have hfresh : ¬ e.isExpired now = true ↔ now ≤ e.timestamp + e.ttl := by
    rw [isExpired, decide_eq_true_eq, Int64.not_lt]
  unfold verify
  constructor
  · intro h
    split at h
    · cases h
    · next hkey =>
      split at h
      · cases h
      · next hsize =>
        split at h
        · cases h
        · next hexp =>
          split at h
          · cases h
          · next hsig =>
            exact ⟨not_not.mp hkey, not_not.mp hsize, hfresh.mp hexp, by simpa using hsig⟩
  · rintro ⟨hkey, hsize, hexp, hsig⟩
    rw [if_neg (not_not.mpr hkey), if_neg (not_not.mpr hsize), if_neg (hfresh.mpr hexp),
      if_neg (by simp [hsig])]

theorem verifyAndExtract_ok_iff (S : EntrySuite) (now : Int64) (data value : Bytes) :
    verifyAndExtract S now data = .ok value ↔
      ∃ e, S.unmarshal data = .ok e ∧ e.Valid S now ∧ e.value = value := by
  unfold verifyAndExtract
  cases hdecode : S.unmarshal data with
  | error err => simp
  | ok e =>
    cases hverify : e.verify S now with
    | error err =>
      have hnot : ¬ e.Valid S now := fun hvalid => by
        rw [(e.verify_ok_iff S now).mpr hvalid] at hverify
        cases hverify
      simp [hverify, hnot]
    | ok u =>
      have hvalid : e.Valid S now := (e.verify_ok_iff S now).mp hverify
      simp [hverify, hvalid]

/-! ## What a signature is for -/

/-- Before nonces of one length the other fields have one length. -/
theorem contents_eq_of_nonce {e₁ e₂ : SignedEntry} (h₁ : e₁.publicKey.length = 32)
    (h₂ : e₂.publicKey.length = 32) (hnonce : e₁.nonce.length = e₂.nonce.length)
    (h : e₁.signatureMessage = e₂.signatureMessage) : e₁.contents = e₂.contents := by
  obtain ⟨h, hnonce⟩ := append_inj' h hnonce
  obtain ⟨h, httl⟩ := append_inj' h (by simp)
  obtain ⟨h, htimestamp⟩ := append_inj' h (by simp)
  obtain ⟨h, hkey⟩ := append_inj' h (by rw [h₁, h₂])
  obtain ⟨hid, hvalue⟩ := append_inj h (by simp)
  obtain ⟨⟩ := e₁
  obtain ⟨⟩ := e₂
  simp only [SignedEntry.contents, SignedEntry.mk.injEq]
  exact ⟨ByteArr.ext hid, hvalue, hkey, trivial, int64Bytes_inj htimestamp, int64Bytes_inj httl,
    hnonce⟩

/-- Two entries for one key whose remaining signed bytes are the same, cut at different places. -/
structure Shifted (e₁ e₂ : SignedEntry) : Prop where
  key : e₁.key = e₂.key
  rest : e₁.value ++ e₁.publicKey ++ int64Bytes e₁.timestamp ++ int64Bytes e₁.ttl ++ e₁.nonce =
    e₂.value ++ e₂.publicKey ++ int64Bytes e₂.timestamp ++ int64Bytes e₂.ttl ++ e₂.nonce
  nonce : e₁.nonce.length ≠ e₂.nonce.length

def EntrySuite.Binding (S : EntrySuite) : Prop :=
  ∀ privateKey publicKey message message',
    S.verify publicKey message' (S.sign privateKey message) = true → message' = message

def EntrySuite.Carries (S : EntrySuite) (e₁ e₂ : SignedEntry) : Prop :=
  ∃ privateKey now,
    { e₂ with signature := (e₁.sign S privateKey).signature }.verify S now = .ok ()

/-- The signed bytes tell two entries apart unless they are shifted against each other. -/
theorem entry_unambiguous_iff (S : EntrySuite) (hS : S.Binding) (e₁ e₂ : SignedEntry)
    (h₁ : e₁.publicKey.length = 32) (h₂ : e₂.publicKey.length = 32) :
    ((e₁.signatureMessage = e₂.signatureMessage → e₁.contents = e₂.contents) ∧
      (S.Carries e₁ e₂ → e₁.contents = e₂.contents)) ↔ ¬ Shifted e₁ e₂ := by
  constructor
  · rintro ⟨hbytes, -⟩ ⟨hkey, hrest, hnonce⟩
    have heq : e₁.signatureMessage = e₂.signatureMessage := by
      simp only [SignedEntry.signatureMessage, hkey, append_assoc] at hrest ⊢
      rw [hrest]
    exact hnonce (congrArg (fun e => e.nonce.length) (hbytes heq))
  · intro hshift
    have hbytes (heq : e₁.signatureMessage = e₂.signatureMessage) : e₁.contents = e₂.contents := by
      refine contents_eq_of_nonce h₁ h₂ ?_ heq
      by_contra hnonce
      simp only [SignedEntry.signatureMessage, append_assoc] at heq
      obtain ⟨hkey, hrest⟩ := append_inj heq (by simp)
      exact hshift ⟨ByteArr.ext hkey, by simpa only [append_assoc] using hrest, hnonce⟩
    refine ⟨hbytes, ?_⟩
    rintro ⟨privateKey, now, hverify⟩
    have hvalid := (SignedEntry.verify_ok_iff S now _).mp hverify
    exact hbytes (hS _ _ _ _ hvalid.verifies).symm

/-- Signatures of 64 bytes for one message only. -/
def oneMessageSuite (message : Bytes) : EntrySuite :=
  let sign := fun m => if m = message then replicate 64 0 else replicate 64 0 ++ 1 :: m
  { sign := fun _ m => sign m
    verify := fun _ m signature => signature = sign m
    marshal := fun _ => .error "not encoded"
    unmarshal := fun _ => .error "not decoded" }

theorem oneMessageSuite_binding (message : Bytes) : (oneMessageSuite message).Binding := by
  intro privateKey publicKey m m' h
  have heq : (if m = message then replicate 64 0 else replicate 64 0 ++ 1 :: m) =
      if m' = message then replicate 64 (0 : UInt8) else replicate 64 0 ++ 1 :: m' :=
    of_decide_eq_true h
  have hlen := congrArg length heq
  split at heq <;> split at heq
  · next hm hm' => rw [hm, hm']
  · next hm hm' => simp [hm, hm'] at hlen
  · next hm hm' => simp [hm, hm'] at hlen
  · simpa using heq.symm

def sampleEntry (value nonce : Bytes) : SignedEntry :=
  { key := .zero 20, value, publicKey := replicate 32 0, signature := [], timestamp := 0,
    ttl := 0, nonce }

theorem entry_unambiguous_of_nonces :
    (((sampleEntry [1] [2]).signatureMessage = (sampleEntry [2] [2]).signatureMessage →
        (sampleEntry [1] [2]).contents = (sampleEntry [2] [2]).contents) ∧
      ((oneMessageSuite []).Carries (sampleEntry [1] [2]) (sampleEntry [2] [2]) →
        (sampleEntry [1] [2]).contents = (sampleEntry [2] [2]).contents)) :=
  (entry_unambiguous_iff (oneMessageSuite []) (oneMessageSuite_binding []) (sampleEntry [1] [2])
    (sampleEntry [2] [2]) rfl rfl).mpr fun h => h.nonce rfl

/-- The zeros behind the public key belong to the value or to the nonce, under the same signature.
-/
theorem entry_signature_shifted :
    (sampleEntry [] (replicate 48 0)).signatureMessage =
      (sampleEntry (replicate 48 0) []).signatureMessage ∧
    (sampleEntry [] (replicate 48 0)).contents ≠
      (sampleEntry (replicate 48 0) []).contents ∧
    (oneMessageSuite (sampleEntry [] (replicate 48 0)).signatureMessage).Carries
      (sampleEntry [] (replicate 48 0)) (sampleEntry (replicate 48 0) []) := by
  refine ⟨by decide +kernel, by decide +kernel, [], 0, ?_⟩
  decide +kernel

end Zentalk.Dht
