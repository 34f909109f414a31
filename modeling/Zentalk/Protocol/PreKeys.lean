import Zentalk.Protocol.X3dh

/-!
# One-time prekeys and late initial messages

`X3DHResponder` after the keys of a bundle have changed (`agree_or_reject_iff`).
-/

namespace Zentalk

open Wire List ByteArr OneTimePreKeyPrivate

variable {K : Suite}

/-! ## Generation -/

/-- The key that `GenerateOneTimePreKeys` makes in iteration `i`; the ID wraps at `2 ^ 32`. -/
def oneTimePreKey (K : Suite) (startID : UInt32) (i : Nat) (privateKey : ByteArr 32) :
    OneTimePreKeyPrivate :=
  { keyID := startID + UInt32.ofNat i
    publicKey := K.scalarBaseMult privateKey
    privateKey := privateKey }

/-- The loop of `GenerateOneTimePreKeys`: `n` iterations from iteration `i` on. -/
def generateFrom (K : Suite) (startID : UInt32) (rand : Nat → Except String (ByteArr 32)) :
    Nat → Nat → Except String (List OneTimePreKeyPrivate)
  | 0, _ => .ok []
  | n + 1, i =>
    match rand i with
    | .error e => .error e
    | .ok privateKey =>
      match generateFrom K startID rand n (i + 1) with
      | .error e => .error e
      | .ok keys => .ok (oneTimePreKey K startID i privateKey :: keys)

/-- `GenerateOneTimePreKeys`. `rand i` is what `rand.Read` answers in iteration `i`. A negative
count panics in the source. -/
def generateOneTimePreKeys (K : Suite) (startID : UInt32) (count : Nat)
    (rand : Nat → Except String (ByteArr 32)) : Except String (List OneTimePreKeyPrivate) :=
  generateFrom K startID rand count 0

/-- Put keys into the pool, each under its own ID. -/
def PreKeyPool.addAll (pool : PreKeyPool) (keys : List OneTimePreKeyPrivate) : PreKeyPool :=
  keys.foldl (fun pool k => pool.insert k.keyID k) pool

variable {keys : List OneTimePreKeyPrivate} {rand : Nat → Except String (ByteArr 32)}
  {startID : UInt32}

theorem generateFrom_spec {n i : Nat} (h : generateFrom K startID rand n i = .ok keys) :
    keys.map OneTimePreKeyPrivate.keyID =
      (range' i n).map (fun j => startID + UInt32.ofNat j) ∧
    (keys.map fun k => (.ok k.privateKey : Except String (ByteArr 32))) = (range' i n).map rand ∧
    ∀ k ∈ keys, k.Valid K := by
  induction n generalizing i keys with
  | zero =>
    cases h
    exact ⟨rfl, rfl, fun _ h => nomatch h⟩
  | succ n ih =>
    rw [generateFrom] at h
    split at h
    · cases h
    · next privateKey hrand =>
      split at h
      · cases h
      · next rest hrest =>
        cases h
        obtain ⟨hids, hdrawn, hvalid⟩ := ih hrest
        rw [range'_succ]
        refine ⟨?_, ?_, ?_⟩
        · rw [map_cons, map_cons, hids]
          rfl
        · rw [map_cons, map_cons, hdrawn, hrand]
          rfl
        · intro k hk
          rcases mem_cons.mp hk with rfl | hk
          · rfl
          · exact hvalid k hk

theorem generate_spec {count : Nat} (h : generateOneTimePreKeys K startID count rand = .ok keys) :
    keys.map OneTimePreKeyPrivate.keyID =
      (range count).map (fun j => startID + UInt32.ofNat j) ∧
    (keys.map fun k => (.ok k.privateKey : Except String (ByteArr 32))) = (range count).map rand ∧
    ∀ k ∈ keys, k.Valid K := by
  rw [range_eq_range']
  exact generateFrom_spec h

theorem lookup_addAll {pool : PreKeyPool} {id : UInt32} {k : OneTimePreKeyPrivate}
    (h : (pool.addAll keys).lookup id = some k) :
    (k ∈ keys ∧ k.keyID = id) ∨ pool.lookup id = some k := by
  induction keys generalizing pool with
  | nil => exact .inr h
  | cons x keys ih =>
    rcases ih h with ⟨hmem, hid⟩ | hold
    · exact .inl ⟨mem_cons_of_mem _ hmem, hid⟩
    · by_cases hx : id = x.keyID
      · subst hx
        rw [Finmap.lookup_insert] at hold
        obtain rfl := Option.some.inj hold
        exact .inl ⟨mem_cons_self, rfl⟩
      · rw [Finmap.lookup_insert_of_ne _ hx] at hold
        exact .inr hold

/-! ## Both ends of a late initial message -/

/-- The DH outputs that go into HKDF. -/
def dhConcat (dh1 dh2 dh3 : ByteArr 32) (dh4 : Option (ByteArr 32)) : Bytes :=
  dh1.bytes ++ dh2.bytes ++ dh3.bytes ++
    match dh4 with
    | some d => d.bytes
    | none => []

/-- HKDF does not map these two inputs to one secret. -/
def Suite.Separates (K : Suite) (input input' : Bytes) : Prop :=
  K.hkdf input (replicate 32 0) x3dhInfo = K.hkdf input' (replicate 32 0) x3dhInfo →
    input = input'

def Suite.DHInjective (K : Suite) : Prop :=
  ∀ a b c, K.dh a (K.scalarBaseMult c) = K.dh b (K.scalarBaseMult c) →
    K.scalarBaseMult a = K.scalarBaseMult b

/-- What the initiator feeds to HKDF, for a bundle with these keys. -/
def initiatorInput (K : Suite) (alice bob : IdentityKeyPair) (spk : SignedPreKeyPrivate)
    (opk : Option OneTimePreKeyPrivate) (eph : ByteArr 32) : Bytes :=
  dhConcat (K.scalarMult alice.dhPrivate spk.publicKey) (K.scalarMult eph bob.dhPublic)
    (K.scalarMult eph spk.publicKey) (opk.map fun k => K.scalarMult eph k.publicKey)

/-- What the responder feeds to HKDF, with these keys of its own. -/
def responderInput (K : Suite) (alice bob : IdentityKeyPair) (spk : SignedPreKeyPrivate)
    (opk : Option OneTimePreKeyPrivate) (eph : ByteArr 32) : Bytes :=
  dhConcat (K.scalarMult spk.privateKey alice.dhPublic)
    (K.scalarMult bob.dhPrivate (K.scalarBaseMult eph))
    (K.scalarMult spk.privateKey (K.scalarBaseMult eph))
    (opk.map fun k => K.scalarMult k.privateKey (K.scalarBaseMult eph))

/-- The one-time prekey that the responder takes for the message. -/
def usedPreKey (pool : PreKeyPool) (initialMsg : InitialMessage) : Option OneTimePreKeyPrivate :=
  if initialMsg.usedOneTimePreKeyID ≠ 0 then pool.lookup initialMsg.usedOneTimePreKeyID else none

def AgreesOrRejects (K : Suite) (bob : IdentityKeyPair) (spk : SignedPreKeyPrivate)
    (pool : PreKeyPool) (out : InitiatorOutput) : Prop :=
  ∀ secret, (x3dhResponder K bob spk pool out.initialMsg).2 = .ok secret →
    secret = out.sharedSecret

/-- Without a one-time prekey the signed prekey is the same; with one, its ID is not 0, and if the
pool has a key under that ID, both keys are the ones of the bundle. -/
def StillServes (spk spk' : SignedPreKeyPrivate) (opk : Option OneTimePreKeyPrivate)
    (pool : PreKeyPool) : Prop :=
  match opk with
  | none => spk'.publicKey = spk.publicKey
  | some k => k.keyID ≠ 0 ∧ ∀ k', pool.lookup k.keyID = some k' →
      spk'.publicKey = spk.publicKey ∧ k'.publicKey = k.publicKey

section

theorem dhConcat_inj {dh1 dh2 dh3 dh1' dh2' dh3' : ByteArr 32} {dh4 dh4' : Option (ByteArr 32)} :
    dhConcat dh1 dh2 dh3 dh4 = dhConcat dh1' dh2' dh3' dh4' ↔
      dh1 = dh1' ∧ dh2 = dh2' ∧ dh3 = dh3' ∧ dh4 = dh4' := by
  constructor
  · intro h
    obtain ⟨h123, h4⟩ := append_inj h (by simp)
    obtain ⟨h12, h3⟩ := append_inj h123 (by simp)
    obtain ⟨h1, h2⟩ := append_inj h12 (by simp)
    refine ⟨ByteArr.ext h1, ByteArr.ext h2, ByteArr.ext h3, ?_⟩
    cases dh4 with
    | none =>
      cases dh4' with
      | none => rfl
      | some d' => exact absurd (congrArg length h4) (by simp)
    | some d =>
      cases dh4' with
      | none => exact absurd (congrArg length h4) (by simp)
      | some d' => exact congrArg some (ByteArr.ext h4)
  · rintro ⟨rfl, rfl, rfl, rfl⟩
    rfl

theorem dh_match_iff (hdh : K.DHCommutes) (hinj : K.DHInjective) (e p p' : ByteArr 32) :
    K.scalarMult e (K.scalarBaseMult p) = K.scalarMult p' (K.scalarBaseMult e) ↔
      K.scalarBaseMult p' = K.scalarBaseMult p := by
  have hcomm : ∀ q, K.scalarMult e (K.scalarBaseMult q) = K.scalarMult q (K.scalarBaseMult e) :=
    fun q => hdh e q
  constructor
  · intro h
    rw [hcomm] at h
    exact (hinj p p' e h).symm
  · intro h
    rw [← h, hcomm]

variable {alice bob : IdentityKeyPair} {spk spk' : SignedPreKeyPrivate}
  {opk opk' : Option OneTimePreKeyPrivate} {eph : ByteArr 32}

/-- The inputs agree exactly when the responder uses the keys of the bundle. -/
theorem input_eq_iff (hdh : K.DHCommutes) (hinj : K.DHInjective) (halice : alice.Valid K)
    (hbob : bob.Valid K) (hspk : spk.Valid K) (hspk' : spk'.Valid K)
    (hopk : ∀ k, opk = some k → k.Valid K) (hopk' : ∀ k, opk' = some k → k.Valid K) :
    initiatorInput K alice bob spk opk eph = responderInput K alice bob spk' opk' eph ↔
      spk'.publicKey = spk.publicKey ∧
      opk'.map OneTimePreKeyPrivate.publicKey = opk.map OneTimePreKeyPrivate.publicKey := by
  have hid : K.scalarMult eph bob.dhPublic = K.scalarMult bob.dhPrivate (K.scalarBaseMult eph) := by
    rw [hbob]
    exact hdh _ _
  rw [initiatorInput, responderInput, dhConcat_inj, halice, hspk, hspk',
    dh_match_iff hdh hinj, dh_match_iff hdh hinj]
  have hone : (opk.map fun k => K.scalarMult eph k.publicKey) =
      (opk'.map fun k => K.scalarMult k.privateKey (K.scalarBaseMult eph)) ↔
      opk'.map publicKey = opk.map publicKey := by
    cases opk with
    | none => cases opk' <;> simp
    | some k =>
      cases opk' with
      | none => simp
      | some k' =>
        simp only [Option.map_some, Option.some.injEq]
        rw [hopk k rfl, hopk' k' rfl, dh_match_iff hdh hinj]
  rw [hone]
  exact ⟨fun h => ⟨h.1, h.2.2.2⟩, fun h => ⟨h.1, hid, h.1, h.2⟩⟩

theorem initiator_out {address bobAddress : Address} {offered : List OneTimePreKeyPrivate}
    {regID : UInt32} {rand : Except String (ByteArr 32)} {out : InitiatorOutput}
    (hinit : x3dhInitiator K address alice (createKeyBundle bobAddress bob spk offered regID)
      rand = .ok out) :
    out.initialMsg.usedOneTimePreKeyID =
      (offered.head?.map OneTimePreKeyPrivate.keyID).getD 0 ∧
    out.sharedSecret = K.hkdf (initiatorInput K alice bob spk offered.head? out.ephemeralPrivate)
      (replicate 32 0) x3dhInfo ∧
    ∀ used, responderSecret K bob spk' used out.initialMsg =
      K.hkdf (responderInput K alice bob spk' used out.ephemeralPrivate)
        (replicate 32 0) x3dhInfo := by
  cases rand with
  | error e => cases hinit
  | ok eph =>
    rw [x3dhInitiator_bundle] at hinit
    cases hinit
    exact ⟨rfl, rfl, fun _ => rfl⟩

variable {pool : PreKeyPool} {m : InitialMessage}

theorem responder_ok_iff {secret : ByteArr 32} :
    (x3dhResponder K bob spk' pool m).2 = .ok secret ↔
      (m.usedOneTimePreKeyID ≠ 0 → pool.lookup m.usedOneTimePreKeyID ≠ none) ∧
        responderSecret K bob spk' (usedPreKey pool m) m = secret := by
  rw [x3dhResponder, usedPreKey]
  by_cases hid : m.usedOneTimePreKeyID ≠ 0
  · cases hlook : pool.lookup m.usedOneTimePreKeyID <;> simp [hid]
  · simp [hid]

theorem usedPreKey_mem {k : OneTimePreKeyPrivate} (h : usedPreKey pool m = some k) :
    pool.lookup m.usedOneTimePreKeyID = some k := by
  rw [usedPreKey] at h
  split at h
  · exact h
  · cases h

theorem stillServes_iff (hm : m.usedOneTimePreKeyID = (opk.map OneTimePreKeyPrivate.keyID).getD 0) :
    StillServes spk spk' opk pool ↔
      ((m.usedOneTimePreKeyID ≠ 0 → pool.lookup m.usedOneTimePreKeyID ≠ none) →
        spk'.publicKey = spk.publicKey ∧
          (usedPreKey pool m).map OneTimePreKeyPrivate.publicKey =
            opk.map OneTimePreKeyPrivate.publicKey) := by
  cases opk with
  | none =>
    have hid : m.usedOneTimePreKeyID = 0 := hm
    simp [StillServes, usedPreKey, hid]
  | some k =>
    have hid : m.usedOneTimePreKeyID = k.keyID := hm
    rw [StillServes, usedPreKey, hid]
    by_cases hk : k.keyID = 0
    · -- the key was offered under the ID that means none
      simp [hk]
    · cases hlook : pool.lookup k.keyID <;> simp [hk]

end

/-- The bundle offers keys that `GenerateOneTimePreKeys` made; the responder has the same identity,
any signed prekey and what is left of the pool; HKDF keeps the two inputs at hand apart. -/
theorem agree_or_reject_iff (hdh : K.DHCommutes) (hinj : K.DHInjective) {startID : UInt32}
    {count : Nat} {rand : Nat → Except String (ByteArr 32)}
    {keys offered : List OneTimePreKeyPrivate}
    (hkeys : generateOneTimePreKeys K startID count rand = .ok keys)
    (hoffered : ∀ k ∈ offered, k ∈ keys) {pool : PreKeyPool}
    (hpool : ∀ id k, pool.lookup id = some k → (PreKeyPool.addAll ∅ keys).lookup id = some k)
    {alice bob : IdentityKeyPair} {spk spk' : SignedPreKeyPrivate} (halice : alice.Valid K)
    (hbob : bob.Valid K) (hspk : spk.Valid K) (hspk' : spk'.Valid K)
    {address bobAddress : Address} {regID : UInt32} {randEph : Except String (ByteArr 32)}
    {out : InitiatorOutput}
    (hinit : x3dhInitiator K address alice (createKeyBundle bobAddress bob spk offered regID)
      randEph = .ok out)
    (hsep : K.Separates (initiatorInput K alice bob spk offered.head? out.ephemeralPrivate)
      (responderInput K alice bob spk' (usedPreKey pool out.initialMsg) out.ephemeralPrivate)) :
    AgreesOrRejects K bob spk' pool out ↔ StillServes spk spk' offered.head? pool := by
  obtain ⟨-, -, hvalid⟩ := generate_spec hkeys
  obtain ⟨hm, hsecret, hderived⟩ := initiator_out hinit
  have hopk : ∀ k, offered.head? = some k → k.Valid K := fun k hk =>
    hvalid k (hoffered k (mem_of_mem_head? hk))
  have hused : ∀ k, usedPreKey pool out.initialMsg = some k → k.Valid K := by
    intro k hk
    rcases lookup_addAll (hpool _ _ (usedPreKey_mem hk)) with ⟨hmem, -⟩ | hempty
    · exact hvalid k hmem
    · cases hempty
  rw [stillServes_iff hm, ← input_eq_iff hdh hinj halice hbob hspk hspk' hopk hused]
  constructor
  · intro hagree hheld
    have hsame := hagree _ (responder_ok_iff.mpr ⟨hheld, rfl⟩)
    rw [hderived, hsecret] at hsame
    exact hsep hsame.symm
  · intro hserves secret hok
    obtain ⟨hheld, rfl⟩ := responder_ok_iff.mp hok
    rw [hderived, hsecret, hserves hheld]

/-! ### The condition on keys -/

def lengthSuite : Suite :=
  { freeSuite with
    hkdf := fun secret _ _ => ofSlice 32 (UInt8.ofNat secret.length :: secret) }

theorem byteSum_right_cancel {a b c : ByteArr 32} (h : byteSum a c = byteSum b c) : a = b :=
  ByteArr.ext (zipWith_right_cancel (fun _ _ z => (UInt8.add_left_inj z).mp) (by simp) (by simp)
    (congrArg bytes h))

theorem lengthSuite_dhInjective : lengthSuite.DHInjective := fun _ _ _ h => byteSum_right_cancel h

/-- A short private key, with its public key in `lengthSuite`. -/
def shortKey (b : UInt8) : ByteArr 32 := ofSlice 32 [b]

def shortIdentity (b : UInt8) : IdentityKeyPair :=
  { publicKey := shortKey b, privateKey := zero 64, dhPublic := shortKey b
    dhPrivate := shortKey b }

def shortPreKey (keyID : UInt32) (b : UInt8) : SignedPreKeyPrivate :=
  { keyID := keyID, publicKey := shortKey b, privateKey := shortKey b
    signature := zero 64, timestamp := 0 }

def shortOneTimeKey (startID : UInt32) : OneTimePreKeyPrivate :=
  oneTimePreKey lengthSuite startID 0 (shortKey 4)

def shortInitiator (startID : UInt32) : Except String InitiatorOutput :=
  x3dhInitiator lengthSuite (zero 20) (shortIdentity 1)
    (createKeyBundle (zero 20) (shortIdentity 2) (shortPreKey 1 3)
      [shortOneTimeKey startID] 0) (.ok (shortKey 5))

theorem shortOneTimeKey_generated (startID : UInt32) :
    generateOneTimePreKeys lengthSuite startID 1 (fun _ => .ok (shortKey 4)) =
      .ok [shortOneTimeKey startID] := rfl

/-- With the keys of the bundle still there, the two ends agree. -/
theorem agree_or_reject_unchanged :
    ∃ out, shortInitiator 1 = .ok out ∧ AgreesOrRejects lengthSuite (shortIdentity 2)
      (shortPreKey 1 3) (PreKeyPool.addAll ∅ [shortOneTimeKey 1]) out := by
  obtain ⟨out, hout⟩ : ∃ out, shortInitiator 1 = .ok out := ⟨_, rfl⟩
  refine ⟨out, hout, ?_⟩
  have hdh : lengthSuite.DHCommutes := byteSum_comm
  have hidentity : ∀ b, (shortIdentity b).Valid lengthSuite := fun _ => rfl
  have hspk : (shortPreKey 1 3).Valid lengthSuite := rfl
  refine (agree_or_reject_iff hdh lengthSuite_dhInjective (shortOneTimeKey_generated 1)
    (fun k hk => hk) (fun _ _ h => h) (hidentity 1) (hidentity 2) hspk hspk hout ?_).mpr
    ⟨by decide, ?_⟩
  · cases hout
    exact fun _ => rfl
  intro k' hk'
  cases hk'
  exact ⟨rfl, rfl⟩

set_option maxRecDepth 4000 in
/-- A key with the ID 0 is used by the initiator only, and a replaced signed prekey is not noticed:
the responder returns another secret. -/
theorem agree_or_reject_fails :
    (∃ out, shortInitiator 0 = .ok out ∧ ¬ AgreesOrRejects lengthSuite (shortIdentity 2)
      (shortPreKey 1 3) (PreKeyPool.addAll ∅ [shortOneTimeKey 0]) out) ∧
    ∃ out, shortInitiator 1 = .ok out ∧ ¬ AgreesOrRejects lengthSuite (shortIdentity 2)
      (shortPreKey 2 6) (PreKeyPool.addAll ∅ [shortOneTimeKey 1]) out := by
  refine ⟨⟨_, rfl, ?_⟩, ⟨_, rfl, ?_⟩⟩
  · intro hagree
    -- the first byte is the length of the input of HKDF
    have hlength := congrArg (fun secret => secret.bytes.head?) (hagree _ rfl)
    exact absurd hlength (by decide)
  · intro hagree
    have hdh1 := congrArg (fun secret => secret.bytes.tail.head?) (hagree _ rfl)
    exact absurd hdh1 (by decide)

end Zentalk
