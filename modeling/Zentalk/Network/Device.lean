import Zentalk.Network.Session
import Zentalk.Protocol.PreKeys

/-!
# The client and its storage directory

A `Device` is the client in memory together with the files that survive it.
-/

namespace Zentalk

open Wire Option Nat

variable {K : Suite}

/-! ## Key generation -/

/-- `GenerateIdentityKeyPair`, where `randEd` is what `ed25519.GenerateKey` answers and `randDH`
what `rand.Read` answers for the X25519 key. -/
def generateIdentityKeyPair (K : Suite) (randEd : Except String (ByteArr 32 × ByteArr 64))
    (randDH : Except String (ByteArr 32)) : Except String IdentityKeyPair :=
  match randEd with
  | .error e => .error e
  | .ok (edPublic, edPrivate) =>
    match randDH with
    | .error e => .error e
    | .ok dhPrivate =>
      .ok
        { publicKey := edPublic
          privateKey := edPrivate
          dhPublic := K.scalarBaseMult dhPrivate
          dhPrivate := dhPrivate }

/-- `GenerateSignedPreKey`, where `sign` is `ed25519.Sign`. -/
def generateSignedPreKey (K : Suite) (keyID : UInt32) (identityKey : IdentityKeyPair)
    (rand : Except String (ByteArr 32)) (timestamp : UInt64)
    (sign : ByteArr 64 → Bytes → ByteArr 64) : Except String SignedPreKeyPrivate :=
  match rand with
  | .error e => .error e
  | .ok privateKey =>
    let publicKey := K.scalarBaseMult privateKey
    let sigData := putUint32 keyID ++ (publicKey.bytes ++ putUint 8 timestamp.toNat)
    .ok
      { keyID := keyID
        publicKey := publicKey
        privateKey := privateKey
        signature := sign identityKey.privateKey sigData
        timestamp := timestamp }

/-! ## Files -/

/-- What a JSON file of the storage directory holds. -/
inductive JsonFile (α : Type)
  | missing
  | content (a : α)
  | corrupt

namespace JsonFile

variable {α : Type}

/-- Read the file; `what` names it in the error. A file that does not exist is no error. -/
def load (what : String) : JsonFile α → Except String (Option α)
  | missing => .ok none
  | content a => .ok (some a)
  | corrupt => .error ("failed to unmarshal " ++ what)

/-- Replace the file by `os.WriteFile`. -/
def save (what : String) (file : JsonFile α) (a : α) :
    WriteOutcome → JsonFile α × Except String Unit
  | .written => (content a, .ok ())
  | .notCreated e => (file, .error ("failed to write " ++ what ++ ": " ++ e))
  | .cutOff e => (corrupt, .error ("failed to write " ++ what ++ ": " ++ e))

end JsonFile

/-- `X3DHState`, what `x3dh_state.json` holds. The source keys the pool by the decimal text of the
ID, which it reads back. -/
structure X3DHState where
  identityKeyPair : Option IdentityKeyPair
  signedPreKey : Option SignedPreKeyPrivate
  oneTimePreKeys : PreKeyPool
  registrationID : UInt32

/-- A client and the files of its storage directory. -/
structure Device (K : Suite) where
  client : Client K
  registrationID : UInt32
  x3dhFile : JsonFile X3DHState
  bundleFile : JsonFile (Finmap fun _ : Address => KeyBundle)

namespace Device

def pool (d : Device K) : PreKeyPool := d.client.oneTimePreKeys

def setPool (d : Device K) (pool : PreKeyPool) : Device K :=
  { d with client := { d.client with oneTimePreKeys := pool } }

variable (d : Device K)

@[simp] theorem pool_setPool (pool : PreKeyPool) : (d.setPool pool).pool = pool := rfl

def saveX3DHState (d : Device K) (outcome : WriteOutcome) : Device K × Except String Unit :=
  match d.client.sessionStorage with
  | none => (d, .ok ())
  | some _ =>
    let state : X3DHState :=
      { identityKeyPair := d.client.x3dhIdentity
        signedPreKey := d.client.signedPreKey
        oneTimePreKeys := d.client.oneTimePreKeys
        registrationID := d.registrationID }
    let saved := d.x3dhFile.save "X3DH state" state outcome
    ({ d with x3dhFile := saved.1 }, saved.2)

@[simp] theorem pool_saveX3DHState (outcome : WriteOutcome) :
    (d.saveX3DHState outcome).1.pool = d.pool := by
  rw [saveX3DHState]
  split <;> rfl

/-! ## Keys in memory -/

/-- What the outside answers during `InitializeX3DH`. -/
structure InitEnv where
  randEd : Except String (ByteArr 32 × ByteArr 64)
  randDH : Except String (ByteArr 32)
  randSigned : Except String (ByteArr 32)
  nowMilli : UInt64
  sign : ByteArr 64 → Bytes → ByteArr 64
  randPreKeys : Nat → Except String (ByteArr 32)
  nowUnix : UInt32
  save : WriteOutcome

/-- `InitializeX3DH`. What was generated before a failure stays; a failed save is only logged. -/
def initializeX3DH (d : Device K) (env : InitEnv) : Device K × Except String Unit :=
  match generateIdentityKeyPair K env.randEd env.randDH with
  | .error e => (d, .error ("failed to generate identity keypair: " ++ e))
  | .ok identity =>
    let d₁ : Device K := { d with client := { d.client with x3dhIdentity := some identity } }
    match generateSignedPreKey K 1 identity env.randSigned env.nowMilli env.sign with
    | .error e => (d₁, .error ("failed to generate signed prekey: " ++ e))
    | .ok signedPreKey =>
      let d₂ : Device K :=
        { d₁ with client := { d₁.client with signedPreKey := some signedPreKey } }
      match generateOneTimePreKeys K 100 50 env.randPreKeys with
      | .error e => (d₂, .error ("failed to generate one-time prekeys: " ++ e))
      | .ok oneTimePreKeys =>
        let d₃ := { d₂.setPool (d₂.pool.addAll oneTimePreKeys) with registrationID := env.nowUnix }
        ((d₃.saveX3DHState env.save).1, .ok ())

/-- The body of the loop that looks for the highest key ID. -/
def higherID (maxID id : UInt32) : UInt32 := if id > maxID then id else maxID

theorem toNat_higherID (maxID id : UInt32) :
    (higherID maxID id).toNat = max maxID.toNat id.toNat := by
  rw [higherID]
  split
  · next h => exact (max_eq_right (le_of_lt (UInt32.lt_iff_toNat_lt.mp h))).symm
  · next h =>
    have hle : id.toNat ≤ maxID.toNat :=
      Nat.le_of_not_lt fun hlt => h (UInt32.lt_iff_toNat_lt.mpr hlt)
    exact (max_eq_left hle).symm

theorem higherID_comm (maxID id id' : UInt32) :
    higherID (higherID maxID id) id' = higherID (higherID maxID id') id := by
  apply UInt32.toNat_inj.mp
  rw [toNat_higherID, toNat_higherID, toNat_higherID, toNat_higherID, max_assoc, max_assoc,
    max_comm id.toNat]

/-- The highest key ID in the pool, 0 if it is empty. -/
def maxKeyID (pool : PreKeyPool) : UInt32 :=
  pool.foldl (fun maxID id _ => higherID maxID id) (fun _ _ _ _ _ => higherID_comm _ _ _) 0

def refillOneTimePreKeys (d : Device K) (threshold : Int)
    (rand : Nat → Except String (ByteArr 32)) (save : WriteOutcome) :
    Device K × Except String Unit :=
  if threshold ≤ d.pool.keys.card then (d, .ok ())
  else
    match generateOneTimePreKeys K (maxKeyID d.pool + 1) 50 rand with
    | .error e => (d, .error ("failed to generate one-time prekeys: " ++ e))
    | .ok newKeys => (((d.setPool (d.pool.addAll newKeys)).saveX3DHState save).1, .ok ())

/-! ## Restart -/

/-- `NewClient`, with the address that its owner sets. -/
def newClient (K : Suite) (address : Address) : Client K :=
  { address := address
    connected := false
    x3dhIdentity := none
    signedPreKey := none
    oneTimePreKeys := ∅
    ratchetSessions := ∅
    keyBundleCache := ∅
    sessionStorage := none }

/-- `loadX3DHState`. `none`: the log line at the end reads the identity and the signed prekey, and
panics if the file has none. -/
def loadX3DHState (d : Device K) : Option (Device K) :=
  match d.client.sessionStorage with
  | none => some d
  | some _ =>
    match d.x3dhFile.load "X3DH state" with
    | .error _ => some d
    | .ok none => some d
    | .ok (some state) =>
      if state.identityKeyPair.isNone ∨ state.signedPreKey.isNone then none
      else some
        { d with
          client :=
            { d.client with
              x3dhIdentity := state.identityKeyPair
              signedPreKey := state.signedPreKey
              oneTimePreKeys := state.oneTimePreKeys }
          registrationID := state.registrationID }

/-- The sessions that `LoadPersistedState` puts into memory. -/
def loadSessions (d : Device K) : Device K :=
  match d.client.sessionStorage.map SessionFile.load with
  | some (.ok sessions) =>
    { d with
      client := { d.client with ratchetSessions := sessions ∪ d.client.ratchetSessions } }
  | _ => d

/-- The key bundles that `LoadPersistedState` puts into memory. -/
def loadKeyBundleCache (d : Device K) : Device K :=
  match d.bundleFile.load "key bundle cache" with
  | .ok (some cache) =>
    if cache.keys.card = 0 then d
    else { d with client := { d.client with keyBundleCache := cache } }
  | _ => d

/-- `LoadPersistedState`; `none` when it panics. -/
def loadPersistedState (d : Device K) : Option (Device K) :=
  match d.client.sessionStorage with
  | none => some d
  | some _ => d.loadX3DHState.map fun d => d.loadSessions.loadKeyBundleCache

/-- The process ends; a new client attaches the directory. One that was never attached is empty. -/
def reattached (d : Device K) : Device K :=
  { d with
    client :=
      { newClient K d.client.address with
        sessionStorage := some (d.client.sessionStorage.getD .missing) }
    registrationID := 0 }

/-- A restart: `NewClient`, `AttachSessionStorage`, `LoadPersistedState`. -/
def restart (d : Device K) : Option (Device K) := d.reattached.loadPersistedState

/-! ## What the operations do to the pool -/

def fresh (K : Suite) (address : Address) (attached : Bool) : Device K :=
  { client :=
      { newClient K address with sessionStorage := if attached then some .missing else none }
    registrationID := 0
    x3dhFile := .missing
    bundleFile := .missing }

def initializedKeys (d : Device K) (env : InitEnv) : List OneTimePreKeyPrivate :=
  match (d.initializeX3DH env).2, generateOneTimePreKeys K 100 50 env.randPreKeys with
  | .ok (), .ok keys => keys
  | _, _ => []

def refilledKeys (d : Device K) (threshold : Int) (rand : Nat → Except String (ByteArr 32)) :
    List OneTimePreKeyPrivate :=
  if threshold ≤ d.pool.keys.card then []
  else
    match generateOneTimePreKeys K (maxKeyID d.pool + 1) 50 rand with
    | .error _ => []
    | .ok keys => keys

def consumedKey (d : Device K) (sender : Address) (initialMsg : InitialMessage) :
    Option OneTimePreKeyPrivate :=
  if d.client.x3dhIdentity.isSome ∧ d.client.signedPreKey.isSome ∧
      (d.client.ratchetSessions.lookup sender).isNone then
    usedPreKey d.pool initialMsg
  else none

theorem initializeX3DH_pool (env : InitEnv) :
    (d.initializeX3DH env).1.pool = d.pool.addAll (d.initializedKeys env) := by
  rw [initializedKeys]
  unfold initializeX3DH
  cases generateIdentityKeyPair K env.randEd env.randDH with
  | error e => rfl
  | ok identity =>
    simp only
    cases generateSignedPreKey K 1 identity env.randSigned env.nowMilli env.sign with
    | error e => rfl
    | ok signedPreKey =>
      cases generateOneTimePreKeys K 100 50 env.randPreKeys with
      | error e => rfl
      | ok keys => exact pool_saveX3DHState _ _

theorem refillOneTimePreKeys_pool (threshold : Int) (rand : Nat → Except String (ByteArr 32))
    (save : WriteOutcome) :
    (d.refillOneTimePreKeys threshold rand save).1.pool =
      d.pool.addAll (d.refilledKeys threshold rand) := by
  rw [refillOneTimePreKeys, refilledKeys]
  split
  · rfl
  · cases generateOneTimePreKeys K (maxKeyID d.pool + 1) 50 rand with
    | error e => rfl
    | ok keys => exact pool_saveX3DHState _ _

theorem initializeRatchetSession_pool (sender : Address) (initialMsg : InitialMessage)
    (save : WriteOutcome) :
    (d.consumedKey sender initialMsg = none ∧
      (initializeRatchetSession d.client sender initialMsg save).1.oneTimePreKeys = d.pool) ∨
    ∃ k, d.consumedKey sender initialMsg = some k ∧
      d.pool.lookup initialMsg.usedOneTimePreKeyID = some k ∧
      (initializeRatchetSession d.client sender initialMsg save).1.oneTimePreKeys =
        d.pool.erase initialMsg.usedOneTimePreKeyID := by
  unfold initializeRatchetSession consumedKey
  cases d.client.x3dhIdentity with
  | none => exact .inl ⟨by simp, rfl⟩
  | some identity =>
    cases d.client.signedPreKey with
    | none => exact .inl ⟨by simp, rfl⟩
    | some signedPreKey =>
      cases d.client.ratchetSessions.lookup sender with
      | some session => exact .inl ⟨by simp, rfl⟩
      | none =>
        simp only [x3dhResponder, usedPreKey, isSome_some, isNone_none, and_self,
          if_true]
        by_cases hid : initialMsg.usedOneTimePreKeyID ≠ 0
        · rw [if_pos hid, if_pos hid]
          have hpool : d.client.oneTimePreKeys = d.pool := rfl
          cases hlook : d.pool.lookup initialMsg.usedOneTimePreKeyID with
          | none =>
            rw [hpool, hlook]
            exact .inl ⟨rfl, rfl⟩
          | some k =>
            rw [hpool, hlook]
            exact .inr ⟨k, rfl, rfl, rfl⟩
        · rw [if_neg hid, if_neg hid]
          exact .inl ⟨rfl, rfl⟩

@[simp] theorem pool_loadSessions : d.loadSessions.pool = d.pool := by
  rw [loadSessions]
  split <;> rfl

@[simp] theorem pool_loadKeyBundleCache : d.loadKeyBundleCache.pool = d.pool := by
  rw [loadKeyBundleCache]
  split
  · split <;> rfl
  · rfl

/-- After a restart the pool is the one in the file, or empty. -/
theorem restart_pool {d d' : Device K} (h : d.restart = some d') :
    d'.pool = ∅ ∨ ∃ state, d.x3dhFile = .content state ∧ d'.pool = state.oneTimePreKeys := by
  obtain ⟨d₁, hload, rfl⟩ := map_eq_some_iff.mp h
  rw [pool_loadKeyBundleCache, pool_loadSessions]
  simp only [loadX3DHState, reattached] at hload
  cases hx : d.x3dhFile with
  | missing =>
    rw [hx] at hload
    cases hload
    exact .inl rfl
  | corrupt =>
    rw [hx] at hload
    cases hload
    exact .inl rfl
  | content state =>
    rw [hx] at hload
    simp only [JsonFile.load] at hload
    split at hload
    · cases hload
    · cases hload
      exact .inr ⟨state, rfl, rfl⟩

theorem loadX3DHState_sessions {d d' : Device K} (h : d.loadX3DHState = some d') :
    d'.client.ratchetSessions = d.client.ratchetSessions ∧
      d'.client.sessionStorage = d.client.sessionStorage := by
  rw [loadX3DHState] at h
  split at h
  · cases h
    exact ⟨rfl, rfl⟩
  · split at h
    · cases h
      exact ⟨rfl, rfl⟩
    · cases h
      exact ⟨rfl, rfl⟩
    · split at h
      · cases h
      · cases h
        exact ⟨rfl, rfl⟩

theorem restart_loaded {d d' : Device K} (h : d.restart = some d') :
    d'.client.ratchetSessions =
        ((d.client.sessionStorage.getD .missing).load.toOption).getD ∅ ∧
      d'.client.sessionStorage = some (d.client.sessionStorage.getD .missing) := by
  obtain ⟨d₁, hload, rfl⟩ := map_eq_some_iff.mp h
  obtain ⟨hsessions, hstorage⟩ := loadX3DHState_sessions hload
  have hcache : ∀ d : Device K, d.loadKeyBundleCache.client.ratchetSessions =
      d.client.ratchetSessions ∧ d.loadKeyBundleCache.client.sessionStorage =
      d.client.sessionStorage := by
    intro d
    rw [loadKeyBundleCache]
    split
    · split <;> exact ⟨rfl, rfl⟩
    · exact ⟨rfl, rfl⟩
  rw [(hcache _).1, (hcache _).2, loadSessions, hstorage]
  simp only [reattached, map_some]
  cases (d.client.sessionStorage.getD .missing).load with
  | error e => exact ⟨hsessions, hstorage⟩
  | ok sessions =>
    refine ⟨?_, hstorage⟩
    rw [hsessions]
    exact Finmap.union_empty

end Device

end Zentalk
