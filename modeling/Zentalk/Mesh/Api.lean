import Zentalk.Mesh.Distributed

/-!
# Uploads and downloads

`handleUpload` and `handleDownload`, which decrypts whatever parses as an `EncryptedData`
(`download_upload_iff`).
-/

namespace Zentalk.Mesh

open Wire Decimal List

/-! ## `encryption.go` -/

structure EncryptedData where
  nonce : Bytes
  ciphertext : Bytes
deriving DecidableEq

/-- What the API encrypts and encodes with. -/
structure ApiSuite where
  /-- `pbkdf2.Key` with the salt, the iterations, the key size and the hash function of
  `encryption.go`. -/
  pbkdf2 : Bytes → ByteArr 32
  /-- `gcm.Seal`. -/
  gcmSeal : ByteArr 12 → Bytes → ByteArr 32 → Bytes
  /-- `gcm.Open`. -/
  gcmOpen : ByteArr 12 → Bytes → ByteArr 32 → Except Bytes Bytes
  /-- `json.Marshal` of an `EncryptedData`. -/
  marshal : EncryptedData → Except Bytes Bytes
  /-- `json.Unmarshal` into an `EncryptedData`. -/
  unmarshal : Bytes → Option EncryptedData
  /-- `base64.StdEncoding.EncodeToString`. -/
  encodeToString : Bytes → Bytes
  /-- `base64.StdEncoding.DecodeString`. -/
  decodeString : Bytes → Option Bytes
  /-- The text of an error of `StoreDistributed`. -/
  storeError : StoreError → Bytes

/-- AES-GCM opens what it sealed, and JSON and base64 are read as they were written. -/
structure ApiSuite.RoundTrips (S : ApiSuite) : Prop where
  gcm : ∀ nonce plaintext key, S.gcmOpen nonce (S.gcmSeal nonce plaintext key) key = .ok plaintext
  json : ∀ encrypted text, S.marshal encrypted = .ok text → S.unmarshal text = some encrypted
  base64 : ∀ b, S.decodeString (S.encodeToString b) = some b

/-- The tag of AES-GCM has sixteen bytes, and the ciphertext in a JSON text is no longer than the
text. -/
structure ApiSuite.Shrinks (S : ApiSuite) : Prop where
  gcm : ∀ nonce ciphertext key plaintext, S.gcmOpen nonce ciphertext key = .ok plaintext →
    plaintext.length + 16 = ciphertext.length
  json : ∀ text encrypted, S.unmarshal text = some encrypted →
    encrypted.ciphertext.length ≤ text.length

/-- `len(addr) != 42 || addr[:2] != "0x"` does not hold. -/
def IsAddress (addr : Bytes) : Prop := addr.length = 42 ∧ addr.take 2 = asciiBytes "0x"

instance (addr : Bytes) : Decidable (IsAddress addr) := inferInstanceAs (Decidable (_ ∧ _))

section Encryption

variable (S : ApiSuite)

def deriveKeyFromSignature (signature : Bytes) : Except Bytes (ByteArr 32) :=
  if signature.length < 10 then .error (asciiBytes "invalid signature: too short")
  else .ok (S.pbkdf2 signature)

/-- `DeriveKeyFromWalletAddress`. The address is not made lower case. -/
def deriveKeyFromWalletAddress (walletAddress : Bytes) : Except Bytes (ByteArr 32) :=
  if IsAddress walletAddress then .ok (S.pbkdf2 (walletAddress.drop 2))
  else .error (asciiBytes "invalid wallet address format")

/-- `Encrypt`, with what `rand.Reader` returns for the nonce. -/
def encrypt (rand : Except Bytes (ByteArr 12)) (plaintext : Bytes) (key : ByteArr 32) :
    Except Bytes EncryptedData :=
  match rand with
  | .error err => .error (asciiBytes "failed to generate nonce: " ++ err)
  | .ok nonce => .ok ⟨nonce.bytes, S.gcmSeal nonce plaintext key⟩

def decrypt (encrypted : EncryptedData) (key : ByteArr 32) : Except Bytes Bytes :=
  if encrypted.nonce.length = 12 then
    match S.gcmOpen (.ofSlice 12 encrypted.nonce) encrypted.ciphertext key with
    | .error err =>
      .error (asciiBytes "decryption failed (wrong key or corrupted data): " ++ err)
    | .ok plaintext => .ok plaintext
  else
    .error (asciiBytes "invalid nonce size: expected 12, got " ++ decimal encrypted.nonce.length)

def encryptWithPassword (rand : Except Bytes (ByteArr 12)) (plaintext password : Bytes) :
    Except Bytes EncryptedData :=
  encrypt S rand plaintext (S.pbkdf2 password)

def decryptWithPassword (encrypted : EncryptedData) (password : Bytes) : Except Bytes Bytes :=
  decrypt S encrypted (S.pbkdf2 password)

end Encryption

/-! ## `handleUpload` -/

/-- An `ErrorResponse` with its status. -/
structure ErrorReply where
  status : ℕ
  error : Bytes
  message : Bytes
deriving DecidableEq

/-- `http.StatusBadRequest`. -/
def badRequest (error message : String) : ErrorReply :=
  ⟨400, asciiBytes error, asciiBytes message⟩

/-- An `UploadRequest` that `ShouldBindJSON` has accepted: the required fields are not zero. -/
structure UploadRequest where
  userAddr : Bytes
  chunkID : ℤ
  data : Bytes
  signature : Bytes
  password : Bytes
  encrypted : Bool
  userAddr_ne : userAddr ≠ []
  chunkID_ne : chunkID ≠ 0
  data_ne : data ≠ []

/-- `UploadResponse`, without the time and the constants of the code. -/
structure UploadResponse where
  userAddr : Bytes
  chunkID : ℤ
  originalSize : ℕ
  encryptedSize : ℕ
  shardSize : ℕ
  storageNodes : List PeerID
  encryptionInfo : Bytes
  shardLocations : Locations

/-- What the handlers of the API work on: the nodes of the mesh, and `chunkMetadata`. -/
structure ApiServer where
  mesh : MeshState
  chunkMetadata : Bytes → Option DistributedChunk

namespace ApiServer

/-- `getChunkKey` is the text that placement hashes, too. -/
def getChunkKey (userAddr : Bytes) (chunkID : ℤ) : Bytes := chunkText userAddr chunkID

def storeChunkMetadata (srv : ApiServer) (chunk : DistributedChunk) : ApiServer :=
  { srv with
    chunkMetadata := Function.update srv.chunkMetadata
      (getChunkKey chunk.userAddr chunk.chunkID) (some chunk) }

def getChunkMetadata (srv : ApiServer) (userAddr : Bytes) (chunkID : ℤ) : Option DistributedChunk :=
  srv.chunkMetadata (getChunkKey userAddr chunkID)

end ApiServer

/-- What happens during an upload. -/
structure UploadEnv where
  rand : Except Bytes (ByteArr 12)
  run : StoreRun

section Handlers

variable (S : ApiSuite) (J : JsonText) (D : DistributedStorage)

/-- The check of the address that both handlers make. -/
def checkAddress (userAddr : Bytes) : Except ErrorReply Unit :=
  if IsAddress userAddr then .ok ()
  else .error (badRequest "Invalid user address"
    "User address must be a valid Ethereum address (0x...)")

/-- `handleUpload`, the data: at most 100 MB. -/
def decodeData (data : Bytes) : Except ErrorReply Bytes :=
  match S.decodeString data with
  | none => .error (badRequest "Invalid data encoding" "Data must be base64 encoded")
  | some data =>
    if data.length = 0 then .error (badRequest "Empty data" "Cannot upload empty data")
    else if 100 * 1024 * 1024 < data.length then
      .error (badRequest "Data too large" "Maximum upload size is 100 MB")
    else .ok data

/-- `handleUpload`, the JSON of what was encrypted. -/
def marshalEncrypted (encrypted : Except Bytes EncryptedData) : Except ErrorReply Bytes :=
  match encrypted with
  | .error err => .error ⟨500, asciiBytes "Encryption failed", err⟩
  | .ok encrypted =>
    match S.marshal encrypted with
    | .error err => .error ⟨500, asciiBytes "Serialization failed", err⟩
    | .ok encryptedJSON => .ok encryptedJSON

/-- `handleUpload`, the encryption: `dataToStore` and `encryptionInfo`. -/
def encryptData (req : UploadRequest) (rand : Except Bytes (ByteArr 12)) (data : Bytes) :
    Except ErrorReply (Bytes × Bytes) :=
  if req.encrypted = true then .ok (data, asciiBytes "Client-side encrypted")
  else if req.signature ≠ [] then
    match deriveKeyFromSignature S req.signature with
    | .error err =>
      .error ⟨400, asciiBytes "Invalid signature",
        asciiBytes "Failed to derive key from signature: " ++ err⟩
    | .ok key => do
      let json ← marshalEncrypted S (encrypt S rand data key)
      return (json, asciiBytes "AES-256-GCM (signature-derived)")
  else if req.password ≠ [] then do
    let json ← marshalEncrypted S (encryptWithPassword S rand data req.password)
    return (json, asciiBytes "AES-256-GCM (password-based)")
  else
    match deriveKeyFromWalletAddress S req.userAddr with
    | .error err => .error ⟨500, asciiBytes "Key derivation failed", err⟩
    | .ok key => do
      let json ← marshalEncrypted S (encrypt S rand data key)
      return (json, asciiBytes "AES-256-GCM (wallet-derived)")

/-- `handleUpload`, before the data is stored: the data, `dataToStore` and `encryptionInfo`. -/
def prepareUpload (req : UploadRequest) (rand : Except Bytes (ByteArr 12)) :
    Except ErrorReply (Bytes × Bytes × Bytes) := do
  checkAddress req.userAddr
  let data ← decodeData S req.data
  let out ← encryptData S req rand data
  return (data, out)

/-- `handleUpload`, with what `ShouldBindJSON` returns. -/
def handleUpload (srv : ApiServer) (bound : Except Bytes UploadRequest) (env : UploadEnv) :
    ApiServer × Except ErrorReply UploadResponse :=
  match bound with
  | .error err => (srv, .error ⟨400, asciiBytes "Invalid request", err⟩)
  | .ok req =>
    match prepareUpload S req env.rand with
    | .error reply => (srv, .error reply)
    | .ok (data, dataToStore, encryptionInfo) =>
      match storeDistributed J D srv.mesh req.userAddr req.chunkID dataToStore env.run with
      | (mesh, .error err) =>
        ({ srv with mesh := mesh }, .error ⟨500, asciiBytes "Storage failed", S.storeError err⟩)
      | (mesh, .ok chunk) =>
        (ApiServer.storeChunkMetadata { srv with mesh := mesh } chunk,
          .ok
            { userAddr := req.userAddr
              chunkID := req.chunkID
              originalSize := data.length
              encryptedSize := dataToStore.length
              shardSize := chunk.shardSize
              storageNodes :=
                ((finRange totalShards).map fun i => chunk.peer i).eraseDups
              encryptionInfo := encryptionInfo
              shardLocations := chunk.locations })

/-! ## `handleDownload` -/

/-- A download request. The chunk ID is what `strconv.Atoi` makes of it. -/
structure DownloadRequest where
  userAddr : Bytes
  chunkID : Option ℤ
  querySignature : Bytes
  headerSignature : Bytes
  queryPassword : Bytes
  headerPassword : Bytes

namespace DownloadRequest

def signature (req : DownloadRequest) : Bytes :=
  if req.querySignature = [] then req.headerSignature else req.querySignature

def password (req : DownloadRequest) : Bytes :=
  if req.queryPassword = [] then req.headerPassword else req.queryPassword

end DownloadRequest

/-- `DownloadResponse`, without the time and the constants of the code. -/
structure DownloadResponse where
  userAddr : Bytes
  chunkID : ℤ
  data : Bytes
  sizeBytes : ℕ
deriving DecidableEq

/-- `"%s user %s chunk %d"`. -/
def aboutChunk (what : String) (userAddr : Bytes) (chunkID : ℤ) : Bytes :=
  asciiBytes what ++ asciiBytes " user " ++ userAddr ++ asciiBytes " chunk " ++ decimal chunkID

/-- `handleDownload`, the metadata and the stored data. -/
def fetchStored (srv : ApiServer) (userAddr : Bytes) (chunkID : ℤ) (fetch : FetchRun) :
    Except ErrorReply Bytes :=
  match srv.getChunkMetadata userAddr chunkID with
  | none =>
    .error ⟨404, asciiBytes "Data not found", aboutChunk "No data found for" userAddr chunkID⟩
  | some chunk =>
    match retrieveDistributed J D srv.mesh fetch chunk with
    | .error err =>
      if err = asciiBytes "chunk not found" ∨ err = asciiBytes "insufficient shards" then
        .error ⟨404, asciiBytes "Data not found",
          aboutChunk "Failed to retrieve data for" userAddr chunkID⟩
      else .error ⟨500, asciiBytes "Retrieval failed", err⟩
    | .ok encryptedData => .ok encryptedData

/-- `handleDownload`, the decryption with a derived key. -/
def decryptWithKey (encrypted : EncryptedData) (key : ByteArr 32) : Except ErrorReply Bytes :=
  match decrypt S encrypted key with
  | .error _ =>
    .error ⟨401, asciiBytes "Decryption failed", asciiBytes "Wrong key or corrupted data"⟩
  | .ok decryptedData => .ok decryptedData

/-- `handleDownload`, the decryption. What does not parse is returned as it is. -/
def decryptData (userAddr signature password encryptedData : Bytes) : Except ErrorReply Bytes :=
  match S.unmarshal encryptedData with
  | none => .ok encryptedData
  | some encrypted =>
    if signature ≠ [] then
      match deriveKeyFromSignature S signature with
      | .error err =>
        .error ⟨400, asciiBytes "Invalid signature", asciiBytes "Failed to derive key: " ++ err⟩
      | .ok key => decryptWithKey S encrypted key
    else if password ≠ [] then
      match decryptWithPassword S encrypted password with
      | .error _ =>
        .error ⟨401, asciiBytes "Decryption failed",
          asciiBytes "Wrong password or corrupted data"⟩
      | .ok decryptedData => .ok decryptedData
    else
      match deriveKeyFromWalletAddress S userAddr with
      | .error err => .error ⟨500, asciiBytes "Key derivation failed", err⟩
      | .ok key => decryptWithKey S encrypted key

def handleDownload (srv : ApiServer) (req : DownloadRequest) (fetch : FetchRun) :
    Except ErrorReply DownloadResponse := do
  checkAddress req.userAddr
  match req.chunkID with
  | none => .error (badRequest "Invalid chunk ID" "Chunk ID must be a number")
  | some chunkID =>
    let encryptedData ← fetchStored J D srv req.userAddr chunkID fetch
    let decryptedData ← decryptData S req.userAddr req.signature req.password encryptedData
    return ⟨req.userAddr, chunkID, S.encodeToString decryptedData, decryptedData.length⟩

/-! ## The key of the two handlers -/

def chosenKey (userAddr signature password : Bytes) : Except Bytes (ByteArr 32) :=
  if signature ≠ [] then deriveKeyFromSignature S signature
  else if password ≠ [] then .ok (S.pbkdf2 password)
  else deriveKeyFromWalletAddress S userAddr

/-- The download is for the uploaded chunk, with the credentials of the upload. -/
structure SameCredentials (up : UploadRequest) (down : DownloadRequest) : Prop where
  userAddr : down.userAddr = up.userAddr
  chunkID : down.chunkID = some up.chunkID
  signature : down.signature = up.signature
  password : down.password = up.password

/-- The distributed store returns data for the chunk. -/
def ApiServer.Returns (srv : ApiServer) (userAddr : Bytes) (chunkID : ℤ) (fetch : FetchRun) :
    Prop :=
  ∃ chunk encryptedData, srv.getChunkMetadata userAddr chunkID = some chunk ∧
    retrieveDistributed J D srv.mesh fetch chunk = .ok encryptedData

end Handlers

section

theorem bind_eq_ok_iff {ε α β : Type} {x : Except ε α} {f : α → Except ε β} {b : β} :
    (x >>= f) = .ok b ↔ ∃ a, x = .ok a ∧ f a = .ok b := by
  cases x with
  | error e =>
    constructor
    · rintro ⟨⟩
    · rintro ⟨a, ⟨⟩, -⟩
  | ok a =>
    constructor
    · exact fun h => ⟨a, rfl, h⟩
    · rintro ⟨a', ⟨⟩, h⟩
      exact h

variable {S : ApiSuite} {J : JsonText} {D : DistributedStorage}

/-! ### Encryption -/

variable {rand : Except Bytes (ByteArr 12)} {key : ByteArr 32} {encrypted : EncryptedData}
  {data info dataToStore userAddr : Bytes} {req : UploadRequest} {plaintext : Bytes}

theorem decrypt_encrypt (hS : S.RoundTrips) (h : encrypt S rand plaintext key = .ok encrypted) :
    decrypt S encrypted key = .ok plaintext := by
  unfold encrypt at h
  split at h
  · cases h
  · next nonce =>
    cases h
    rw [decrypt, if_pos nonce.length_bytes, ByteArr.ofSlice_bytes, hS.gcm]

theorem length_decrypt (hS : S.Shrinks) (h : decrypt S encrypted key = .ok plaintext) :
    plaintext.length < encrypted.ciphertext.length := by
  unfold decrypt at h
  split at h
  · split at h
    · cases h
    · next hopen =>
      cases h
      have htag := hS.gcm _ _ _ _ hopen
      omega
  · cases h

theorem marshalEncrypted_ok (hS : S.RoundTrips) {json : Bytes}
    (h : marshalEncrypted S (encrypt S rand data key) = .ok json) :
    ∃ encrypted, S.unmarshal json = some encrypted ∧ decrypt S encrypted key = .ok data := by
  unfold marshalEncrypted at h
  split at h
  · cases h
  · next encrypted hencrypt =>
    split at h
    · cases h
    · next hjson =>
      cases h
      exact ⟨encrypted, hS.json _ _ hjson, decrypt_encrypt hS hencrypt⟩

theorem envelope_ok (hS : S.RoundTrips) {info' : Bytes} (h : (do
      let json ← marshalEncrypted S (encrypt S rand data key)
      return (json, info) : Except ErrorReply (Bytes × Bytes)) = .ok (dataToStore, info')) :
    ∃ encrypted, S.unmarshal dataToStore = some encrypted ∧ decrypt S encrypted key = .ok data := by
  obtain ⟨json, hjson, hpair⟩ := bind_eq_ok_iff.mp h
  cases hpair
  exact marshalEncrypted_ok hS hjson

theorem encryptData_ok (hS : S.RoundTrips) (hserver : req.encrypted = false)
    (h : encryptData S req rand data = .ok (dataToStore, info)) :
    ∃ key encrypted, chosenKey S req.userAddr req.signature req.password = .ok key ∧
      S.unmarshal dataToStore = some encrypted ∧ decrypt S encrypted key = .ok data := by
  rw [encryptData, if_neg (by simp [hserver])] at h
  unfold chosenKey
  split at h
  · next hsignature =>
    rw [if_pos hsignature]
    split at h
    · cases h
    · next key hkey => exact ⟨key, (envelope_ok hS h).imp fun _ henv => ⟨hkey, henv⟩⟩
  · next hsignature =>
    rw [if_neg hsignature]
    split at h
    · next hpassword =>
      rw [if_pos hpassword]
      exact ⟨_, (envelope_ok hS h).imp fun _ henv => ⟨rfl, henv⟩⟩
    · next hpassword =>
      rw [if_neg hpassword]
      split at h
      · cases h
      · next key hkey => exact ⟨key, (envelope_ok hS h).imp fun _ henv => ⟨hkey, henv⟩⟩

theorem decryptWithKey_ok_iff :
    decryptWithKey S encrypted key = .ok data ↔ decrypt S encrypted key = .ok data := by
  unfold decryptWithKey
  cases decrypt S encrypted key with
  | error err => simp
  | ok plaintext => simp

theorem decryptData_ok_iff {signature password encryptedData : Bytes}
    (hjson : S.unmarshal encryptedData = some encrypted) :
    decryptData S userAddr signature password encryptedData = .ok data ↔
      ∃ key, chosenKey S userAddr signature password = .ok key ∧
        decrypt S encrypted key = .ok data := by
  rw [decryptData, hjson, chosenKey]
  dsimp only
  split
  · cases deriveKeyFromSignature S signature with
    | error err => simp
    | ok key => simp [decryptWithKey_ok_iff]
  · split
    · rw [decryptWithPassword]
      cases hopen : decrypt S encrypted (S.pbkdf2 password) with
      | error err => simp [hopen]
      | ok plaintext => simp [hopen]
    · cases deriveKeyFromWalletAddress S userAddr with
      | error err => simp
      | ok key => simp [decryptWithKey_ok_iff]

/-! ### The handlers -/

theorem decodeData_ok {text : Bytes} (h : decodeData S text = .ok data) :
    S.decodeString text = some data := by
  unfold decodeData at h
  split at h
  · cases h
  · next hdecode =>
    split at h
    · cases h
    · split at h
      · cases h
      · cases h; exact hdecode

theorem prepareUpload_ok (h : prepareUpload S req rand = .ok (data, dataToStore, info)) :
    checkAddress req.userAddr = .ok () ∧ S.decodeString req.data = some data ∧
      encryptData S req rand data = .ok (dataToStore, info) := by
  obtain ⟨_, haddr, h⟩ := bind_eq_ok_iff.mp h
  obtain ⟨found, hdecode, h⟩ := bind_eq_ok_iff.mp h
  obtain ⟨out, hencrypt, h⟩ := bind_eq_ok_iff.mp h
  cases h
  exact ⟨haddr, decodeData_ok hdecode, hencrypt⟩

variable {chunk : DistributedChunk}

theorem getChunkMetadata_stored {mesh mesh' : MeshState} {chunkID : ℤ} {run : StoreRun}
    (hstore : storeDistributed J D mesh userAddr chunkID data run = (mesh', .ok chunk))
    (srv : ApiServer) : (srv.storeChunkMetadata chunk).getChunkMetadata userAddr chunkID =
      some chunk := by
  obtain ⟨w, -, -, hu, hc, -⟩ := shardAt_recorded hstore
  rw [ApiServer.getChunkMetadata, ApiServer.storeChunkMetadata, hu, hc]
  exact Function.update_self ..

variable {srv srv' : ApiServer}

theorem handleUpload_ok {env : UploadEnv} {body : UploadResponse}
    (h : handleUpload S J D srv (.ok req) env = (srv', .ok body)) :
    ∃ data dataToStore info chunk, checkAddress req.userAddr = .ok () ∧
      S.decodeString req.data = some data ∧
      encryptData S req env.rand data = .ok (dataToStore, info) ∧
      storeDistributed J D srv.mesh req.userAddr req.chunkID dataToStore env.run =
        (srv'.mesh, .ok chunk) ∧
      srv'.getChunkMetadata req.userAddr req.chunkID = some chunk := by
  unfold handleUpload at h
  dsimp only at h
  split at h
  · cases h
  · next data dataToStore info hprepare =>
    obtain ⟨haddr, hdecode, hencrypt⟩ := prepareUpload_ok hprepare
    split at h
    · cases h
    · next mesh chunk hstore =>
      cases h
      exact ⟨data, dataToStore, info, chunk, haddr, hdecode, hencrypt, hstore,
        getChunkMetadata_stored hstore _⟩

theorem fetchStored_ok {chunkID : ℤ} {run : StoreRun} {fetch : FetchRun}
    (hstore : storeDistributed J D srv.mesh userAddr chunkID dataToStore run =
      (srv'.mesh, .ok chunk)) (hmeta : srv'.getChunkMetadata userAddr chunkID = some chunk)
    (hreturns : srv'.Returns J D userAddr chunkID fetch) :
    fetchStored J D srv' userAddr chunkID fetch = .ok dataToStore := by
  obtain ⟨found, encryptedData, hfound, hretrieve⟩ := hreturns
  rw [hmeta] at hfound
  cases hfound
  have hten := ((retrieveDistributed_ok_iff J D srv'.mesh fetch chunk).mp hretrieve).1
  rw [fetchStored, hmeta]
  dsimp only
  rw [(retrieveDistributed_ok_iff J D srv'.mesh fetch chunk).mpr
    ⟨hten, fetched_stored hstore (fun _ _ h => h) fetch⟩]

section Download

variable {srv : ApiServer} {req : DownloadRequest} {fetch : FetchRun} {chunkID : ℤ}
  {encryptedData : Bytes} (haddr : checkAddress req.userAddr = .ok ())
  (hid : req.chunkID = some chunkID)
  (hstored : fetchStored J D srv req.userAddr chunkID fetch = .ok encryptedData)

include haddr hid hstored

theorem handleDownload_eq :
    handleDownload S J D srv req fetch = (do
      let decryptedData ← decryptData S req.userAddr req.signature req.password encryptedData
      return ⟨req.userAddr, chunkID, S.encodeToString decryptedData, decryptedData.length⟩) := by
  rw [handleDownload, haddr, hid]
  dsimp only
  rw [hstored]
  rfl

theorem replies_iff (hS : S.RoundTrips) {data : Bytes} :
    (∃ reply, handleDownload S J D srv req fetch = .ok reply ∧
      S.decodeString reply.data = some data) ↔
        decryptData S req.userAddr req.signature req.password encryptedData = .ok data := by
  rw [handleDownload_eq haddr hid hstored]
  constructor
  · rintro ⟨reply, hreply, hdata⟩
    obtain ⟨decryptedData, hdecrypt, hpure⟩ := bind_eq_ok_iff.mp hreply
    cases hpure
    rw [hS.base64] at hdata
    rwa [← Option.some.inj hdata]
  · intro hdecrypt
    exact ⟨_, bind_eq_ok_iff.mpr ⟨data, hdecrypt, rfl⟩, hS.base64 data⟩

end Download

/-- What an envelope is decrypted to is shorter, so data comes back as it is exactly when it is no
envelope. -/
theorem decryptData_self_iff (hS : S.Shrinks) {signature password : Bytes} :
    decryptData S userAddr signature password data = .ok data ↔ S.unmarshal data = none := by
  cases hjson : S.unmarshal data with
  | none => simp [decryptData, hjson]
  | some encrypted =>
    refine iff_of_false (fun h => ?_) (Option.some_ne_none _)
    obtain ⟨key, -, hopen⟩ := (decryptData_ok_iff hjson).mp h
    have hshort := length_decrypt hS hopen
    have htext := hS.json _ _ hjson
    omega

end

/-- A download with the credentials of the upload returns the uploaded data, unless a client has
encrypted it and it parses as an `EncryptedData`. -/
theorem download_upload_iff {S : ApiSuite} {J : JsonText} {D : DistributedStorage}
    (hround : S.RoundTrips) (hshrinks : S.Shrinks) {srv srv' : ApiServer} {up : UploadRequest}
    {env : UploadEnv} {body : UploadResponse}
    (hupload : handleUpload S J D srv (.ok up) env = (srv', .ok body)) {data : Bytes}
    (hdata : S.decodeString up.data = some data) {down : DownloadRequest}
    (hsame : SameCredentials up down) {fetch : FetchRun}
    (hreturns : srv'.Returns J D up.userAddr up.chunkID fetch) :
    (∃ reply, handleDownload S J D srv' down fetch = .ok reply ∧
      S.decodeString reply.data = some data) ↔
        (up.encrypted = true → S.unmarshal data = none) := by
  obtain ⟨found, dataToStore, info, chunk, haddr, hdecode, hencrypt, hstore, hmeta⟩ :=
    handleUpload_ok hupload
  rw [hdata] at hdecode
  cases hdecode
  have hstored := fetchStored_ok hstore hmeta hreturns
  rw [← hsame.userAddr] at haddr hstored
  rw [replies_iff haddr hsame.chunkID hstored hround, hsame.userAddr, hsame.signature,
    hsame.password]
  cases hmode : up.encrypted with
  | false =>
    obtain ⟨key, encrypted, hkey, hjson, hopen⟩ := encryptData_ok hround hmode hencrypt
    exact iff_of_true ((decryptData_ok_iff hjson).mpr ⟨key, hkey, hopen⟩) Bool.noConfusion
  | true =>
    rw [encryptData, if_pos hmode] at hencrypt
    cases hencrypt
    rw [decryptData_self_iff hshrinks]
    exact ⟨fun h _ => h, fun h => h rfl⟩

/-! ## A node without peers -/

/-- A suite whose tag is sixteen zeros in front of the data and whose JSON is an open brace, the
nonce and the ciphertext. -/
def braceSuite : ApiSuite where
  pbkdf2 _ := .zero 32
  gcmSeal _ plaintext _ := replicate 16 0 ++ plaintext
  gcmOpen _ ciphertext _ :=
    if ciphertext.take 16 = replicate 16 0 then .ok (ciphertext.drop 16)
    else .error (asciiBytes "cipher: message authentication failed")
  marshal encrypted :=
    if encrypted.nonce.length = 12 then
      .ok (asciiBytes "\x7b" ++ (encrypted.nonce ++ encrypted.ciphertext))
    else .error []
  unmarshal text :=
    if text = asciiBytes "\x7b\x7d" then some ⟨[], []⟩
    else if text.take 1 = asciiBytes "\x7b" ∧ 13 ≤ text.length then
      some ⟨slice text 1 12, text.drop 13⟩
    else none
  encodeToString := id
  decodeString := some
  storeError _ := []

theorem braceSuite_roundTrips : braceSuite.RoundTrips where
  gcm nonce plaintext key := by
    have htag : (replicate 16 0 ++ plaintext).take 16 = replicate 16 (0 : UInt8) :=
      take_left' (by rw [length_replicate])
    simp only [braceSuite]
    rw [if_pos htag, drop_left' (by rw [length_replicate])]
  json encrypted text h := by
    simp only [braceSuite] at h ⊢
    split at h
    · next hnonce =>
      cases h
      have hbrace : asciiBytes "\x7b" = [123] := by decide
      have hempty : asciiBytes "\x7b\x7d" = [123, 125] := by decide
      rw [hbrace, hempty, singleton_append, if_neg, if_pos]
      · rw [slice, drop_succ_cons, drop_zero, take_left' hnonce,
          drop_succ_cons, drop_left' hnonce]
      · rw [length_cons, length_append, hnonce]
        exact ⟨rfl, by omega⟩
      · intro h
        have hlen := congrArg length h
        rw [length_cons, length_append, hnonce, length_cons,
          length_singleton] at hlen
        omega
    · cases h
  base64 b := rfl

theorem braceSuite_shrinks : braceSuite.Shrinks where
  gcm nonce ciphertext key plaintext h := by
    simp only [braceSuite] at h
    split at h
    · next htag =>
      cases h
      have hlen := congrArg length htag
      rw [length_take, length_replicate] at hlen
      rw [length_drop]
      omega
    · cases h
  json text encrypted h := by
    simp only [braceSuite] at h
    split at h
    · cases h
      exact Nat.zero_le _
    · split at h
      · cases h
        rw [length_drop]
        omega
      · cases h

def emptyServer : ApiServer := ⟨emptyMesh, fun _ => none⟩

def answeredUpload : UploadEnv := ⟨.ok (.zero 12), answeredStore soloView⟩

def soloUpload (data : Bytes) (hne : data ≠ []) (encrypted : Bool) : UploadRequest where
  userAddr := asciiBytes "0x" ++ replicate 40 48
  chunkID := 1
  data := data
  signature := []
  password := []
  encrypted := encrypted
  userAddr_ne := by decide
  chunkID_ne := by decide
  data_ne := hne

def soloDownload : DownloadRequest :=
  ⟨asciiBytes "0x" ++ replicate 40 48, some 1, [], [], [], []⟩

theorem upload_solo (req : UploadRequest) {data dataToStore info : Bytes}
    (hprepare : prepareUpload braceSuite req (.ok (.zero 12)) = .ok (data, dataToStore, info))
    (hne : dataToStore ≠ []) :
    ∃ srv' body, handleUpload braceSuite plainJson soloNode emptyServer (.ok req) answeredUpload =
        (srv', .ok body) ∧
      srv'.Returns plainJson soloNode req.userAddr req.chunkID openFetch := by
  obtain ⟨mesh', chunk, hstore, hlocs⟩ :=
    solo_store emptyMesh req.userAddr req.chunkID hne
  have hall i : chunk.peer i ≠ [] :=
    (hlocs i).trans_ne soloNode.self_ne
  have hretrieve := (retrieveDistributed_ok_iff _ _ mesh' openFetch chunk).mpr
    ⟨available_recorded hstore hall,
      fetched_stored hstore (fun _ _ h => h) openFetch⟩
  have hupload : ∃ body, handleUpload braceSuite plainJson soloNode emptyServer (.ok req)
      answeredUpload = (ApiServer.storeChunkMetadata ⟨mesh', fun _ => none⟩ chunk, .ok body) := by
    rw [handleUpload, answeredUpload]
    rw [hprepare]
    dsimp only
    rw [emptyServer, hstore]
    exact ⟨_, rfl⟩
  obtain ⟨body, hupload⟩ := hupload
  exact ⟨_, body, hupload, chunk, dataToStore, getChunkMetadata_stored hstore _, hretrieve⟩

theorem download_upload_solo : ∃ srv' body reply,
    handleUpload braceSuite plainJson soloNode emptyServer
      (.ok (soloUpload [1, 2, 3] (by decide) false)) answeredUpload = (srv', .ok body) ∧
    handleDownload braceSuite plainJson soloNode srv' soloDownload openFetch = .ok reply ∧
    reply.data = [1, 2, 3] := by
  have hprepare : prepareUpload braceSuite (soloUpload [1, 2, 3] (by decide) false)
      (.ok (.zero 12)) = .ok ([1, 2, 3], asciiBytes "\x7b" ++ (replicate 28 0 ++ [1, 2, 3]),
        asciiBytes "AES-256-GCM (wallet-derived)") := by decide
  obtain ⟨srv', body, hupload, hreturns⟩ := upload_solo _ hprepare (by decide)
  have hsame : SameCredentials (soloUpload [1, 2, 3] (by decide) false) soloDownload :=
    ⟨rfl, rfl, rfl, rfl⟩
  obtain ⟨reply, hreply, hdata⟩ :=
    (download_upload_iff braceSuite_roundTrips braceSuite_shrinks hupload rfl hsame hreturns).mpr
      Bool.noConfusion
  exact ⟨srv', body, reply, hupload, hreply, Option.some.inj hdata⟩

/-- An empty JSON object, uploaded as encrypted data, is taken for an envelope and refused. -/
theorem client_data_refused : ∃ srv' body,
    handleUpload braceSuite plainJson soloNode emptyServer
      (.ok (soloUpload (asciiBytes "\x7b\x7d") (by decide) true)) answeredUpload =
        (srv', .ok body) ∧
    srv'.Returns plainJson soloNode soloDownload.userAddr 1 openFetch ∧
    handleDownload braceSuite plainJson soloNode srv' soloDownload openFetch =
      .error ⟨401, asciiBytes "Decryption failed", asciiBytes "Wrong key or corrupted data"⟩ := by
  have hprepare : prepareUpload braceSuite (soloUpload (asciiBytes "\x7b\x7d") (by decide) true)
      (.ok (.zero 12)) = .ok (asciiBytes "\x7b\x7d", asciiBytes "\x7b\x7d",
        asciiBytes "Client-side encrypted") := by decide
  obtain ⟨srv', body, hupload, hreturns⟩ := upload_solo _ hprepare (by decide)
  obtain ⟨data, dataToStore, info, chunk, -, hdecode, hencrypt, hstore, hmeta⟩ :=
    handleUpload_ok hupload
  cases hdecode
  cases hencrypt
  have haddr : checkAddress soloDownload.userAddr = .ok () := by decide
  have hstored : fetchStored plainJson soloNode srv' soloDownload.userAddr 1 openFetch =
      .ok (asciiBytes "\x7b\x7d") :=
    fetchStored_ok hstore hmeta hreturns
  have hrefused : decryptData braceSuite soloDownload.userAddr soloDownload.signature
      soloDownload.password (asciiBytes "\x7b\x7d") = .error ⟨401, asciiBytes "Decryption failed",
        asciiBytes "Wrong key or corrupted data"⟩ := by decide
  refine ⟨srv', body, hupload, hreturns, ?_⟩
  rw [handleDownload_eq haddr rfl hstored, hrefused]
  rfl

end Zentalk.Mesh
