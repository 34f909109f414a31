import Zentalk.Dht.SignedEntry
import Zentalk.Lib.Run

/-!
# What a node stores and serves

`storage.go`, `handleStore` and `Lookup`. Instants are nanoseconds.

Results:
1. `lookup_bound_iff`: when only values signed for the key are returned.
2. `no_rollback_iff`: when nothing older comes back.
3. `served_last_accepted`: each key is a register.
-/

namespace Zentalk.Dht

open Wire Runs List Function Option ByteArr Run

/-- `time.Unix` of an instant. -/
def unix (now : ℤ) : Int64 := Int64.ofInt (now / 10 ^ 9)

/-! ## Storage -/

structure StoredValue where
  key : NodeID
  value : Bytes
  expiresAt : ℤ
  publisher : NodeID

structure Storage where
  data : NodeID → Option StoredValue

namespace Storage

/-- `NewStorage`. -/
def empty : Storage := ⟨fun _ => none⟩

/-- `Storage.Store`, with the time to live in nanoseconds. -/
def store (s : Storage) (key : NodeID) (value : Bytes) (ttl : Int64) (publisher : NodeID)
    (now : ℤ) : Storage :=
  ⟨update s.data key (some { key, value, expiresAt := now + ttl.toInt, publisher })⟩

def get (s : Storage) (key : NodeID) (now : ℤ) : Option Bytes :=
  match s.data key with
  | none => none
  | some stored => if stored.expiresAt < now then none else some stored.value

def delete (s : Storage) (key : NodeID) : Storage := ⟨update s.data key none⟩

theorem delete_data (s : Storage) (key : NodeID) :
    (s.delete key).data = update s.data key none := rfl

def expireOldValues (s : Storage) (now : ℤ) : Storage :=
  ⟨fun key => (s.data key).filter fun stored => ¬ stored.expiresAt < now⟩

theorem get_iff {s : Storage} {key : NodeID} {data : Bytes} :
    (∃ now, s.get key now = some data) ↔
      ∃ stored, s.data key = some stored ∧ stored.value = data := by
  constructor
  · rintro ⟨now, h⟩
    unfold get at h
    split at h
    · cases h
    · next stored hstored =>
      split at h
      · cases h
      · exact ⟨stored, hstored, some.inj h⟩
  · rintro ⟨stored, hstored, rfl⟩
    refine ⟨stored.expiresAt, ?_⟩
    rw [get, hstored]
    exact if_neg (lt_irrefl _)

theorem get_store_self (s : Storage) (key : NodeID) (value : Bytes) (ttl : Int64)
    (publisher : NodeID) (now later : ℤ) :
    (s.store key value ttl publisher now).get key later =
      if now + ttl.toInt < later then none else some value := by
  simp [get, store]

end Storage

/-! ## Requests -/

structure StoreRequest where
  key : NodeID
  value : Bytes
  ttl : Int64

/-- `StoreAckResponse`. -/
structure StoreAck where
  success : Bool
  message : String
deriving DecidableEq

/-- `handleStore`: the payload as `ParsePayload` reads it, the identifier of `msg.Sender`, and the
clock at the verification and when the value is put. `none` is a panic. -/
def handleStore (S : EntrySuite) (s : Storage) (payload : Except String StoreRequest)
    (sender : Option NodeID) (verifyAt storeAt : ℤ) : Option (Storage × Option StoreAck) :=
  match payload with
  | .error _ => some (s, none)
  | .ok req =>
    match verifyAndExtract S (unix verifyAt) req.value with
    | .error _ => some (s, some ⟨false, "signature verification failed"⟩)
    | .ok _ =>
      match sender with
      | none => none
      | some publisher =>
        some (s.store req.key req.value (req.ttl * 1000000000) publisher storeAt, some ⟨true, ""⟩)

theorem handleStore_of_extract {S : EntrySuite} {s : Storage} {req : StoreRequest}
    {publisher : NodeID} {verifyAt storeAt : ℤ} {value : Bytes}
    (h : verifyAndExtract S (unix verifyAt) req.value = .ok value) :
    handleStore S s (.ok req) (some publisher) verifyAt storeAt =
      some (s.store req.key req.value (req.ttl * 1000000000) publisher storeAt,
        some ⟨true, ""⟩) := by
  simp [handleStore, h]

theorem handleStore_decoded (S : EntrySuite) (s : Storage) (req : StoreRequest) (sender : NodeID)
    (verifyAt storeAt : ℤ) :
    (∃ value, verifyAndExtract S (unix verifyAt) req.value = .ok value) ∧
      handleStore S s (.ok req) (some sender) verifyAt storeAt =
        some (s.store req.key req.value (req.ttl * 1000000000) sender storeAt, some ⟨true, ""⟩) ∨
    (∀ value, verifyAndExtract S (unix verifyAt) req.value ≠ .ok value) ∧
      handleStore S s (.ok req) (some sender) verifyAt storeAt =
        some (s, some ⟨false, "signature verification failed"⟩) := by
  cases hextract : verifyAndExtract S (unix verifyAt) req.value with
  | error e => exact .inr ⟨nofun, by simp [handleStore, hextract]⟩
  | ok value => exact .inl ⟨⟨value, rfl⟩, handleStore_of_extract hextract⟩

/-- `Lookup`, where `remote` is what `iterativeFindValue` returns if it is called. -/
def lookup (S : EntrySuite) (s : Storage) (key : NodeID) (getAt verifyAt : ℤ)
    (remote : Option Bytes) : Storage × Option Bytes :=
  match s.get key getAt with
  | some signedData =>
    match verifyAndExtract S (unix verifyAt) signedData with
    | .error _ => (s.delete key, none)
    | .ok value => (s, some value)
  | none =>
    match remote with
    | none => (s, none)
    | some signedData =>
      match verifyAndExtract S (unix verifyAt) signedData with
      | .error _ => (s, none)
      | .ok value => (s, some value)

theorem lookup_eq_some_iff {S : EntrySuite} {s : Storage} {key : NodeID} {getAt verifyAt : ℤ}
    {remote : Option Bytes} {value : Bytes} :
    (lookup S s key getAt verifyAt remote).2 = some value ↔
      ∃ data, (s.get key getAt).or remote = some data ∧
        verifyAndExtract S (unix verifyAt) data = .ok value := by
  unfold lookup
  cases s.get key getAt with
  | some data => cases h : verifyAndExtract S (unix verifyAt) data <;> simp [h]
  | none =>
    cases remote with
    | none => simp
    | some data => cases h : verifyAndExtract S (unix verifyAt) data <;> simp [h]

/-! ## Runs -/

/-- What happens to the storage of a node. -/
inductive NodeEvent
  /-- A STORE request is handled. -/
  | stored (payload : Except String StoreRequest) (sender : Option NodeID) (verifyAt storeAt : ℤ)
  /-- `expireRoutine`. -/
  | expired (now : ℤ)
  /-- `Lookup` removes an entry that it could not verify. -/
  | deleted (key : NodeID)

/-- One step of a node. The removal in `Lookup` may come when another entry is there already. -/
inductive NodeStep (S : EntrySuite) : Storage → NodeEvent → Storage → Prop
  | stored {s s' payload sender verifyAt storeAt ack} :
      handleStore S s payload sender verifyAt storeAt = some (s', ack) →
      NodeStep S s (.stored payload sender verifyAt storeAt) s'
  | expired {s : Storage} (now : ℤ) : NodeStep S s (.expired now) (s.expireOldValues now)
  | deleted {s : Storage} (key : NodeID) : NodeStep S s (.deleted key) (s.delete key)

/-- The key and the entry of a STORE that is accepted. -/
def NodeEvent.accepted (S : EntrySuite) : NodeEvent → Option (NodeID × SignedEntry)
  | .stored (.ok req) (some _) verifyAt _ =>
    match S.unmarshal req.value with
    | .error _ => none
    | .ok e =>
      match e.verify S (unix verifyAt) with
      | .error _ => none
      | .ok () => some (req.key, e)
  | _ => none

section

variable {S : EntrySuite} {verifyAt storeAt : ℤ}

theorem accepted_of_valid {req : StoreRequest} {publisher : NodeID} {e : SignedEntry}
    (hdecode : S.unmarshal req.value = .ok e) (hvalid : e.Valid S (unix verifyAt)) :
    (NodeEvent.stored (.ok req) (some publisher) verifyAt storeAt).accepted S =
      some (req.key, e) := by
  simp [NodeEvent.accepted, hdecode, (e.verify_ok_iff S (unix verifyAt)).mpr hvalid]

theorem accepted_eq_some {ev : NodeEvent} {key : NodeID} {e : SignedEntry}
    (h : ev.accepted S = some (key, e)) : ∃ req publisher verifyAt storeAt,
      ev = .stored (.ok req) (some publisher) verifyAt storeAt ∧ req.key = key ∧
      S.unmarshal req.value = .ok e ∧ e.Valid S (unix verifyAt) := by
  unfold NodeEvent.accepted at h
  split at h
  · next req publisher verifyAt storeAt =>
    split at h
    · cases h
    · next e hdecode =>
      split at h
      · cases h
      · next hverify =>
        cases h
        exact ⟨req, publisher, verifyAt, storeAt, rfl, rfl, hdecode,
          (e.verify_ok_iff S _).mp hverify⟩
  · cases h

theorem step_det (s : Storage) (e : NodeEvent) (s₁ s₂ : Storage) (h₁ : NodeStep S s e s₁)
    (h₂ : NodeStep S s e s₂) : s₁ = s₂ := by
  cases h₁ with
  | stored h₁ =>
    cases h₂ with
    | stored h₂ => exact congrArg Prod.fst (some.inj (h₁.symm.trans h₂))
  | expired now =>
    cases h₂
    rfl
  | deleted key =>
    cases h₂
    rfl

theorem handleStore_cases {s s' : Storage} {payload : Except String StoreRequest}
    {sender : Option NodeID} {ack : Option StoreAck}
    (h : handleStore S s payload sender verifyAt storeAt = some (s', ack)) :
    (∃ key e stored, (NodeEvent.stored payload sender verifyAt storeAt).accepted S = some (key, e) ∧
      e.Valid S (unix verifyAt) ∧ S.unmarshal stored.value = .ok e ∧
      s'.data = update s.data key (some stored)) ∨
    (NodeEvent.stored payload sender verifyAt storeAt).accepted S = none ∧ s' = s := by
  unfold handleStore at h
  split at h
  · cases h
    exact .inr ⟨rfl, rfl⟩
  · next req =>
    cases hextract : verifyAndExtract S (unix verifyAt) req.value with
    | error err =>
      rw [hextract] at h
      cases h
      refine .inr ⟨?_, rfl⟩
      cases hacc : (NodeEvent.stored (.ok req) sender verifyAt storeAt).accepted S with
      | none => rfl
      | some entry =>
        obtain ⟨_, _, _, _, hev, -, hdecode, hvalid⟩ := accepted_eq_some hacc
        cases hev
        rw [(verifyAndExtract_ok_iff ..).mpr ⟨_, hdecode, hvalid, rfl⟩] at hextract
        cases hextract
    | ok value =>
      rw [hextract] at h
      obtain ⟨e, hdecode, hvalid, -⟩ := (verifyAndExtract_ok_iff S _ _ _).mp hextract
      cases sender with
      | none => cases h
      | some publisher =>
        cases h
        exact .inl ⟨req.key, e, _, accepted_of_valid hdecode hvalid, hvalid, hdecode, rfl⟩

/-- An accepted STORE puts its entry, and any other step leaves or removes. -/
theorem step_cases {s s' : Storage} {ev : NodeEvent} (h : NodeStep S s ev s') :
    (∃ key e stored verifyAt, ev.accepted S = some (key, e) ∧ e.Valid S verifyAt ∧
      S.unmarshal stored.value = .ok e ∧ s'.data = update s.data key (some stored)) ∨
    ev.accepted S = none ∧ ∀ key stored, s'.data key = some stored → s.data key = some stored := by
  cases h with
  | @stored _ payload sender verifyAt storeAt ack h =>
    rcases handleStore_cases h with ⟨key, e, stored, hacc, hvalid, hdecode, hdata⟩ | ⟨hacc, rfl⟩
    · exact .inl ⟨key, e, stored, unix verifyAt, hacc, hvalid, hdecode, hdata⟩
    · exact .inr ⟨hacc, fun _ _ h => h⟩
  | expired now =>
    refine .inr ⟨rfl, fun key stored h => ?_⟩
    exact (filter_eq_some_iff.mp h).1
  | deleted key =>
    refine .inr ⟨rfl, fun key' stored h => ?_⟩
    rw [Storage.delete_data, update_apply] at h
    split at h
    · cases h
    · exact h

end

/-! ## The key of an entry -/

/-- What `iterativeFindValue` may return for a key: the answers of the other nodes. -/
abbrev Answers := NodeID → Bytes → Prop

/-- `Lookup` returns a value only if it is that of a valid entry which was signed for the key. -/
def LookupBound (S : EntrySuite) (answers : Answers) (s : Storage) : Prop :=
  ∀ key getAt verifyAt remote value, (∀ data, remote = some data → answers key data) →
    (lookup S s key getAt verifyAt remote).2 = some value →
    ∃ data e, (s.get key getAt).or remote = some data ∧ S.unmarshal data = .ok e ∧
      e.Valid S (unix verifyAt) ∧ e.value = value ∧ e.key = key

def AnswersOwnKey (S : EntrySuite) (answers : Answers) : Prop :=
  ∀ key data e now, answers key data → S.unmarshal data = .ok e → e.Valid S now → e.key = key

def StoresOwnKey (S : EntrySuite) (_ : List NodeEvent) (_ : Storage) (ev : NodeEvent) : Prop :=
  ∀ key e, ev.accepted S = some (key, e) → e.key = key

section

variable {S : EntrySuite}

def StoredBound (S : EntrySuite) (s : Storage) : Prop :=
  ∀ key stored e now, s.data key = some stored → S.unmarshal stored.value = .ok e →
    e.Valid S now → e.key = key

theorem unix_toInt_mul (now : Int64) : unix (now.toInt * 10 ^ 9) = now := by
  rw [unix, Int.mul_ediv_cancel _ (by norm_num), Int64.ofInt_toInt]

theorem storedBound_empty : StoredBound S Storage.empty := by
  intro key stored e now hstored
  cases hstored

/-- `Lookup` extracts the value of a valid entry at some time. -/
theorem verifyAndExtract_of_valid {data : Bytes} {e : SignedEntry} {now : Int64}
    (hdecode : S.unmarshal data = .ok e) (hvalid : e.Valid S now) :
    verifyAndExtract S (unix (now.toInt * 10 ^ 9)) data = .ok e.value := by
  rw [unix_toInt_mul]
  exact (verifyAndExtract_ok_iff ..).mpr ⟨e, hdecode, hvalid, rfl⟩

variable {answers : Answers}

theorem storedBound_of_lookupBound {s : Storage} (h : LookupBound S answers s) :
    StoredBound S s := by
  intro key stored e now hstored hdecode hvalid
  obtain ⟨getAt, hget⟩ := Storage.get_iff.mpr ⟨stored, hstored, rfl⟩
  obtain ⟨data, e', hdata, hdecode', -, -, hkey⟩ := h key getAt (now.toInt * 10 ^ 9) none e.value
    nofun (lookup_eq_some_iff.mpr
      ⟨stored.value, by rw [hget]; rfl, verifyAndExtract_of_valid hdecode hvalid⟩)
  rw [hget] at hdata
  cases hdata
  rw [hdecode] at hdecode'
  cases hdecode'
  exact hkey

theorem answersOwnKey_of_lookupBound (h : LookupBound S answers Storage.empty) :
    AnswersOwnKey S answers := by
  intro key data e now hanswer hdecode hvalid
  obtain ⟨data', e', hdata, hdecode', -, -, hkey⟩ := h key 0 (now.toInt * 10 ^ 9) (some data)
    e.value (fun _ hdata => some.inj hdata ▸ hanswer) (lookup_eq_some_iff.mpr
      ⟨data, rfl, verifyAndExtract_of_valid hdecode hvalid⟩)
  cases hdata
  rw [hdecode] at hdecode'
  cases hdecode'
  exact hkey

theorem lookupBound_of_storedBound {s : Storage} (h : StoredBound S s)
    (hanswers : AnswersOwnKey S answers) : LookupBound S answers s := by
  intro key getAt verifyAt remote value hremote hlookup
  obtain ⟨data, hdata, hextract⟩ := lookup_eq_some_iff.mp hlookup
  obtain ⟨e, hdecode, hvalid, hvalue⟩ := (verifyAndExtract_ok_iff ..).mp hextract
  refine ⟨data, e, hdata, hdecode, hvalid, hvalue, ?_⟩
  cases hget : s.get key getAt with
  | none =>
    rw [hget, none_or] at hdata
    exact hanswers key data e _ (hremote data hdata) hdecode hvalid
  | some found =>
    rw [hget, some_or] at hdata
    cases hdata
    obtain ⟨stored, hstored, rfl⟩ := Storage.get_iff.mp ⟨getAt, hget⟩
    exact h key stored e _ hstored hdecode hvalid

theorem storedBound_step {evs : List NodeEvent} {s s' : Storage} {ev : NodeEvent}
    (hs : StoredBound S s) (hstep : NodeStep S s ev s') :
    StoredBound S s' ↔ StoresOwnKey S evs s ev := by
  rcases step_cases hstep with ⟨key, e, stored, now, hacc, hvalid, hdecode, hdata⟩ | ⟨hacc, hkept⟩
  · constructor
    · -- The entry was valid when it was accepted, so it is one of those that are bound.
      intro h key' e' hacc'
      obtain ⟨rfl, rfl⟩ := Prod.mk.inj (some.inj (hacc.symm.trans hacc'))
      exact h key stored e now (by rw [hdata, update_self]) hdecode hvalid
    · intro h key' stored' e' now' hstored' hdecode' hvalid'
      rw [hdata, update_apply] at hstored'
      split at hstored'
      · next hkey =>
        cases hstored'
        rw [hdecode] at hdecode'
        cases hdecode'
        rw [hkey]
        exact h key e hacc
      · exact hs key' stored' e' now' hstored' hdecode' hvalid'
  · refine iff_of_true ?_ fun key e h => by rw [hacc] at h; cases h
    intro key stored e now hstored hdecode hvalid
    exact hs key stored e now (hkept key stored hstored) hdecode hvalid

end

/-- `Lookup` returns only values signed for the key it is asked for, all along a run, just when
every accepted STORE names the key of its entry and the other nodes answer with entries for the key.
-/
theorem lookup_bound_iff (S : EntrySuite) (answers : Answers) {evs : List NodeEvent} {s : Storage}
    (h : Run (NodeStep S) Storage.empty evs s) :
    (∀ pre post s', evs = pre ++ post → Run (NodeStep S) Storage.empty pre s' →
      LookupBound S answers s') ↔
      Guarded (NodeStep S) Storage.empty (StoresOwnKey S) evs ∧ AnswersOwnKey S answers := by
  have hstored := always_iff_guarded (G := StoresOwnKey S) step_det
    storedBound_empty (fun _ _ _ _ hs hstep => storedBound_step hs hstep) h
  rw [← hstored]
  constructor
  · intro hbound
    refine ⟨fun pre post s' heq hrun => ?_, ?_⟩
    · exact storedBound_of_lookupBound (hbound pre post s' heq hrun)
    · exact answersOwnKey_of_lookupBound (hbound [] evs Storage.empty rfl .nil)
  · rintro ⟨hbound, hanswers⟩ pre post s' heq hrun
    exact lookupBound_of_storedBound (hbound pre post s' heq hrun) hanswers

/-- A suite that takes every string for the value of an entry for the zero key, with its length as
the timestamp. -/
def openSuite : EntrySuite where
  sign _ _ := List.replicate 64 0
  verify _ _ _ := true
  marshal e := .ok e.value
  unmarshal data := .ok
    { key := .zero 20, value := data, publicKey := List.replicate 32 0,
      signature := List.replicate 64 0, timestamp := Int64.ofNat data.length, ttl := 1000,
      nonce := [] }

def sampleStore (key : NodeID) (value : Bytes) : NodeEvent :=
  .stored (.ok ⟨key, value, 1000⟩) (some (.zero 20)) 0 0

theorem openSuite_accepted {key key' : NodeID} {value : Bytes} {e : SignedEntry}
    (h : (sampleStore key value).accepted openSuite = some (key', e)) :
    key' = key ∧ .ok e = openSuite.unmarshal value := by
  obtain ⟨req, publisher, verifyAt, storeAt, hev, hkey, hdecode, -⟩ := accepted_eq_some h
  cases hev
  exact ⟨hkey.symm, hdecode.symm⟩

theorem openSuite_extract : verifyAndExtract openSuite (unix 0) [1] = .ok [1] := by
  decide +kernel

/-- The open suite accepts short values at time 0. -/
theorem openSuite_step (s : Storage) (key : NodeID) (value : Bytes)
    (h : verifyAndExtract openSuite (unix 0) value = .ok value) :
    NodeStep openSuite s (sampleStore key value)
      (s.store key value (1000 * 1000000000) (.zero 20) 0) :=
  .stored (handleStore_of_extract h)

/-- A node that accepts an entry under the key it was signed for. -/
theorem lookup_bound_own_key :
    (∃ s, Run (NodeStep openSuite) Storage.empty [sampleStore (.zero 20) [1]] s) ∧
    ∀ pre post s', [sampleStore (.zero 20) [1]] = pre ++ post →
      Run (NodeStep openSuite) Storage.empty pre s' →
      LookupBound openSuite (fun _ _ => False) s' := by
  have hrun := nil.snoc (openSuite_step Storage.empty (.zero 20) [1] openSuite_extract)
  refine ⟨⟨_, hrun⟩, (lookup_bound_iff openSuite (fun _ _ => False) hrun).mpr ⟨?_, ?_⟩⟩
  · refine Guarded.nil.snoc fun _ _ key e h => ?_
    obtain ⟨rfl, he⟩ := openSuite_accepted h
    cases he
    rfl
  · exact fun _ _ _ _ h => h.elim

/-- An entry for the zero key is served under another key. -/
theorem served_under_other_key :
    ∃ s e, Run (NodeStep openSuite) Storage.empty [sampleStore (ofSlice 20 [1]) [7]] s ∧
      s.get (ofSlice 20 [1]) 0 = some [7] ∧
      (lookup openSuite s (ofSlice 20 [1]) 0 0 none).2 = some [7] ∧
      openSuite.unmarshal [7] = .ok e ∧ e.Valid openSuite (unix 0) ∧
      e.key ≠ ofSlice 20 [1] := by
  have hextract : verifyAndExtract openSuite (unix 0) [7] = .ok [7] := by decide +kernel
  obtain ⟨e, hdecode, hvalid, -⟩ := (verifyAndExtract_ok_iff ..).mp hextract
  have hget : (Storage.empty.store (ofSlice 20 [1]) [7] (1000 * 1000000000) (.zero 20)
      0).get (ofSlice 20 [1]) 0 = some [7] := by
    decide +kernel
  refine ⟨_, e, nil.snoc (openSuite_step Storage.empty _ _ hextract), hget, ?_, hdecode, hvalid, ?_⟩
  · exact lookup_eq_some_iff.mpr ⟨[7], by rw [hget]; rfl, hextract⟩
  · cases hdecode
    decide +kernel

/-! ## The version of an entry -/

/-- The accepted entries with the keys they were put under, oldest first. -/
def accepted (S : EntrySuite) (evs : List NodeEvent) : List (NodeID × SignedEntry) :=
  evs.filterMap (NodeEvent.accepted S)

/-- What is served under a key is no older than what was accepted before by the same author. -/
def NoRollback (S : EntrySuite) (evs : List NodeEvent) (s : Storage) : Prop :=
  ∀ key now data e e', s.get key now = some data → S.unmarshal data = .ok e → e.key = key →
    (key, e') ∈ accepted S evs → e'.key = key → e'.publicKey = e.publicKey →
    e'.timestamp ≤ e.timestamp

def StoresNewer (S : EntrySuite) (evs : List NodeEvent) (_ : Storage) (ev : NodeEvent) : Prop :=
  ∀ key e e', ev.accepted S = some (key, e) → e.key = key → (key, e') ∈ accepted S evs →
    e'.key = key → e'.publicKey = e.publicKey → e'.timestamp ≤ e.timestamp

section

variable {S : EntrySuite}

theorem noRollback_iff (evs : List NodeEvent) (s : Storage) :
    NoRollback S evs s ↔ ∀ key stored e e', s.data key = some stored →
      S.unmarshal stored.value = .ok e → e.key = key → (key, e') ∈ accepted S evs → e'.key = key →
      e'.publicKey = e.publicKey → e'.timestamp ≤ e.timestamp := by
  constructor
  · intro h key stored e e' hstored
    obtain ⟨now, hget⟩ := Storage.get_iff.mpr ⟨stored, hstored, rfl⟩
    exact h key now stored.value e e' hget
  · intro h key now data e e' hget
    obtain ⟨stored, hstored, rfl⟩ := Storage.get_iff.mp ⟨now, hget⟩
    exact h key stored e e' hstored

theorem accepted_snoc (evs : List NodeEvent) (ev : NodeEvent) :
    accepted S (evs ++ [ev]) = accepted S evs ++ (ev.accepted S).toList := by
  rw [accepted, filterMap_append, accepted]
  cases h : ev.accepted S <;> simp [h]

theorem noRollback_step {evs : List NodeEvent} {s s' : Storage} {ev : NodeEvent}
    (hs : NoRollback S evs s) (hstep : NodeStep S s ev s') :
    NoRollback S (evs ++ [ev]) s' ↔ StoresNewer S evs s ev := by
  rw [noRollback_iff] at hs ⊢
  rw [accepted_snoc]
  rcases step_cases hstep with ⟨key, e, stored, now, hacc, hvalid, hdecode, hdata⟩ | ⟨hacc, hkept⟩
  · rw [hacc, toList_some]
    constructor
    · intro h key₁ e₁ e' hacc' hown hmem hkey hsigner
      obtain ⟨rfl, rfl⟩ := Prod.mk.inj (some.inj (hacc.symm.trans hacc'))
      exact h key stored e e' (by rw [hdata, update_self]) hdecode hown
        (mem_append_left _ hmem) hkey hsigner
    · intro h key' stored' e₁ e' hstored' hdecode' hown hmem hkey hsigner
      rw [hdata, update_apply] at hstored'
      rcases mem_append.mp hmem with hbefore | hnew
      · split at hstored'
        · next heq =>
          subst heq
          cases hstored'
          rw [hdecode] at hdecode'
          cases hdecode'
          exact h key' e e' hacc hown hbefore hkey hsigner
        · exact hs key' stored' e₁ e' hstored' hdecode' hown hbefore hkey hsigner
      · -- The entry that was just accepted is the one under its key.
        obtain ⟨rfl, rfl⟩ := Prod.mk.inj (mem_singleton.mp hnew)
        rw [if_pos rfl] at hstored'
        cases hstored'
        rw [hdecode] at hdecode'
        cases hdecode'
        exact Int64.le_refl _
  · rw [hacc, toList_none, append_nil]
    refine iff_of_true ?_ fun key e e' h => by rw [hacc] at h; cases h
    intro key stored e e' hstored
    exact hs key stored e e' (hkept key stored hstored)

end

/-- What a node serves is never older than what it accepted, just when no accepted STORE carries an
older version. -/
theorem no_rollback_iff (S : EntrySuite) {evs : List NodeEvent} {s : Storage}
    (h : Run (NodeStep S) Storage.empty evs s) :
    (∀ pre post s', evs = pre ++ post → Run (NodeStep S) Storage.empty pre s' →
      NoRollback S pre s') ↔ Guarded (NodeStep S) Storage.empty (StoresNewer S) evs := by
  refine trace_always_iff_guarded step_det ?_
    (fun _ _ _ _ _ hs hstep => noRollback_step hs hstep) h
  intro key now data e e' hget
  cases hget

/-- A node that accepts a newer version after an older one. -/
theorem no_rollback_newer :
    (∃ s, Run (NodeStep openSuite) Storage.empty
      [sampleStore (.zero 20) [7], sampleStore (.zero 20) [7, 7]] s) ∧
    ∀ pre post s', [sampleStore (.zero 20) [7], sampleStore (.zero 20) [7, 7]] = pre ++ post →
      Run (NodeStep openSuite) Storage.empty pre s' → NoRollback openSuite pre s' := by
  have hold : verifyAndExtract openSuite (unix 0) [7] = .ok [7] := by decide +kernel
  have hnew : verifyAndExtract openSuite (unix 0) [7, 7] = .ok [7, 7] := by decide +kernel
  have hrun := (nil.snoc (openSuite_step Storage.empty (.zero 20) [7] hold)).snoc
    (openSuite_step _ (.zero 20) [7, 7] hnew)
  refine ⟨⟨_, hrun⟩, (no_rollback_iff openSuite hrun).mpr ?_⟩
  refine (Guarded.nil.snoc fun _ _ key e e' _ _ hmem => nomatch hmem).snoc ?_
  intro s _ key e e' hacc _ hmem _ _
  obtain ⟨rfl, he⟩ := openSuite_accepted hacc
  cases he
  obtain ⟨ev, hev, hacc'⟩ := mem_filterMap.mp hmem
  obtain rfl := mem_singleton.mp hev
  obtain ⟨-, he'⟩ := openSuite_accepted hacc'
  cases he'
  decide +kernel

/-- Version 1 replaces version 2, and is served. -/
theorem older_version_served :
    ∃ s e e', Run (NodeStep openSuite) Storage.empty
        [sampleStore (.zero 20) [7, 7], sampleStore (.zero 20) [7]] s ∧
      (zero 20, e') ∈ accepted openSuite [sampleStore (.zero 20) [7, 7]] ∧
      e'.Valid openSuite (unix 0) ∧ e'.key = .zero 20 ∧ s.get (.zero 20) 0 = some [7] ∧
      openSuite.unmarshal [7] = .ok e ∧ e.Valid openSuite (unix 0) ∧ e.key = .zero 20 ∧
      e'.publicKey = e.publicKey ∧ e.timestamp < e'.timestamp := by
  have hold : verifyAndExtract openSuite (unix 0) [7] = .ok [7] := by decide +kernel
  have hnew : verifyAndExtract openSuite (unix 0) [7, 7] = .ok [7, 7] := by decide +kernel
  obtain ⟨e, hdecode, hvalid, -⟩ := (verifyAndExtract_ok_iff ..).mp hold
  obtain ⟨e', hdecode', hvalid', -⟩ := (verifyAndExtract_ok_iff ..).mp hnew
  refine ⟨_, e, e', (nil.snoc (openSuite_step Storage.empty _ _ hnew)).snoc
    (openSuite_step _ _ _ hold), ?_, hvalid', ?_, ?_, hdecode, hvalid, ?_⟩
  · refine mem_filterMap.mpr ⟨_, mem_singleton_self _, ?_⟩
    exact accepted_of_valid hdecode' hvalid'
  · cases hdecode'
    rfl
  · decide +kernel
  · cases hdecode
    cases hdecode'
    exact ⟨rfl, rfl, by decide +kernel⟩

/-- What a node serves under a key is the last entry that it has accepted for the key. -/
theorem served_last_accepted (S : EntrySuite) {evs : List NodeEvent} {s : Storage}
    (h : Run (NodeStep S) Storage.empty evs s) {key : NodeID} {now : ℤ} {data : Bytes}
    (hget : s.get key now = some data) :
    ∃ e verifyAt, S.unmarshal data = .ok e ∧ e.Valid S verifyAt ∧
      ((accepted S evs).filter fun entry => entry.1 = key).getLast? = some (key, e) := by
  obtain ⟨stored, hstored, rfl⟩ := Storage.get_iff.mp ⟨now, hget⟩
  refine h.trace_invariant (I := fun evs s => ∀ key stored, s.data key = some stored →
    ∃ e verifyAt, S.unmarshal stored.value = .ok e ∧ e.Valid S verifyAt ∧
      ((accepted S evs).filter fun entry => entry.1 = key).getLast? = some (key, e))
    ?_ ?_ key stored hstored
  · intro key stored hstored
    cases hstored
  · intro evs ev s s' hs hstep key stored hstored
    rw [accepted_snoc, filter_append]
    rcases step_cases hstep with
      ⟨key', e, stored', verifyAt, hacc, hvalid, hdecode, hdata⟩ | ⟨hacc, hkept⟩
    · rw [hdata, update_apply] at hstored
      rw [hacc, toList_some]
      split at hstored
      · next heq =>
        cases hstored
        exact ⟨e, verifyAt, hdecode, hvalid, by simp [heq]⟩
      · next hne =>
        rw [filter_singleton, decide_eq_false (Ne.symm hne)]
        simpa using hs key stored hstored
    · simpa [hacc] using hs key stored (hkept key stored hstored)

theorem served_last_accepted_open : ∃ s e,
    Run (NodeStep openSuite) Storage.empty
      [sampleStore (.zero 20) [1], sampleStore (.zero 20) [7]] s ∧
    openSuite.unmarshal [7] = .ok e ∧
    ((accepted openSuite [sampleStore (.zero 20) [1], sampleStore (.zero 20) [7]]).filter
      fun entry => entry.1 = .zero 20).getLast? = some (.zero 20, e) := by
  have hrun := (nil.snoc (openSuite_step Storage.empty (.zero 20) [1] (by decide +kernel))).snoc
    (openSuite_step _ (.zero 20) [7] (by decide +kernel))
  obtain ⟨e, _, hdecode, -, hlast⟩ := served_last_accepted openSuite hrun
    ((Storage.get_store_self _ _ [7] _ _ _ 0).trans (if_neg (by decide +kernel)))
  exact ⟨_, e, hrun, hdecode, hlast⟩

end Zentalk.Dht
