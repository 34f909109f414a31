import Zentalk.Lib.Run
import Zentalk.Network.Device

/-!
# The life of one-time prekeys

A restart brings a used key back. Otherwise each is used once (`one_time_keys_single_use`), and an
ID stays with its key (`key_ids_never_reused`).
-/

namespace Zentalk

open Wire Runs Device List Option ByteArr OneTimePreKeyPrivate Run

variable {K : Suite}

/-! ## Runs -/

/-- The calls that touch one-time prekeys, with what the outside answers. -/
inductive DeviceOp
  | initializeX3DH (env : InitEnv)
  | refillOneTimePreKeys (threshold : Int) (rand : Nat → Except String (ByteArr 32))
      (save : WriteOutcome)
  | initializeRatchetSession (sender : Address) (initialMsg : InitialMessage) (save : WriteOutcome)
  | restart

namespace Device

/-- The device after a call; `none` when the call panics. -/
def exec (d : Device K) : DeviceOp → Option (Device K)
  | .initializeX3DH env => some (d.initializeX3DH env).1
  | .refillOneTimePreKeys threshold rand save =>
    some (d.refillOneTimePreKeys threshold rand save).1
  | .initializeRatchetSession sender initialMsg save =>
    some { d with client := (initializeRatchetSession d.client sender initialMsg save).1 }
  | .restart => d.restart

def generated (d : Device K) : DeviceOp → List OneTimePreKeyPrivate
  | .initializeX3DH env => d.initializedKeys env
  | .refillOneTimePreKeys threshold rand _ => d.refilledKeys threshold rand
  | .initializeRatchetSession _ _ _ => []
  | .restart => []

def used (d : Device K) : DeviceOp → Option OneTimePreKeyPrivate
  | .initializeRatchetSession sender initialMsg _ => d.consumedKey sender initialMsg
  | _ => none

end Device

/-- A call together with the keys it put into the pool and the key it used. -/
structure PreKeyEvent where
  op : DeviceOp
  generated : List OneTimePreKeyPrivate
  used : Option OneTimePreKeyPrivate

def PreKeyStep (d : Device K) (e : PreKeyEvent) (d' : Device K) : Prop :=
  d.exec e.op = some d' ∧ e.generated = d.generated e.op ∧ e.used = d.used e.op

theorem preKeyStep_unique (d : Device K) (e : PreKeyEvent) (d₁ d₂ : Device K)
    (h₁ : PreKeyStep d e d₁) (h₂ : PreKeyStep d e d₂) : d₁ = d₂ :=
  some.inj (h₁.1.symm.trans h₂.1)

namespace Device

def event (d : Device K) (op : DeviceOp) : PreKeyEvent := ⟨op, d.generated op, d.used op⟩

/-- The events of some calls in a row and the device they leave. -/
def trace : Device K → List DeviceOp → Option (List PreKeyEvent × Device K)
  | d, [] => some ([], d)
  | d, op :: ops =>
    (d.exec op).bind fun d' => (d'.trace ops).map fun rest => (d.event op :: rest.1, rest.2)

theorem trace_run {d d' : Device K} {ops : List DeviceOp} {evs : List PreKeyEvent}
    (h : d.trace ops = some (evs, d')) : Run PreKeyStep d evs d' := by
  induction ops generalizing d evs with
  | nil =>
    cases h
    exact nil
  | cons op ops ih =>
    obtain ⟨d₁, hexec, hrest⟩ := bind_eq_some_iff.mp h
    obtain ⟨⟨evs', d₂⟩, htrace, heq⟩ := map_eq_some_iff.mp hrest
    cases heq
    exact cons ⟨hexec, rfl, rfl⟩ (ih htrace)

end Device

def generatedKeys (evs : List PreKeyEvent) : List OneTimePreKeyPrivate :=
  evs.flatMap PreKeyEvent.generated

def usedKeys (evs : List PreKeyEvent) : List OneTimePreKeyPrivate := evs.filterMap PreKeyEvent.used

section

@[simp] theorem generatedKeys_concat (evs : List PreKeyEvent) (e : PreKeyEvent) :
    generatedKeys (evs ++ [e]) = generatedKeys evs ++ e.generated := by
  simp [generatedKeys]

variable {e : PreKeyEvent} {k : OneTimePreKeyPrivate} {d d' : Device K} {id : UInt32}

theorem generatedKeys_nil (h : e.generated = []) (evs : List PreKeyEvent) :
    generatedKeys (evs ++ [e]) = generatedKeys evs := by
  rw [generatedKeys_concat, h, append_nil]

theorem usedKeys_none (h : e.used = none) (evs : List PreKeyEvent) :
    usedKeys (evs ++ [e]) = usedKeys evs := by
  simp [usedKeys, h]

theorem usedKeys_some (h : e.used = some k) (evs : List PreKeyEvent) :
    usedKeys (evs ++ [e]) = usedKeys evs ++ [k] := by
  simp [usedKeys, h]

/-- A call adds what it generated, takes out the key it used, or loads the pool of the file. -/
theorem exec_pool {op : DeviceOp} (h : d.exec op = some d') :
    (d.used op = none ∧ d'.pool = d.pool.addAll (d.generated op)) ∨
    (∃ k id, d.generated op = [] ∧ d.used op = some k ∧ d.pool.lookup id = some k ∧
      d'.pool = d.pool.erase id) ∨
    (op = .restart ∧ d.generated op = [] ∧ d.used op = none ∧
      (d'.pool = ∅ ∨ ∃ state, d.x3dhFile = .content state ∧ d'.pool = state.oneTimePreKeys)) := by
  cases op with
  | initializeX3DH env =>
    cases h
    exact .inl ⟨rfl, initializeX3DH_pool d env⟩
  | refillOneTimePreKeys threshold rand save =>
    cases h
    exact .inl ⟨rfl, refillOneTimePreKeys_pool d threshold rand save⟩
  | initializeRatchetSession sender initialMsg save =>
    cases h
    rcases initializeRatchetSession_pool d sender initialMsg save with
      ⟨hnone, hpool⟩ | ⟨k, hsome, hheld, hpool⟩
    · exact .inl ⟨hnone, hpool⟩
    · exact .inr (.inl ⟨k, _, rfl, hsome, hheld, hpool⟩)
  | restart => exact .inr (.inr ⟨rfl, rfl, rfl, restart_pool h⟩)

theorem lookup_erase {pool : PreKeyPool} {id' : UInt32} (h : (pool.erase id).lookup id' = some k) :
    id' ≠ id ∧ pool.lookup id' = some k := by
  by_cases hid : id' = id
  · rw [hid, Finmap.lookup_erase] at h
    cases h
  · rw [Finmap.lookup_erase_ne hid] at h
    exact ⟨hid, h⟩

/-! ### Single use -/

/-- What ties the pool to the history: its keys were generated and not used, and no key is in it
twice. -/
structure PoolFresh (evs : List PreKeyEvent) (pool : PreKeyPool) : Prop where
  known : ∀ id k, pool.lookup id = some k →
    k.privateKey ∈ (generatedKeys evs).map OneTimePreKeyPrivate.privateKey
  unused : ∀ id k, pool.lookup id = some k →
    k.privateKey ∉ (usedKeys evs).map OneTimePreKeyPrivate.privateKey
  once : ∀ id id' k k', pool.lookup id = some k → pool.lookup id' = some k' →
    k.privateKey = k'.privateKey → id = id'

variable {evs : List PreKeyEvent} {e : PreKeyEvent} {pool pool' : PreKeyPool}

theorem PoolFresh.part (h : PoolFresh evs pool)
    (hpart : ∀ id k, pool'.lookup id = some k → pool.lookup id = some k)
    (hgen : e.generated = []) (hused : e.used = none) : PoolFresh (evs ++ [e]) pool' where
  known := by
    intro id k hk
    rw [generatedKeys_nil hgen]
    exact h.known id k (hpart id k hk)
  unused := by
    intro id k hk
    rw [usedKeys_none hused]
    exact h.unused id k (hpart id k hk)
  once := fun id id' k k' hk hk' => h.once id id' k k' (hpart id k hk) (hpart id' k' hk')

theorem PoolFresh.add (h : PoolFresh evs pool) (hused : e.used = none)
    (hknown : ∀ k ∈ usedKeys evs, k.privateKey ∈
      (generatedKeys evs).map OneTimePreKeyPrivate.privateKey)
    (hfresh : ((generatedKeys (evs ++ [e])).map OneTimePreKeyPrivate.privateKey).Nodup) :
    PoolFresh (evs ++ [e]) (pool.addAll e.generated) := by
  rw [generatedKeys_concat, map_append, nodup_append] at hfresh
  obtain ⟨-, hnew, hapart⟩ := hfresh
  have hmem : ∀ k ∈ e.generated, k.privateKey ∉
      (generatedKeys evs).map privateKey := fun k hk hold =>
    hapart _ hold _ (mem_map_of_mem hk) rfl
  refine ⟨?_, ?_, ?_⟩
  · intro id k hk
    rw [generatedKeys_concat, map_append, mem_append]
    rcases lookup_addAll hk with ⟨hin, -⟩ | hold
    · exact .inr (mem_map_of_mem hin)
    · exact .inl (h.known id k hold)
  · intro id k hk
    rw [usedKeys_none hused]
    rcases lookup_addAll hk with ⟨hin, -⟩ | hold
    · intro hbad
      obtain ⟨k', hk', heq⟩ := mem_map.mp hbad
      exact hmem k hin (heq ▸ hknown k' hk')
    · exact h.unused id k hold
  · intro id id' k k' hk hk' heq
    rcases lookup_addAll hk with ⟨hin, rfl⟩ | hold
    · rcases lookup_addAll hk' with ⟨hin', rfl⟩ | hold'
      · rw [inj_on_of_nodup_map hnew hin hin' heq]
      · exact absurd (heq ▸ h.known id' k' hold') (hmem k hin)
    · rcases lookup_addAll hk' with ⟨hin', rfl⟩ | hold'
      · exact absurd (heq ▸ h.known id k hold) (hmem k' hin')
      · exact h.once id id' k k' hold hold' heq

theorem PoolFresh.use (h : PoolFresh evs pool) (hk : pool.lookup id = some k)
    (hgen : e.generated = []) (hused : e.used = some k) :
    PoolFresh (evs ++ [e]) (pool.erase id) := by
  refine ⟨?_, ?_, ?_⟩
  · intro id' k' hk'
    rw [generatedKeys_nil hgen]
    exact h.known id' k' (lookup_erase hk').2
  · intro id' k' hk'
    obtain ⟨hne, hheld⟩ := lookup_erase hk'
    rw [usedKeys_some hused, map_append, mem_append]
    rintro (hold | hnow)
    · exact h.unused id' k' hheld hold
    · exact hne (h.once id' id k' k hheld hk (mem_singleton.mp hnow))
  · intro id₁ id₂ k₁ k₂ hk₁ hk₂ heq
    exact h.once id₁ id₂ k₁ k₂ (lookup_erase hk₁).2 (lookup_erase hk₂).2 heq

/-- The invariant of runs in which no private key is drawn twice: no key was used twice, every
used key was generated, and the pool is fresh. -/
structure SingleUse (evs : List PreKeyEvent) (d : Device K) : Prop where
  nodup : ((usedKeys evs).map OneTimePreKeyPrivate.privateKey).Nodup
  generated : ∀ k ∈ usedKeys evs, k.privateKey ∈
    (generatedKeys evs).map OneTimePreKeyPrivate.privateKey
  fresh : PoolFresh evs d.pool

theorem SingleUse.init (address : Address) (attached : Bool) :
    SingleUse [] (Device.fresh K address attached) where
  nodup := nodup_nil
  generated := fun _ h => nomatch h
  fresh := ⟨fun _ _ h => (nomatch h), fun _ _ h => (nomatch h), fun _ _ _ _ h => (nomatch h)⟩

theorem SingleUse.quiet (h : SingleUse evs d) (hused : e.used = none)
    (hfresh : PoolFresh (evs ++ [e]) d'.pool) : SingleUse (evs ++ [e]) d' where
  nodup := by
    rw [usedKeys_none hused]
    exact h.nodup
  generated := by
    intro k hk
    rw [usedKeys_none hused] at hk
    rw [generatedKeys_concat, map_append]
    exact mem_append_left _ (h.generated k hk)
  fresh := hfresh

theorem SingleUse.use (h : SingleUse evs d) (hk : d.pool.lookup id = some k)
    (hgen : e.generated = []) (hused : e.used = some k) (hpool : d'.pool = d.pool.erase id) :
    SingleUse (evs ++ [e]) d' where
  nodup := by
    rw [usedKeys_some hused, map_append, map_singleton, nodup_append]
    refine ⟨h.nodup, nodup_singleton _, ?_⟩
    intro x hx y hy hxy
    rw [mem_singleton.mp hy] at hxy
    exact h.fresh.unused id k hk (hxy ▸ hx)
  generated := by
    intro k' hk'
    rw [generatedKeys_nil hgen]
    rw [usedKeys_some hused, mem_append] at hk'
    rcases hk' with hold | hnow
    · exact h.generated k' hold
    · rw [mem_singleton.mp hnow]
      exact h.fresh.known id k hk
  fresh := by
    rw [hpool]
    exact h.fresh.use hk hgen hused

end

/-- Every key in the file is still in memory. -/
def Device.FileHeld (d : Device K) : Prop :=
  ∀ state, d.x3dhFile = .content state →
    ∀ id k, state.oneTimePreKeys.lookup id = some k → d.pool.lookup id = some k

section

variable {evs : List PreKeyEvent} {e : PreKeyEvent} {d d' : Device K}

theorem SingleUse.step (h : SingleUse evs d) (hstep : PreKeyStep d e d')
    (hheld : e.op = .restart → d.FileHeld)
    (hfresh : ((generatedKeys (evs ++ [e])).map OneTimePreKeyPrivate.privateKey).Nodup) :
    SingleUse (evs ++ [e]) d' := by
  obtain ⟨hexec, hgen, hused⟩ := hstep
  rcases exec_pool hexec with ⟨hnone, hpool⟩ | ⟨k, id, hnil, hsome, hk, hpool⟩ |
    ⟨hop, hnil, hnone, hpool⟩
  · have hused' : e.used = none := hused.trans hnone
    refine h.quiet hused' ?_
    rw [hpool, ← hgen]
    exact h.fresh.add hused' h.generated hfresh
  · exact h.use hk (hgen.trans hnil) (hused.trans hsome) hpool
  · have hused' : e.used = none := hused.trans hnone
    refine h.quiet hused' (h.fresh.part ?_ (hgen.trans hnil) hused')
    intro id k hk
    rcases hpool with hempty | ⟨state, hfile, hpool⟩
    · rw [hempty] at hk
      cases hk
    · rw [hpool] at hk
      exact hheld hop state hfile id k hk

end

/-- When no private key is drawn twice and every restart finds the keys of the file in memory, no
key is used for two sessions. -/
theorem one_time_keys_single_use {address : Address} {attached : Bool} {evs : List PreKeyEvent}
    {d : Device K} (hrun : Run PreKeyStep (Device.fresh K address attached) evs d)
    (hdrawn : ((generatedKeys evs).map OneTimePreKeyPrivate.privateKey).Nodup)
    (hheld : Guarded PreKeyStep (Device.fresh K address attached)
      (fun _ d e => e.op = .restart → d.FileHeld) evs) :
    ((usedKeys evs).map OneTimePreKeyPrivate.privateKey).Nodup := by
  have hsafe : ((generatedKeys evs).map privateKey).Nodup →
      SingleUse evs d := by
    refine guarded_invariant (I := fun evs d =>
      ((generatedKeys evs).map privateKey).Nodup → SingleUse evs d)
      (fun _ => SingleUse.init address attached) ?_ hrun hheld
    intro evs e d d' ih hguard hstep hfresh
    have hbefore : ((generatedKeys evs).map privateKey).Nodup := by
      rw [generatedKeys_concat, map_append] at hfresh
      exact hfresh.of_append_left
    exact (ih hbefore).step hstep hguard hfresh
  exact (hsafe hdrawn).nodup

/-! ### Restarts that bring a used key back -/

variable {d : Device K}

theorem saveX3DHState_held (hstorage : d.client.sessionStorage.isSome) :
    (d.saveX3DHState .written).1.FileHeld := by
  rw [saveX3DHState]
  cases hd : d.client.sessionStorage with
  | none => simp [hd] at hstorage
  | some file =>
    intro state hstate id k hk
    cases hstate
    exact hk

theorem initializeX3DH_held {env : InitEnv} (hstorage : d.client.sessionStorage.isSome)
    (hok : (d.initializeX3DH env).2 = .ok ()) (hsave : env.save = .written) :
    (d.initializeX3DH env).1.FileHeld := by
  revert hok
  unfold initializeX3DH
  cases generateIdentityKeyPair K env.randEd env.randDH with
  | error e =>
    intro hok
    cases hok
  | ok identity =>
    simp only
    cases generateSignedPreKey K 1 identity env.randSigned env.nowMilli env.sign with
    | error e =>
      intro hok
      cases hok
    | ok signedPreKey =>
      cases generateOneTimePreKeys K 100 50 env.randPreKeys with
      | error e =>
        intro hok
        cases hok
      | ok keys =>
        intro _
        rw [hsave]
        exact saveX3DHState_held hstorage

/-- `InitializeX3DH` with the private keys `b, 0`, `b, 1`, ... for the one-time prekeys. -/
def sampleInit (b : UInt8) : InitEnv :=
  { randEd := .ok (zero 32, zero 64)
    randDH := .ok (shortKey 1)
    randSigned := .ok (shortKey 2)
    nowMilli := 0
    sign := fun _ _ => zero 64
    randPreKeys := fun i => .ok (ofSlice 32 [b, UInt8.ofNat i])
    nowUnix := 0
    save := .written }

def sampleInitial (sender : UInt8) (keyID : UInt32) : InitialMessage :=
  { senderAddress := ofSlice 20 [sender]
    identityKey := shortKey sender
    ephemeralKey := shortKey sender
    usedSignedPreKeyID := 1
    usedOneTimePreKeyID := keyID
    ciphertext := [] }

def sampleUse (sender : UInt8) (keyID : UInt32) : DeviceOp :=
  .initializeRatchetSession (ofSlice 20 [sender]) (sampleInitial sender keyID) .written

def sampleFresh : Device freeSuite := Device.fresh freeSuite (zero 20) true

def initialized : Device freeSuite := (sampleFresh.initializeX3DH (sampleInit 1)).1

def restarted : Device freeSuite := initialized.restart.getD initialized

theorem event_step {d' : Device K} {op : DeviceOp} (h : d.exec op = some d') :
    PreKeyStep d (d.event op) d' := ⟨h, rfl, rfl⟩

theorem initialized_run : Run PreKeyStep sampleFresh
    [sampleFresh.event (.initializeX3DH (sampleInit 1))] initialized :=
  Run.nil.snoc (event_step rfl)

theorem single_use_restarted :
    let evs := [sampleFresh.event (.initializeX3DH (sampleInit 1)), initialized.event .restart,
      restarted.event (sampleUse 7 100)]
    (usedKeys evs).length = 1 ∧ ((usedKeys evs).map OneTimePreKeyPrivate.privateKey).Nodup := by
  intro evs
  have hrestart : initialized.exec .restart = some restarted := rfl
  have hrun : Run PreKeyStep sampleFresh evs _ :=
    (initialized_run.snoc (event_step hrestart)).snoc (event_step rfl)
  have hheld : initialized.FileHeld := initializeX3DH_held rfl rfl rfl
  refine ⟨by decide +kernel, one_time_keys_single_use hrun (by decide +kernel) ?_⟩
  refine ((Guarded.nil.snoc ?_).snoc ?_).snoc ?_
  · intro s _ hop
    cases hop
  · intro s hs _
    rw [unique preKeyStep_unique hs initialized_run]
    exact hheld
  · intro s _ hop
    cases hop

/-- The key 100 is used, the client restarts, and the key is used for another sender. -/
theorem used_key_comes_back :
    ∃ evs d, Run PreKeyStep sampleFresh evs d ∧
      ((generatedKeys evs).map OneTimePreKeyPrivate.privateKey).Nodup ∧
      ¬ ((usedKeys evs).map OneTimePreKeyPrivate.privateKey).Nodup := by
  have hcheck : (sampleFresh.trace [.initializeX3DH (sampleInit 1), sampleUse 7 100, .restart,
      sampleUse 8 100]).any (fun r =>
        decide (((generatedKeys r.1).map privateKey).Nodup ∧
          ¬ ((usedKeys r.1).map privateKey).Nodup)) = true := by
    decide +kernel
  obtain ⟨⟨evs, d⟩, htrace, hprop⟩ := (any_eq_true _ _).mp hcheck
  exact ⟨evs, d, trace_run htrace, of_decide_eq_true hprop⟩

/-! ## IDs -/

def issuedIDs (evs : List PreKeyEvent) : List UInt32 :=
  (generatedKeys evs).map OneTimePreKeyPrivate.keyID

/-- A refill that generates keys finds the highest ID in `issued` still in the pool, with room for
50 more, and `InitializeX3DH`, which always starts at 100, finds none of its own. -/
def Device.HighestKept (issued : List UInt32) (d : Device K) : DeviceOp → Prop
  | .initializeX3DH _ => ∀ id ∈ issued, id.toNat < 100 ∨ 149 < id.toNat
  | .refillOneTimePreKeys threshold rand _ =>
    d.pool.keys.card < threshold → (∀ i < 50, ∃ key, rand i = .ok key) →
      (∀ id ∈ issued, id.toNat ≤ (maxKeyID d.pool).toNat) ∧ (maxKeyID d.pool).toNat + 50 < 2 ^ 32
  | _ => True

section

variable {evs : List PreKeyEvent} {e : PreKeyEvent} {d d' : Device K}

theorem batch_ids {start : UInt32} {rand : Nat → Except String (ByteArr 32)}
    {keys : List OneTimePreKeyPrivate} (h : generateOneTimePreKeys K start 50 rand = .ok keys)
    (hroom : start.toNat + 49 < 2 ^ 32) :
    (keys.map OneTimePreKeyPrivate.keyID).Nodup ∧
      ∀ id ∈ keys.map OneTimePreKeyPrivate.keyID,
        start.toNat ≤ id.toNat ∧ id.toNat < start.toNat + 50 := by
  have hid : ∀ j < 50, (start + UInt32.ofNat j).toNat = start.toNat + j :=
    fun j hj => toNat_add_ofNat (by omega)
  rw [(generate_spec h).1]
  refine ⟨List.Nodup.map_on ?_ nodup_range, ?_⟩
  · intro i hi j hj heq
    have hnat := congrArg UInt32.toNat heq
    rw [hid i (mem_range.mp hi), hid j (mem_range.mp hj)] at hnat
    omega
  · intro id hmem
    obtain ⟨j, hj, rfl⟩ := mem_map.mp hmem
    rw [hid j (mem_range.mp hj)]
    have := mem_range.mp hj
    omega

/-- Under the condition a call gives out only new IDs, each once. -/
theorem generated_ids {issued : List UInt32} {op : DeviceOp} (h : d.HighestKept issued op) :
    ((d.generated op).map OneTimePreKeyPrivate.keyID).Nodup ∧
      ∀ id ∈ (d.generated op).map OneTimePreKeyPrivate.keyID, id ∉ issued := by
  have hnone : (([] : List OneTimePreKeyPrivate).map keyID).Nodup ∧
      ∀ id ∈ ([] : List OneTimePreKeyPrivate).map keyID, id ∉ issued :=
    ⟨nodup_nil, fun _ h => (nomatch h)⟩
  cases op with
  | initializeX3DH env =>
    simp only [Device.generated, initializedKeys]
    split
    · next hkeys =>
      obtain ⟨hnodup, hrange⟩ := batch_ids hkeys (by decide)
      refine ⟨hnodup, fun id hid hold => ?_⟩
      have hlow := hrange id hid
      rw [show (100 : UInt32).toNat = 100 from rfl] at hlow
      have := h id hold
      omega
    · exact hnone
  | refillOneTimePreKeys threshold rand save =>
    simp only [Device.generated, refilledKeys]
    split
    · exact hnone
    · next hlow =>
      cases hkeys : generateOneTimePreKeys K (maxKeyID d.pool + 1) 50 rand with
      | error e => exact hnone
      | ok keys =>
        have hrand : ∀ i < 50, ∃ key, rand i = .ok key := by
          intro i hi
          have hmem : rand i ∈ (range 50).map rand := mem_map_of_mem (mem_range.mpr hi)
          rw [← (generate_spec hkeys).2.1] at hmem
          obtain ⟨k, -, hk⟩ := mem_map.mp hmem
          exact ⟨_, hk.symm⟩
        obtain ⟨hmax, hroom⟩ := h (by omega) hrand
        have hstart : (maxKeyID d.pool + 1).toNat = (maxKeyID d.pool).toNat + 1 := by
          rw [UInt32.toNat_add, show (1 : UInt32).toNat = 1 from rfl]
          omega
        obtain ⟨hnodup, hrange⟩ := batch_ids hkeys (by omega)
        refine ⟨hnodup, fun id hid hold => ?_⟩
        have := hrange id hid
        have := hmax id hold
        omega
  | initializeRatchetSession sender initialMsg save => exact hnone
  | restart => exact hnone

/-- The invariant: no ID was given out twice, and every key of the pool was given out under its
ID. -/
structure IdsOnce (evs : List PreKeyEvent) (d : Device K) : Prop where
  nodup : (issuedIDs evs).Nodup
  known : ∀ id k, d.pool.lookup id = some k → k ∈ generatedKeys evs ∧ k.keyID = id

theorem IdsOnce.step (h : IdsOnce evs d) (hstep : PreKeyStep d e d') (hop : e.op ≠ .restart)
    (hguard : d.HighestKept (issuedIDs evs) e.op) : IdsOnce (evs ++ [e]) d' := by
  obtain ⟨hexec, hgen, -⟩ := hstep
  obtain ⟨hnodup, hnew⟩ := generated_ids hguard
  constructor
  · rw [issuedIDs, generatedKeys_concat, map_append, nodup_append, hgen]
    exact ⟨h.nodup, hnodup, fun id hold id' hid heq => hnew id' hid (heq ▸ hold)⟩
  · intro id k hk
    rw [generatedKeys_concat, mem_append, hgen]
    rcases exec_pool hexec with ⟨-, hpool⟩ | ⟨k', id', -, -, -, hpool⟩ | ⟨hrestart, -⟩
    · rw [hpool] at hk
      rcases lookup_addAll hk with ⟨hin, hid⟩ | hold
      · exact ⟨.inr hin, hid⟩
      · exact ⟨.inl (h.known id k hold).1, (h.known id k hold).2⟩
    · rw [hpool] at hk
      have hold := (lookup_erase hk).2
      exact ⟨.inl (h.known id k hold).1, (h.known id k hold).2⟩
    · exact absurd hrestart hop

theorem ids_once {address : Address} {attached : Bool}
    (hrun : Run PreKeyStep (Device.fresh K address attached) evs d)
    (hguard : Guarded PreKeyStep (Device.fresh K address attached)
      (fun pre d e => e.op ≠ .restart ∧ d.HighestKept (issuedIDs pre) e.op) evs) :
    IdsOnce evs d := by
  have hinit : IdsOnce [] (Device.fresh K address attached) :=
    ⟨nodup_nil, fun _ _ h => (nomatch h)⟩
  refine guarded_invariant hinit ?_ hrun hguard
  intro evs e d d' ih hcond hstep
  exact ih.step hstep hcond.1 hcond.2

end

/-- Without restarts, and when calls generate behind every ID given out, an ID never names another
key later. -/
theorem key_ids_never_reused {address : Address} {attached : Bool} {pre post : List PreKeyEvent}
    {d₁ d₂ : Device K} (hpre : Run PreKeyStep (Device.fresh K address attached) pre d₁)
    (hrun : Run PreKeyStep (Device.fresh K address attached) (pre ++ post) d₂)
    (hguard : Guarded PreKeyStep (Device.fresh K address attached)
      (fun pre d e => e.op ≠ .restart ∧ d.HighestKept (issuedIDs pre) e.op) (pre ++ post))
    {id : UInt32} {k₁ k₂ : OneTimePreKeyPrivate} (hk₁ : d₁.pool.lookup id = some k₁)
    (hk₂ : d₂.pool.lookup id = some k₂) : k₂ = k₁ := by
  obtain ⟨hmem₁, hid₁⟩ := (ids_once hpre hguard.init).known id k₁ hk₁
  obtain ⟨hmem₂, hid₂⟩ := (ids_once hrun hguard).known id k₂ hk₂
  have hmem₁' : k₁ ∈ generatedKeys (pre ++ post) := by
    rw [generatedKeys, flatMap_append]
    exact mem_append_left _ hmem₁
  exact inj_on_of_nodup_map (ids_once hrun hguard).nodup hmem₂ hmem₁' (hid₂.trans hid₁.symm)

/-! ### Refills that give an ID out again -/

def sampleRefill (threshold : Int) (b : UInt8) : DeviceOp :=
  .refillOneTimePreKeys threshold (fun i => .ok (ofSlice 32 [b, UInt8.ofNat i])) .written

/-- The device after a refill that finds all keys still there. -/
def refilled : Device freeSuite := (initialized.exec (sampleRefill 60 2)).getD initialized

theorem key_ids_never_reused_refilled :
    ∃ k, initialized.pool.lookup 149 = some k ∧
      ∀ k', refilled.pool.lookup 149 = some k' → k' = k := by
  have hrefill : initialized.exec (sampleRefill 60 2) = some refilled := rfl
  have hrun := initialized_run.snoc (event_step hrefill)
  have hsome : (initialized.pool.lookup 149).isSome := by decide +kernel
  obtain ⟨k, hk⟩ := isSome_iff_exists.mp hsome
  refine ⟨k, hk, fun k' hk' => key_ids_never_reused initialized_run hrun ?_ hk hk'⟩
  refine (Guarded.nil.snoc ?_).snoc ?_
  · intro s _
    exact ⟨fun hop => (nomatch hop), fun id hid => (nomatch hid)⟩
  · intro s hs
    rw [unique preKeyStep_unique hs initialized_run]
    have hmax : (issuedIDs [sampleFresh.event (.initializeX3DH (sampleInit 1))]).all
        (fun id => decide (id.toNat ≤ (maxKeyID initialized.pool).toNat)) = true := by
      decide +kernel
    refine ⟨fun hop => (nomatch hop), fun _ _ => ⟨fun id hid => ?_, by decide +kernel⟩⟩
    exact of_decide_eq_true (all_eq_true.mp hmax id hid)

def highestUsed : Device freeSuite := (initialized.exec (sampleUse 7 149)).getD initialized

def refilledAgain : Device freeSuite := (highestUsed.exec (sampleRefill 50 2)).getD highestUsed

/-- The key 149 is used, and the refill starts at 149 again. -/
theorem key_id_given_out_again :
    ∃ pre post d₁ d₂ k₁ k₂, Run PreKeyStep sampleFresh pre d₁ ∧
      Run PreKeyStep sampleFresh (pre ++ post) d₂ ∧
      (∀ e ∈ pre ++ post, e.op ≠ .restart) ∧
      d₁.pool.lookup 149 = some k₁ ∧ d₂.pool.lookup 149 = some k₂ ∧
      k₁.privateKey ≠ k₂.privateKey := by
  have hrun := (initialized_run.snoc (event_step (show initialized.exec (sampleUse 7 149) =
    some highestUsed from rfl))).snoc (event_step (show highestUsed.exec (sampleRefill 50 2) =
    some refilledAgain from rfl))
  have hkeys : (initialized.pool.lookup 149).any (fun k₁ => (refilledAgain.pool.lookup 149).any
      fun k₂ => decide (k₁.privateKey ≠ k₂.privateKey)) = true := by decide +kernel
  obtain ⟨k₁, hk₁, hkeys⟩ := (any_eq_true _ _).mp hkeys
  obtain ⟨k₂, hk₂, hne⟩ := (any_eq_true _ _).mp hkeys
  refine ⟨_, [_, _], _, _, k₁, k₂, initialized_run, hrun, ?_, hk₁, hk₂, of_decide_eq_true hne⟩
  intro e he hop
  simp only [nil_append, cons_append, mem_cons, not_mem_nil, or_false] at he
  rcases he with rfl | rfl | rfl <;> cases hop

end Zentalk
