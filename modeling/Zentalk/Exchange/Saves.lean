import Zentalk.Lib.Run
import Zentalk.Network.Establish

/-!
# Saves of several sessions at a time

`SaveRatchetSession` reads and writes back the sessions of all peers, without a lock
(`saves_kept`).
-/

namespace Zentalk

open Wire Runs Function Finmap

variable {K : Suite}

def SessionFile.saveAllRatchetSessions (file : SessionFile K) (sessions : SessionMap K) :
    WriteOutcome → SessionFile K × Except String Unit
  | .written => (.sessions sessions, .ok ())
  | .notCreated e => (file, .error ("failed to create ratchet sessions file: " ++ e))
  | .cutOff e => (.corrupt, .error ("failed to encode ratchet sessions: " ++ e))

/-- A call that has read the file and not written it yet. -/
structure PendingSave (K : Suite) where
  loaded : SessionMap K
  addr : Address

/-- The file, and the calls that are under way. -/
structure SaveState (K : Suite) where
  file : SessionFile K
  pending : ℕ → Option (PendingSave K)

/-- What the calls do. The session is a pointer, so it is written as it is at the time of the
write. -/
inductive SaveEvent (K : Suite)
  | read (call : ℕ) (addr : Address)
  | write (call : ℕ) (addr : Address) (session : RatchetState K) (outcome : WriteOutcome)

/-- One step of a call. A call that cannot read the file returns, and is no step. -/
inductive SaveStep : SaveState K → SaveEvent K → SaveState K → Prop
  | read {s : SaveState K} {call addr loaded} :
      s.pending call = none → s.file.load = .ok loaded →
      SaveStep s (.read call addr)
        { s with pending := update s.pending call (some ⟨loaded, addr⟩) }
  | write {s : SaveState K} {call addr loaded session outcome} :
      s.pending call = some ⟨loaded, addr⟩ →
      SaveStep s (.write call addr session outcome)
        ⟨(s.file.saveAllRatchetSessions (loaded.insert addr session) outcome).1,
          update s.pending call none⟩

def SaveEvent.saved (addr : Address) : SaveEvent K → Option (RatchetState K)
  | write _ addr' session .written => if addr' = addr then some session else none
  | _ => none

def lastSave (log : List (SaveEvent K)) (addr : Address) : Option (RatchetState K) :=
  log.reverse.findSome? (SaveEvent.saved addr)

/-- The file is written in one piece, and no call for another peer reads it before and writes it
later. -/
def SaveState.Alone (s : SaveState K) : SaveEvent K → Prop
  | .read _ _ => True
  | .write call addr _ outcome =>
    (∀ e, outcome ≠ .cutOff e) ∧
      ∀ other save, other ≠ call → s.pending other = some save → save.addr = addr

section

variable {file : SessionFile K} {before loaded m : SessionMap K} {s s' : SaveState K}
  {log : List (SaveEvent K)} {e : SaveEvent K} {call : ℕ} {addr : Address}
  {session : RatchetState K}

theorem save_run (hcall : s.pending call = none) (hload : s.file.load = .ok loaded)
    (outcome : WriteOutcome) :
    Run SaveStep s [.read call addr, .write call addr session outcome]
      { s with file := (s.file.saveRatchetSession addr session outcome).1 } := by
  have hwrite : (s.file.saveRatchetSession addr session outcome).1 =
      (s.file.saveAllRatchetSessions (loaded.insert addr session) outcome).1 := by
    rw [SessionFile.saveRatchetSession, hload]
    cases outcome with
    | written => rfl
    | notCreated e => rfl
    | cutOff e => rfl
  have hpending : update (update s.pending call (some ⟨loaded, addr⟩)) call none =
      s.pending := by
    rw [update_idem, ← hcall, update_eq_self]
  have hread : SaveStep s (.read call addr) _ := .read hcall hload
  have hstep : SaveStep { s with pending := update s.pending call (some ⟨loaded, addr⟩) }
      (.write call addr session outcome) _ := .write (update_self call _ s.pending)
  have hrun := (Run.nil.snoc hread).snoc hstep
  rw [hpending, ← hwrite] at hrun
  exact hrun

theorem alone_write (h : ∀ other, other ≠ call → s.pending other = none) :
    s.Alone (.write call addr session .written) := by
  refine ⟨fun _ => WriteOutcome.noConfusion, fun other save hne hother => ?_⟩
  rw [h other hne] at hother
  cases hother

theorem lastSave_snoc : lastSave (log ++ [e]) addr = (e.saved addr).or (lastSave log addr) := by
  rw [lastSave, List.reverse_append, List.reverse_singleton, List.singleton_append,
    List.findSome?_cons]
  cases e.saved addr with
  | none => rfl
  | some session => rfl

/-- The file has all saves, and every call that is under way would write back what is in the file
for the other peers. -/
structure SavesKept (before : SessionMap K) (log : List (SaveEvent K)) (s : SaveState K) :
    Prop where
  file : ∃ m, s.file.load = .ok m ∧
    ∀ addr, m.lookup addr = (lastSave log addr).or (before.lookup addr)
  pending : ∀ call save m, s.pending call = some save → s.file.load = .ok m →
    ∀ addr, addr ≠ save.addr → save.loaded.lookup addr = m.lookup addr

theorem savesKept_step (h : SavesKept before log s) (halone : s.Alone e) (hstep : SaveStep s e s') :
    SavesKept before (log ++ [e]) s' := by
  obtain ⟨m, hm, hsaves⟩ := h.file
  cases hstep with
  | @read call addr loaded hcall hload =>
    refine ⟨⟨m, hm, fun addr' => ?_⟩, fun other save m' hother hm' addr' hne => ?_⟩
    · rw [lastSave_snoc]
      exact hsaves addr'
    · dsimp only at hother hm'
      rcases eq_or_ne other call with rfl | hne'
      · rw [update_self] at hother
        cases hother
        rw [Except.ok.inj (hload.symm.trans hm')]
      · rw [update_of_ne hne'] at hother
        exact h.pending other save m' hother hm' addr' hne
  | @write call addr loaded session outcome hcall =>
    obtain ⟨hwhole, hsame⟩ := halone
    -- The other calls that are under way save the same peer.
    have hpending : ∀ other save, update s.pending call none other = some save →
        save.addr = addr ∧ ∀ addr', addr' ≠ addr → save.loaded.lookup addr' = m.lookup addr' := by
      intro other save hother
      rcases eq_or_ne other call with rfl | hne
      · rw [update_self] at hother
        cases hother
      · rw [update_of_ne hne] at hother
        have haddr := hsame other save hne hother
        exact ⟨haddr, haddr ▸ h.pending other save m hother hm⟩
    match outcome with
    | .cutOff err => exact absurd rfl (hwhole err)
    | .notCreated err =>
      refine ⟨⟨m, hm, fun addr' => ?_⟩, fun other save m' hother hm' addr' hne => ?_⟩
      · rw [lastSave_snoc]
        exact hsaves addr'
      · obtain ⟨haddr, hloaded⟩ := hpending other save hother
        rw [hloaded addr' (haddr ▸ hne), Except.ok.inj (hm.symm.trans hm')]
    | .written =>
      have hnew : ∀ addr', addr' ≠ addr →
          (loaded.insert addr session).lookup addr' = m.lookup addr' := by
        intro addr' hne
        rw [lookup_insert_of_ne _ hne]
        exact h.pending call _ m hcall hm addr' hne
      refine ⟨⟨_, rfl, fun addr' => ?_⟩, fun other save m' hother hm' addr' hne => ?_⟩
      · rw [lastSave_snoc, SaveEvent.saved]
        rcases eq_or_ne addr addr' with rfl | hne
        · rw [lookup_insert, if_pos rfl]
          rfl
        · rw [hnew addr' hne.symm, if_neg hne]
          exact hsaves addr'
      · obtain ⟨haddr, hloaded⟩ := hpending other save hother
        rw [haddr] at hne
        rw [← Except.ok.inj hm', hloaded addr' hne, hnew addr' hne]

/-- When no save falls between the read and the write of another peer's, the file has the last save
of every peer. -/
theorem saves_kept (hload : file.load = .ok before)
    (hrun : Run SaveStep ⟨file, fun _ => none⟩ log s)
    (halone : Guarded SaveStep ⟨file, fun _ => none⟩ (fun _ s e => s.Alone e) log) :
    ∃ m, s.file.load = .ok m ∧
      ∀ addr, m.lookup addr = (lastSave log addr).or (before.lookup addr) := by
  have hinit : SavesKept before [] (⟨file, fun _ => none⟩ : SaveState K) := by
    refine ⟨⟨before, hload, fun _ => rfl⟩, fun call save m hcall => ?_⟩
    cases hcall
  exact (hrun.guarded_invariant hinit (fun _ _ _ _ h halone hstep =>
    savesKept_step h halone hstep) halone).file

end

/-! ## Two peers -/

/-- One save after the other. -/
theorem saves_kept_two :
    ∃ s, Run SaveStep (⟨.missing, fun _ => none⟩ : SaveState freeSuite)
        [.read 0 (fill 20 1), .write 0 (fill 20 1) sampleResponder .written,
          .read 1 (fill 20 2), .write 1 (fill 20 2) sampleResponder .written] s ∧
      ∃ m, s.file.load = .ok m ∧ m.lookup (fill 20 1) = some sampleResponder ∧
        m.lookup (fill 20 2) = some sampleResponder := by
  have hunique : ∀ (s : SaveState freeSuite) e s₁ s₂, SaveStep s e s₁ → SaveStep s e s₂ →
      s₁ = s₂ := by
    rintro s e s₁ s₂ (⟨-, h⟩ | h) (⟨-, h'⟩ | h') <;> cases h.symm.trans h' <;> rfl
  let start : SaveState freeSuite := ⟨.missing, fun _ => none⟩
  have hread : Run SaveStep start ([] ++ [.read 0 (fill 20 1)]) _ := Run.nil.snoc (.read rfl rfl)
  have hagain : Run SaveStep start
      (_ ++ [.write 0 (fill 20 1) sampleResponder .written] ++ [.read 1 (fill 20 2)]) _ :=
    (hread.snoc (.write rfl)).snoc (.read rfl rfl)
  have hrun : Run SaveStep start (_ ++ [.write 1 (fill 20 2) sampleResponder .written]) _ :=
    hagain.snoc (.write rfl)
  have hfirst : Guarded SaveStep start (fun _ s e => s.Alone e)
      (_ ++ [.write 0 (fill 20 1) sampleResponder .written]) :=
    (Guarded.nil.snoc fun _ _ => trivial).snoc_of_run hunique hread
      (alone_write fun other hne => update_of_ne hne _ _)
  have hsecond : Guarded SaveStep start (fun _ s e => s.Alone e) (_ ++ [.read 1 (fill 20 2)]) :=
    hfirst.snoc fun _ _ => trivial
  have hidle (read again : Option (PendingSave freeSuite)) (other : ℕ) (hne : other ≠ 1) :
      update (update (update start.pending 0 read) 0 none) 1 again other = none := by
    rw [update_of_ne hne, update_idem]
    exact congrFun (update_eq_self 0 start.pending) other
  obtain ⟨m, hm, hsaved⟩ := saves_kept rfl hrun
    (hsecond.snoc_of_run hunique hagain (alone_write (hidle _ _)))
  refine ⟨_, hrun, m, hm, ?_, ?_⟩
  · rw [hsaved]
    rfl
  · rw [hsaved]
    rfl

/-- Both saves read the file first, and one of them is lost. -/
theorem save_lost :
    ∃ s, Run SaveStep (⟨.missing, fun _ => none⟩ : SaveState freeSuite)
        [.read 0 (fill 20 1), .read 1 (fill 20 2), .write 0 (fill 20 1) sampleResponder .written,
          .write 1 (fill 20 2) sampleResponder .written] s ∧
      (∀ call, s.pending call = none) ∧
      ∃ m, s.file.load = .ok m ∧ m.lookup (fill 20 1) = none := by
  refine ⟨_, Run.cons (.read rfl rfl) (Run.cons (.read rfl rfl)
    (Run.cons (.write rfl) (Run.cons (.write rfl) .nil))), fun call => ?_, _, rfl, ?_⟩
  · rcases eq_or_ne call 1 with rfl | hsecond
    · rfl
    · rcases eq_or_ne call 0 with rfl | hfirst
      · rfl
      · simp only [update_of_ne hsecond, update_of_ne hfirst]
  · rw [lookup_insert_of_ne _ (by decide)]
    exact lookup_empty _

end Zentalk
