import Zentalk.Mesh.Backup

/-!
# Restoring a backup

`RestoreFromBackup` removes the target and then copies the backup there: all of it
(`restore_returns`), or a part if the copy fails (`restore_failed`).
-/

namespace Zentalk.Mesh

open Wire Files List Option Bool

/-- `os.Stat`. -/
def stat (faults : Faults) (disk : Disk) (path : Path) : Except FileError Unit :=
  match faults.stat path with
  | some err => .error (.other err)
  | none =>
    match disk.node path with
    | some _ => .ok ()
    | none =>
      if path.inits.all fun p => (disk.node p).all Node.isDir then .error (.notExist path)
      else .error (.notDirectory path)

/-- `os.IsNotExist` of a result. -/
def isNotExist : Except FileError Unit → Bool
  | .error (.notExist _) => true
  | _ => false

/-- `os.RemoveAll`. -/
def removeAll (faults : Faults) (disk : Disk) (path : Path) : Disk × Except FileError Unit :=
  match faults.removeAll path with
  | some (removed, err) =>
    (disk.prune fun p => decide (path <+: p) && removed p, .error (.other err))
  | none => (disk.prune fun p => decide (p = path), .ok ())

/-- `RestoreFromBackup`. Errors of `os.Stat` other than that there is no backup are ignored. -/
def restoreFromBackup (faults : Faults) (depth : ℕ) (disk : Disk) (backupDir targetDir : Path) :
    Option (Disk × Except (Bytes × (Path ⊕ FileError)) Unit) :=
  if isNotExist (stat faults disk backupDir) then
    some (disk, .error (asciiBytes "backup directory does not exist: ", .inl backupDir))
  else
    match removeAll faults disk targetDir with
    | (disk, .error err) =>
      some (disk, .error (asciiBytes "failed to remove current data directory: ", .inr err))
    | (disk, .ok ()) =>
      match copyDir faults depth disk backupDir targetDir with
      | none => none
      | some (disk, .error err) =>
        some (disk, .error (asciiBytes "failed to restore from backup: ", .inr err))
      | some (disk, .ok ()) => some (disk, .ok ())

section

open FileTree

variable {faults : Faults} {depth : ℕ} {disk disk' t u : Disk} {src dst q : Path} {name : Bytes}
  {x : Node Bytes} {out : Disk × Except FileError Unit}

/-! ## What a copy that fails has written -/

/-- A node at the path `q` of an unfinished copy: a directory of the source, or a file with the
first bytes of a file of it. The destination itself is made in any case. -/
def PartOf (t : Disk) (src q : Path) (x : Node Bytes) : Prop :=
  q = [] ∧ x = .dir ∨ backupOf t src q = some .dir ∧ x = .dir ∨
    ∃ data k, backupOf t src q = some (.file data) ∧ x = .file (data.take k)

/-- All nodes at the destination are of this kind. -/
def HoldsPart (t u : Disk) (src dst : Path) : Prop :=
  ∀ q x, u.node (dst ++ q) = some x → PartOf t src q x

theorem PartOf.below (hkept : t.isDir (src ++ [name]) = true → skipped name = false)
    (h : PartOf t src (name :: q) x) : PartOf t (src ++ [name]) q x := by
  rcases h with ⟨hq, -⟩ | ⟨hdir, hx⟩ | ⟨data, k, hfile, hx⟩
  · cases hq
  · exact .inr (.inl ⟨(backupOf_cons hkept).mp hdir, hx⟩)
  · exact .inr (.inr ⟨data, k, (backupOf_cons hkept).mp hfile, hx⟩)

theorem PartOf.above (hdir : t.node (src ++ [name]) = some .dir) (hname : skipped name = false)
    (h : PartOf t (src ++ [name]) q x) : PartOf t src (name :: q) x := by
  have hkept : t.isDir (src ++ [name]) = true → skipped name = false := fun _ => hname
  rcases h with ⟨rfl, hx⟩ | ⟨hdir, hx⟩ | ⟨data, k, hfile, hx⟩
  · exact .inr (.inl ⟨backupOf_some.mpr ⟨kept_cons.mpr ⟨hkept, rfl⟩, hdir⟩, hx⟩)
  · exact .inr (.inl ⟨(backupOf_cons hkept).mpr hdir, hx⟩)
  · exact .inr (.inr ⟨data, k, (backupOf_cons hkept).mpr hfile, hx⟩)

theorem node_copyFile (p : Path) :
    (copyFile faults u src dst).1.node p = u.node p ∨
      p = dst ∧ ∃ data k, u.node src = some (.file data) ∧
        (copyFile faults u src dst).1.node p = some (.file (data.take k)) := by
  rw [copyFile]
  split
  · exact .inl rfl
  · next data hread =>
    have hnode : u.node src = some (.file data) := by
      rw [readFile] at hread
      split at hread
      · cases hread
      · split at hread
        · cases hread
        · cases hread
        · next hnode =>
          cases hread
          exact hnode
    -- Whatever is written, all other nodes stay.
    have hwrite : ∀ k u', FileTree.writeFile u dst (data.take k) = some u' →
        u'.node p = u.node p ∨ p = dst ∧ ∃ data k, u.node src = some (.file data) ∧
          u'.node p = some (.file (data.take k)) := by
      intro k u' hu'
      rw [node_writeFile hu']
      split
      · next heq => exact .inr ⟨heq, data, k, hnode, rfl⟩
      · exact .inl rfl
    rw [writeFile]
    split
    · exact .inl rfl
    · next written err _ =>
      cases hwritten : FileTree.writeFile u dst (data.take written) with
      | none => exact .inl rfl
      | some u' => exact hwrite written u' hwritten
    · split
      · exact .inl rfl
      · next u' hwritten =>
        refine hwrite data.length u' ?_
        rw [take_length, hwritten]

/-- What is shown of the nested calls. -/
def CopiesPart (t : Disk) (copy : Disk → Path → Path → Option (Disk × Except FileError Unit)) :
    Prop :=
  ∀ u src dst out, Agrees t u src → Apart t src dst → Ready u dst → HoldsPart t u src dst →
    copy u src dst = some out → HoldsPart t out.1 src dst

variable {copy : Disk → Path → Path → Option (Disk × Except FileError Unit)}

section

variable (hcopy : CopiesPart t copy) (hgrows : GrowsOnly copy) (hagrees : Agrees t u src)
  (hapart : Apart t src dst) (hready : Ready u dst) (hdir : u.node dst = some .dir)

include hcopy hgrows hagrees hapart hready hdir

theorem copyEntry_part {entry : DirEntry} (hisDir : entry.isDir = t.isDir (src ++ [entry.name]))
    (hpart : HoldsPart t u src dst) (h : copyEntry faults copy src dst entry u = some out) :
    HoldsPart t out.1 src dst := by
  intro q x hx
  rcases Classical.em (dst ++ [entry.name] <+: dst ++ q) with hbelow | hother
  · -- The place of the entry, where a file is written or a nested call is made.
    obtain ⟨q, rfl⟩ : ∃ q', q = entry.name :: q' := by
      obtain ⟨r, hr⟩ := hbelow
      rw [append_assoc] at hr
      exact ⟨r, (append_cancel_left hr).symm⟩
    rw [copyEntry] at h
    split at h
    · next hentry =>
      split at h
      · cases h
        exact hpart _ x hx
      · next hname =>
        rw [not_eq_true] at hname
        have hkept : t.isDir (src ++ [entry.name]) = true → skipped entry.name = false :=
          fun _ => hname
        have hnested : HoldsPart t u (src ++ [entry.name]) (dst ++ [entry.name]) := by
          intro q' x' hx'
          rw [← append_cons] at hx'
          exact (hpart _ x' hx').below hkept
        rw [append_cons] at hx
        rw [hisDir] at hentry
        exact (hcopy _ _ _ _ (hagrees.below hkept) (hapart.below hkept) (hready.below hdir)
          hnested h _ x hx).above (isDir_iff.mp hentry) hname
    · next hentry =>
      cases h
      have hfile : t.isDir (src ++ [entry.name]) = false := by
        rw [← hisDir, eq_false_iff]
        exact hentry
      have hkept := unskipped_of_file hfile
      rcases node_copyFile (dst ++ entry.name :: q) with hsame | ⟨heq, data, k, hdata, hwritten⟩
      · rw [hsame] at hx
        exact hpart _ x hx
      · obtain rfl : q = [] := by simpa using heq
        rw [hagrees.node [entry.name] (kept_cons.mpr ⟨hkept, rfl⟩)] at hdata
        rw [hwritten] at hx
        exact .inr (.inr ⟨data, k, backupOf_some.mpr ⟨kept_cons.mpr ⟨hkept, rfl⟩, hdata⟩,
          (some.inj hx).symm⟩)
  · rw [(copyEntry_grown hgrows (hready.below hdir) h).frame _ hother] at hx
    exact hpart q x hx

theorem copyEntries_part {entries : List DirEntry}
    (hisDir : ∀ entry ∈ entries, entry.isDir = t.isDir (src ++ [entry.name]))
    (hpart : HoldsPart t u src dst) (h : copyEntries faults copy src dst entries u = some out) :
    HoldsPart t out.1 src dst := by
  induction entries generalizing u with
  | nil =>
    cases h
    exact hpart
  | cons entry rest ih =>
    have hfirst := hisDir entry mem_cons_self
    rw [copyEntries] at h
    split at h
    · cases h
    · next u₁ err hentry =>
      cases h
      exact copyEntry_part hcopy hgrows hagrees hapart hready hdir hfirst hpart hentry
    · next u₁ hentry =>
      have hgrown := (copyEntry_grown hgrows (hready.below hdir) hentry).below
      exact ih (hagrees.grown hapart hgrown) (hready.grown hgrown) (hgrown.dir hdir)
        (fun entry' hmem => hisDir entry' (mem_cons_of_mem _ hmem))
        (copyEntry_part hcopy hgrows hagrees hapart hready hdir hfirst hpart hentry) h

end

theorem mkdirAll_part (hpart : HoldsPart t u src dst) :
    HoldsPart t (mkdirAll faults u dst).1 src dst := by
  -- The directories that are made are above the destination or the destination itself.
  have hmake : ∀ p u', p <+: dst → FileTree.mkdirAll u p = some u' → HoldsPart t u' src dst := by
    intro p u' hp hu' q x hx
    rw [node_mkdirAll hu'] at hx
    split at hx
    · next hq =>
      have hnil : q = [] := by
        have hlength := (hq.trans hp).length_le
        rw [length_append] at hlength
        exact eq_nil_of_length_eq_zero (by omega)
      exact .inl ⟨hnil, (some.inj hx).symm⟩
    · exact hpart q x hx
  rw [mkdirAll]
  split
  · next made err _ =>
    cases hmade : FileTree.mkdirAll u (dst.take made) with
    | none => exact hpart
    | some u' => exact hmake _ u' ( take_prefix made dst) hmade
  · split
    · exact hpart
    · next u' hmade => exact hmake _ u' (prefix_refl dst) hmade

theorem copyDir_part : CopiesPart t (copyDir faults depth) := by
  induction depth with
  | zero =>
    intro u src dst out _ _ _ _ h
    cases h
  | succ depth ih =>
    intro u src dst out hagrees hapart hready hpart h
    have hgrown : Grown dst u (mkdirAll faults u dst).1 := mkdirAll_grown hready
    have hmkdir : HoldsPart t (mkdirAll faults u dst).1 src dst := mkdirAll_part hpart
    rw [copyDir] at h
    split at h
    · next u₁ err hmade =>
      cases h
      rw [hmade] at hmkdir
      exact hmkdir
    · next u₁ hmade =>
      rw [hmade] at hgrown hmkdir
      split at h
      · cases h
        exact hmkdir
      · next entries hread =>
        have hagrees₁ := hagrees.grown hapart hgrown
        refine copyEntries_part ih copyDir_grown hagrees₁ hapart (hready.grown hgrown)
          (mkdirAll_dir hmade (prefix_refl dst)) (fun entry hmem => ?_) hmkdir h
        rw [(((readDir_ok hread).2 entry).mp hmem).2, (hagrees₁.child entry.name).2]

/-! ## A restore that fails -/

theorem kept_congr (hsame : ∀ q, u.node (src ++ q) = t.node (src ++ q)) (q : Path) :
    kept u src q = kept t src q := by
  induction q generalizing src with
  | nil => rfl
  | cons name q ih =>
    rw [kept, kept, FileTree.isDir, hsame [name], ih]
    · rfl
    · intro q'
      rw [← append_cons]
      exact hsame (name :: q')

theorem ready_prune (htarget : disk.node dst ≠ none) :
    Ready (disk.prune fun p => decide (p = dst)) dst := by
  intro p habove hne
  rw [node_prune_of_live, dir_above htarget habove hne]
  rintro r hr
  refine decide_eq_false ?_
  rintro rfl
  exact hne (habove.eq_of_length_le hr.length_le)

theorem node_prune_outside {dead : Path → Bool} (hdead : ∀ p, dead p = true → dst <+: p) {p : Path}
    (hp : ¬ dst <+: p) : (disk.prune dead).node p = disk.node p := by
  refine node_prune_of_live fun r hr => ?_
  rw [← not_eq_true]
  exact fun h => hp ((hdead r h).trans hr)

theorem copyDir_gone {err : FileError} (hinside : dst <+: src)
    (hgone : ∀ q, u.node (dst ++ q) = none)
    (h : copyDir faults depth u src dst = some (disk', .error err)) :
    HoldsPart t disk' src dst := by
  have hmkdir : ∀ t, HoldsPart t (mkdirAll faults u dst).1 src dst := by
    refine fun t => mkdirAll_part fun q x hx => ?_
    rw [hgone q] at hx
    cases hx
  cases depth with
  | zero => cases h
  | succ depth =>
    rw [copyDir] at h
    split at h
    · next u₁ _ hmade =>
      cases h
      rw [hmade] at hmkdir
      exact hmkdir t
    · next u₁ hmade =>
      rw [hmade] at hmkdir
      split at h
      · cases h
        exact hmkdir t
      · next entries hread =>
        have hempty : entries = [] := by
          refine eq_nil_iff_forall_not_mem.mpr fun entry hmem => ?_
          obtain ⟨r, rfl⟩ := hinside
          have hnothing : ∀ q y, backupOf u (dst ++ r) q ≠ some y := by
            intro q y hy
            have hnode := (backupOf_some.mp hy).2
            rw [append_assoc, hgone] at hnode
            cases hnode
          obtain ⟨x, hx⟩ := ne_none_iff_exists'.mp (((readDir_ok hread).2 entry).mp hmem).1
          rw [append_assoc] at hx
          rcases hmkdir u _ x hx with ⟨hnil, -⟩ | ⟨hdir, -⟩ | ⟨data, k, hfile, -⟩
          · exact append_ne_nil_of_right_ne_nil r (cons_ne_nil _ _) hnil
          · exact hnothing _ _ hdir
          · exact hnothing _ _ hfile
        rw [hempty] at h
        cases h

theorem copyDir_removed {err : FileError} (htarget : disk.node dst ≠ none)
    (habove : src <+: dst → src = dst)
    (h : copyDir faults depth (disk.prune fun p => decide (p = dst)) src dst =
      some (disk', .error err)) : HoldsPart disk disk' src dst := by
  have hready := ready_prune htarget
  have hgone : ∀ q, (disk.prune fun p => decide (p = dst)).node (dst ++ q) = none :=
    fun q => node_prune_of_dead (prefix_append dst q) (decide_eq_true rfl)
  rcases Classical.em (dst <+: src) with hinside | houtside
  · exact copyDir_gone hinside hgone h
  · have hneither : ∀ q r, src ++ q ≠ dst ++ r := by
      intro q r heq
      rcases prefix_or_prefix_of_prefix (prefix_append src q)
        (heq ▸ prefix_append dst r) with hle | hle
      · exact houtside (habove hle ▸ prefix_refl _)
      · exact houtside hle
    have hsame : ∀ q, (disk.prune fun p => decide (p = dst)).node (src ++ q) =
        disk.node (src ++ q) := by
      intro q
      have hq : ¬ dst <+: src ++ q := fun ⟨r, hr⟩ => hneither q r hr.symm
      refine node_prune_outside (fun p hp => ?_) hq
      rw [of_decide_eq_true hp]
    have hpart := copyDir_part _ src dst _ ⟨fun _ _ => rfl, fun _ hp => hp⟩
      (fun q r _ => hneither q r) hready
      (fun q x hx => absurd (hx.symm.trans (hgone q)) (some_ne_none x)) h
    intro q x hx
    have hbackup : backupOf (disk.prune fun p => decide (p = dst)) src q = backupOf disk src q := by
      rw [backupOf, backupOf, kept_congr hsame, hsame]
    rw [PartOf, ← hbackup]
    exact hpart q x hx

theorem removeAll_cases (faults : Faults) (disk : Disk) (target : Path) :
    (∃ dead err, (∀ p, dead p = true → target <+: p) ∧
      removeAll faults disk target = (disk.prune dead, .error err)) ∨
    removeAll faults disk target = (disk.prune fun p => decide (p = target), .ok ()) := by
  rw [removeAll]
  split
  · next removed err _ =>
    refine .inl ⟨_, _, fun p hp => ?_, rfl⟩
    exact of_decide_eq_true ((and_eq_true _ _).mp hp).1
  · exact .inr rfl

variable {backup target : Path} {err : Bytes × (Path ⊕ FileError)}

/-- A restore that fails leaves all files outside the target. The target has a part of what it had,
or, unless the backup is a directory above it, a part of the backup. -/
theorem restore_failed (htarget : disk.node target = some .dir)
    (h : restoreFromBackup faults depth disk backup target = some (disk', .error err)) :
    err = (asciiBytes "backup directory does not exist: ", .inl backup) ∧ disk' = disk ∨
      (∀ p, ¬ target <+: p → disk'.node p = disk.node p) ∧
        ((∃ e, err = (asciiBytes "failed to remove current data directory: ", .inr e)) ∧
            (∀ q, disk'.node (target ++ q) = disk.node (target ++ q) ∨
              disk'.node (target ++ q) = none) ∨
          (∃ e, err = (asciiBytes "failed to restore from backup: ", .inr e)) ∧
            ((backup <+: target → backup = target) → HoldsPart disk disk' backup target)) := by
  have hnode : disk.node target ≠ none := by
    rw [htarget]
    exact some_ne_none _
  rw [restoreFromBackup] at h
  split at h
  · cases h
    exact .inl ⟨rfl, rfl⟩
  refine .inr ?_
  rcases removeAll_cases faults disk target with ⟨dead, e, hdead, hremove⟩ | hremove
  · rw [hremove] at h
    cases h
    exact ⟨fun p hp => node_prune_outside hdead hp, .inl ⟨⟨e, rfl⟩, fun q => node_prune dead⟩⟩
  · rw [hremove] at h
    dsimp only at h
    split at h
    · cases h
    · next disk₂ e hcopy =>
      cases h
      refine ⟨fun p hp => ?_, .inr ⟨⟨e, rfl⟩, fun habove => copyDir_removed hnode habove hcopy⟩⟩
      rw [(copyDir_grown _ _ _ _ (ready_prune hnode) hcopy).frame p hp]
      refine node_prune_outside (fun r hr => ?_) hp
      rw [of_decide_eq_true hr]
    · cases h

/-! ## A restore that succeeds -/

theorem kept_copy (h : ∀ q x, u.node (dst ++ q) = some x → t.node (src ++ q) = some x)
    (hq : kept t src q = true) : kept u dst q = true := by
  induction q generalizing src dst with
  | nil => rfl
  | cons name q ih =>
    obtain ⟨hname, hrest⟩ := kept_cons.mp hq
    refine kept_cons.mpr ⟨fun hdir => hname (isDir_iff.mpr (h [name] _ (isDir_iff.mp hdir))),
      ih (fun q x hx => ?_) hrest⟩
    rw [← append_cons] at hx ⊢
    exact h (name :: q) x hx

/-- A backup has no directory that a copy of it would skip. -/
theorem backupOf_backup (h : ∀ q, u.node (dst ++ q) = backupOf t src q) (q : Path) :
    backupOf u dst q = backupOf t src q := by
  rw [backupOf, h q]
  split
  · rfl
  · next hskipped =>
    refine (eq_none_iff_forall_ne_some.mpr fun x hx => hskipped ?_).symm
    refine kept_copy (fun q x hx => ?_) (backupOf_some.mp hx).1
    rw [h] at hx
    exact (backupOf_some.mp hx).2

/-- Without failures a restore brings the directory back as it was when the backup was made, less
what a backup skips, whatever has become of it since. All other files stay. -/
theorem restore_returns (hdir : t.node src = some .dir)
    (hbackup : ∀ q, disk.node (dst ++ q) = backupOf t src q) (hthere : disk.node src ≠ none)
    (hneither : ∀ q r, dst ++ q ≠ src ++ r) :
    ∃ depth disk', restoreFromBackup .none depth disk dst src = some (disk', .ok ()) ∧
      (∀ q, disk'.node (src ++ q) = backupOf t src q) ∧
      ∀ p, ¬ src <+: p → disk'.node p = disk.node p := by
  let removed := disk.prune fun p => decide (p = src)
  have hgone q : removed.node (src ++ q) = none :=
    node_prune_of_dead (prefix_append src q) (decide_eq_true rfl)
  have hrest p (hp : ¬ src <+: p) : removed.node p = disk.node p :=
    node_prune_outside (fun r hr => by rw [of_decide_eq_true hr]) hp
  have hsaved q : removed.node (dst ++ q) = backupOf t src q := by
    rw [hrest _ fun ⟨r, hr⟩ => hneither q r hr.symm, hbackup]
  have hroot : backupOf t src [] = some .dir := backupOf_some.mpr ⟨rfl, by rw [append_nil, hdir]⟩
  obtain ⟨depth, hshallow⟩ := exists_depth removed dst
  obtain ⟨disk', hcopied, hlaid⟩ := copyDir_laid removed dst src ⟨fun _ _ => rfl, fun _ h => h⟩
    (by rw [← append_nil dst, hsaved, hroot]) hshallow (fun q r _ => hneither q r)
    (ready_prune hthere) fun q x y hx => absurd (hx.symm.trans (hgone q)) (some_ne_none x)
  refine ⟨depth, disk', ?_, fun q => ?_, fun p hp => ?_⟩
  · have hnode : disk.node dst = some .dir := by rw [← append_nil dst, hbackup, hroot]
    have hstat : stat .none disk dst = .ok () := by simp only [stat, Faults.none, hnode]
    rw [restoreFromBackup, hstat]
    simp only [isNotExist, removeAll, Faults.none, false_eq_true, if_false]
    exact hcopied ▸ rfl
  · rw [← backupOf_backup hsaved]
    exact node_of_laid hlaid fun _ => hgone q
  · rw [hlaid.old p fun x hx => ?_, hrest p hp]
    obtain ⟨q, rfl, -⟩ := hx
    exact hp (prefix_append src q)

end

/-- No directory can be read. -/
def unreadable : Faults :=
  { Faults.none with readDir := fun _ => some (asciiBytes "input/output error") }

theorem restore_failed_unread :
    ∃ disk' err, restoreFromBackup unreadable 1 (savedData [7]) [asciiBytes "old"]
        [asciiBytes "data"] = some (disk', .error err) ∧
      err.1 = asciiBytes "failed to restore from backup: " ∧
      HoldsPart (savedData [7]) disk' [asciiBytes "old"] [asciiBytes "data"] := by
  obtain ⟨disk', err, hfailed, herr⟩ : ∃ disk' err, restoreFromBackup unreadable 1 (savedData [7])
      [asciiBytes "old"] [asciiBytes "data"] = some (disk', .error err) ∧
      err.1 = asciiBytes "failed to restore from backup: " := ⟨_, _, rfl, rfl⟩
  have hremove : asciiBytes "failed to remove current data directory: " ≠
      asciiBytes "failed to restore from backup: " := by decide
  refine ⟨disk', err, hfailed, herr, ?_⟩
  rcases restore_failed rfl hfailed with ⟨rfl, -⟩ | ⟨-, ⟨⟨e, rfl⟩, -⟩ | ⟨-, hpart⟩⟩
  · exact absurd herr (by decide)
  · exact absurd herr hremove
  · exact hpart (by decide)

/-- The file is gone. -/
theorem restore_loses :
    ∃ disk' err, restoreFromBackup unreadable 1 (savedData [7]) [asciiBytes "old"]
        [asciiBytes "data"] = some (disk', .error err) ∧
      (savedData [7]).node [asciiBytes "data", asciiBytes "a"] = some (.file [7]) ∧
      disk'.node [asciiBytes "data", asciiBytes "a"] = none :=
  ⟨_, _, rfl, rfl, rfl⟩

/-- The file as it was when the backup was made comes back. -/
theorem restore_returns_rewritten :
    ∃ depth disk', restoreFromBackup .none depth (savedData [7]) [asciiBytes "old"]
        [asciiBytes "data"] = some (disk', .ok ()) ∧
      disk'.node [asciiBytes "data", asciiBytes "a"] = some (.file [6]) := by
  have hother : asciiBytes "old" ≠ asciiBytes "data" := by decide
  have hbackup q : (savedData [7]).node ([asciiBytes "old"] ++ q) =
      backupOf (savedData [6]) [asciiBytes "data"] q := by
    rcases eq_or_ne q [] with rfl | hnil
    · rfl
    rcases eq_or_ne q [asciiBytes "a"] with rfl | hq
    · rfl
    simp [backupOf, savedData, hnil, hq, hother, hother.symm]
  obtain ⟨depth, disk', hrestored, hdata, -⟩ := restore_returns rfl hbackup (by decide)
    fun q r h => hother (List.cons.inj h).1
  exact ⟨depth, disk', hrestored, hdata [asciiBytes "a"]⟩

end Zentalk.Mesh
