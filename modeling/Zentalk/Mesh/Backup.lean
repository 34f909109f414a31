import Zentalk.Mesh.CopyDir

/-!
# Backups of the data directory

`backup_faithful_iff`: when the copy ends and equals the directory. With a `/` at the end of the
path the backup is put inside of what is copied.
-/

namespace Zentalk.Mesh

open Wire Files List Option

/-! ## Path strings -/

/-- A walk along a path string: the directory that was reached, and what was read of the next
name. -/
structure Walk where
  reached : Option Path
  name : Bytes

/-- A name is looked up in a directory. -/
def enter (disk : Disk) (dir : Option Path) (name : Bytes) : Option Path :=
  match dir with
  | none => none
  | some path =>
    if disk.isDir path then
      if name = [] ∨ name = asciiBytes "." then some path
      else if name = asciiBytes ".." then some path.dropLast
      else some (path ++ [name])
    else none

/-- The next byte of the path string; a name ends at a separator. -/
def Walk.next (disk : Disk) (walk : Walk) (b : UInt8) : Walk :=
  if b = 47 then ⟨enter disk walk.reached walk.name, []⟩ else ⟨walk.reached, walk.name ++ [b]⟩

def start (cwd : Path) (path : Bytes) : Walk :=
  ⟨some (if path.head? = some 47 then [] else cwd), []⟩

def walk (disk : Disk) (cwd : Path) (path : Bytes) : Walk :=
  path.foldl (Walk.next disk) (start cwd path)

/-- The path that a path string stands for, if there are all directories on the way. -/
def resolve (disk : Disk) (cwd : Path) (path : Bytes) : Option Path :=
  if path = [] then none else enter disk (walk disk cwd path).reached (walk disk cwd path).name

/-- The time in the layout `20060102_150405`: digits and an underscore. -/
structure Timestamp where
  bytes : Bytes
  plain : ∀ b ∈ bytes, 48 ≤ b ∧ b ≤ 57 ∨ b = 95

def suffix (timestamp : Timestamp) : Bytes := asciiBytes ".backup_" ++ timestamp.bytes

def backupDir (dataDir : Bytes) (timestamp : Timestamp) : Bytes := dataDir ++ suffix timestamp

/-- The directory that the next name is looked up in is made if it is not there. -/
def Walk.make (faults : Faults) (disk : Disk) (walk : Walk) : Disk × Except FileError Unit :=
  match walk.reached with
  | none => (disk, .ok ())
  | some dir => if disk.isDir dir then (disk, .ok ()) else mkdirAll faults disk dir

/-- `os.MkdirAll` before it makes the last directory of a path string: those on the way. -/
def makeWay (faults : Faults) : Bytes → Walk → Disk → Disk × Except FileError Unit
  | [], walk, disk => walk.make faults disk
  | b :: rest, walk, disk =>
    if b = 47 then
      match walk.make faults disk with
      | (disk, .error err) => (disk, .error err)
      | (disk, .ok ()) => makeWay faults rest (walk.next disk b) disk
    else makeWay faults rest (walk.next disk b) disk

/-- `copyDir` on path strings. -/
def copyTree (faults : Faults) (depth : ℕ) (disk : Disk) (cwd : Path) (src dst : Bytes) :
    Option (Disk × Except FileError Unit) :=
  match makeWay faults dst (start cwd dst) disk with
  | (disk, .error err) => some (disk, .error err)
  | (disk, .ok ()) =>
    match resolve disk cwd src, resolve disk cwd dst with
    | some src, some dst => copyDir faults depth disk src dst
    | none, some dst =>
      match mkdirAll faults disk dst with
      | (disk, .error err) => some (disk, .error err)
      | (disk, .ok ()) => some (disk, .error (.notExist []))
    | _, none => some (disk, .error (.notExist []))

def createBackup (faults : Faults) (depth : ℕ) (disk : Disk) (cwd : Path) (dataDir : Bytes)
    (timestamp : Timestamp) : Option (Disk × Except (Bytes × FileError) Bytes) :=
  match copyTree faults depth disk cwd dataDir (backupDir dataDir timestamp) with
  | none => none
  | some (disk, .error err) =>
    some (disk, .error (asciiBytes "failed to copy data directory: ", err))
  | some (disk, .ok ()) => some (disk, .ok (backupDir dataDir timestamp))

section

open FileTree

variable {disk disk' : Disk} {cwd src dst : Path} {dataDir name : Bytes} {timestamp : Timestamp}
  {depth : ℕ}

/-! ## The path of the backup -/

variable {s : Bytes} {parent : Path}

theorem ext_of_plain (h : ∀ b ∈ s, b ≠ 46) : ext s = [] := by
  induction s with
  | nil => rfl
  | cons b rest ih =>
    rw [ext, ih fun b' hb' => h b' (mem_cons_of_mem _ hb'), if_neg (not_not.mpr rfl),
      if_neg (h b mem_cons_self)]

theorem ext_append_dot (h : ∀ b ∈ s, b ≠ 46) (name : Bytes) : ext (name ++ 46 :: s) = 46 :: s := by
  induction name with
  | nil => rw [nil_append, ext, ext_of_plain h, if_neg (not_not.mpr rfl), if_pos rfl]
  | cons b rest ih => rw [cons_append, ext, ih, if_pos (cons_ne_nil _ _)]

theorem Timestamp.ne (timestamp : Timestamp) {b : UInt8} (hb : b ∈ timestamp.bytes) :
    b ≠ 46 ∧ b ≠ 47 := by
  constructor
  · rintro rfl
    have := timestamp.plain _ hb
    revert this
    decide
  · rintro rfl
    have := timestamp.plain _ hb
    revert this
    decide

theorem length_suffix (timestamp : Timestamp) : 8 ≤ (suffix timestamp).length := by
  rw [suffix, length_append]
  exact Nat.le_add_right 8 _

theorem append_suffix_ne (name : Bytes) (timestamp : Timestamp) {text : Bytes}
    (htext : text.length < 8) : name ++ suffix timestamp ≠ text := by
  rintro rfl
  have hlength := length_suffix timestamp
  rw [length_append] at htext
  omega

theorem append_suffix_ne_self (name : Bytes) (timestamp : Timestamp) :
    name ≠ name ++ suffix timestamp := by
  intro heq
  have hlength := length_suffix timestamp
  rw [self_eq_append_right.mp heq] at hlength
  exact absurd hlength (by decide)

theorem skipped_suffix (name : Bytes) (timestamp : Timestamp) :
    skipped (name ++ suffix timestamp) = false := by
  have hplain : ∀ b ∈ asciiBytes "backup_" ++ timestamp.bytes, b ≠ 46 := by
    have htext : 46 ∉ asciiBytes "backup_" := by decide
    intro b hb
    rcases mem_append.mp hb with hb | hb
    · exact ne_of_mem_of_not_mem hb htext
    · exact (timestamp.ne hb).1
  have hext : ext (name ++ suffix timestamp) = [] ++ suffix timestamp :=
    ext_append_dot hplain name
  rw [skipped, hext, decide_eq_false (append_suffix_ne name timestamp (by decide)),
    decide_eq_false (append_suffix_ne [] timestamp (by decide)),
    decide_eq_false (append_suffix_ne name timestamp (by decide))]
  rfl

theorem foldl_next (h : ∀ b ∈ s, b ≠ 47) (w : Walk) :
    s.foldl (Walk.next disk) w = ⟨w.reached, w.name ++ s⟩ := by
  induction s generalizing w with
  | nil => rw [foldl_nil, append_nil]
  | cons b rest ih =>
    rw [foldl_cons, ih fun b' hb' => h b' (mem_cons_of_mem _ hb'), Walk.next,
      if_neg (h b mem_cons_self), ← append_cons]

theorem walk_backupDir (hne : dataDir ≠ []) :
    walk disk cwd (backupDir dataDir timestamp) =
      ⟨(walk disk cwd dataDir).reached, (walk disk cwd dataDir).name ++ suffix timestamp⟩ := by
  have hplain : ∀ b ∈ suffix timestamp, b ≠ 47 := by
    have htext : 47 ∉ asciiBytes ".backup_" := by decide
    intro b hb
    rcases mem_append.mp hb with hb | hb
    · exact ne_of_mem_of_not_mem hb htext
    · exact (timestamp.ne hb).2
  rw [walk, start, backupDir, List.head?_append_of_ne_nil _ hne, foldl_append, foldl_next hplain]
  rfl

/-- The path string ends in a name, or in `..` behind a directory that is skipped. -/
def EndsInName (w : Walk) : Prop :=
  w.name ≠ [] ∧ w.name ≠ asciiBytes "." ∧
    (w.name = asciiBytes ".." →
      ∃ dir name, w.reached = some (dir ++ [name]) ∧ skipped name = true)

theorem enter_some {dir : Option Path} {path : Path} (h : enter disk dir name = some path) :
    ∃ parent, dir = some parent ∧ disk.node parent = some .dir ∧
      ((name = [] ∨ name = asciiBytes ".") ∧ path = parent ∨
        name = asciiBytes ".." ∧ path = parent.dropLast ∨
        (name ≠ [] ∧ name ≠ asciiBytes "." ∧ name ≠ asciiBytes "..") ∧
          path = parent ++ [name]) := by
  cases dir with
  | none => cases h
  | some parent =>
    rw [enter] at h
    split at h
    · next hdir =>
      refine ⟨parent, rfl, isDir_iff.mp hdir, ?_⟩
      split at h
      · next hhere => exact .inl ⟨hhere, (some.inj h).symm⟩
      · next hhere =>
        rw [not_or] at hhere
        split at h
        · next hup => exact .inr (.inl ⟨hup, (some.inj h).symm⟩)
        · next hup => exact .inr (.inr ⟨⟨hhere.1, hhere.2, hup⟩, (some.inj h).symm⟩)
    · cases h

theorem resolve_some {path : Bytes} (h : resolve disk cwd path = some src) :
    path ≠ [] ∧ enter disk (walk disk cwd path).reached (walk disk cwd path).name = some src := by
  rw [resolve, ite_none_left_eq_some] at h
  exact h

theorem endsInName_up_iff {w : Walk} (hreached : w.reached = some parent)
    (hup : w.name = asciiBytes "..") :
    EndsInName w ↔ ∃ dir name, parent = dir ++ [name] ∧ skipped name = true := by
  constructor
  · intro hends
    obtain ⟨dir, name, hdir, hskipped⟩ := hends.2.2 hup
    exact ⟨dir, name, some.inj (hreached.symm.trans hdir), hskipped⟩
  · rintro ⟨dir, name, rfl, hskipped⟩
    refine ⟨?_, ?_, fun _ => ⟨dir, name, hreached, hskipped⟩⟩
    · rw [hup]
      decide
    · rw [hup]
      decide

theorem apart_of_skipped {dir : Path} (hname : skipped name = true)
    (hdir : disk.node (dir ++ [name]) = some .dir) (q : Path) :
    Apart disk dir (dir ++ [name] ++ q) := by
  intro q' r hq heq
  rw [append_assoc, append_assoc, append_cancel_left_eq] at heq
  rw [heq, singleton_append, kept_cons] at hq
  rw [hq.1 (isDir_iff.mpr hdir)] at hname
  cases hname

theorem apart_of_ne {name' : Bytes} (hne : name ≠ name') :
    Apart disk (parent ++ [name]) (parent ++ [name']) := by
  intro q r _ heq
  rw [← append_cons, ← append_cons, append_cancel_left_eq, List.cons.injEq] at heq
  exact hne heq.1

theorem reached_foldl_none {path : Bytes} {w : Walk} (h : w.reached = none) :
    (path.foldl (Walk.next disk) w).reached = none := by
  induction path generalizing w with
  | nil => exact h
  | cons b rest ih =>
    refine ih ?_
    rw [Walk.next, h]
    split <;> rfl

theorem makeWay_resolved {faults : Faults} {path : Bytes} {w : Walk}
    (h : enter disk (path.foldl (Walk.next disk) w).reached name = some dst) :
    makeWay faults path w disk = (disk, .ok ()) := by
  obtain ⟨parent, hreached, hparent, -⟩ := enter_some h
  induction path generalizing w with
  | nil =>
    rw [foldl_nil] at hreached
    rw [makeWay, Walk.make, hreached]
    exact if_pos (isDir_iff.mpr hparent)
  | cons b rest ih =>
    rw [makeWay, ih h hreached]
    split
    · next hsep =>
      have hmake : w.make faults disk = (disk, .ok ()) := by
        cases hw : w.reached with
        | none => rw [Walk.make, hw]
        | some dir =>
          rw [Walk.make, hw]
          refine if_pos (by_contra fun hdir => ?_)
          have hnone : (w.next disk b).reached = none := by
            rw [Walk.next, if_pos hsep, hw]
            exact if_neg hdir
          rw [foldl_cons, reached_foldl_none hnone] at hreached
          cases hreached
      rw [hmake]
      exact ih h hreached
    · rfl

section

variable (hsrc : resolve disk cwd dataDir = some src)
  (hdst : resolve disk cwd (backupDir dataDir timestamp) = some dst)

include hsrc hdst

theorem backup_beside (hreached : (walk disk cwd dataDir).reached = some parent) :
    dst = parent ++ [(walk disk cwd dataDir).name ++ suffix timestamp] := by
  obtain ⟨hne, -⟩ := resolve_some hsrc
  obtain ⟨-, hdst⟩ := resolve_some hdst
  rw [walk_backupDir hne] at hdst
  obtain ⟨parent', hreached', -, hcases⟩ := enter_some hdst
  obtain rfl : parent = parent' := some.inj (hreached.symm.trans hreached')
  rcases hcases with ⟨hempty | hdot, -⟩ | ⟨hdots, -⟩ | ⟨-, hname⟩
  · exact absurd hempty (append_suffix_ne _ _ (by decide))
  · exact absurd hdot (append_suffix_ne _ _ (by decide))
  · exact absurd hdots (append_suffix_ne _ _ (by decide))
  · exact hname

/-- The backup is apart from the data directory if the path string ends in a name, and otherwise
from the rest of what is read. -/
theorem backup_path :
    Ready disk dst ∧ (EndsInName (walk disk cwd dataDir) → Apart disk src dst) ∧
      (¬ EndsInName (walk disk cwd dataDir) →
        ∃ q, q ≠ [] ∧ (∀ name ∈ q, skipped name = false) ∧ dst = src ++ q) := by
  obtain ⟨parent, hreached, hparent, hcases⟩ := enter_some (resolve_some hsrc).2
  have hbackup := backup_beside hsrc hdst hreached
  generalize walk disk cwd dataDir = w at *
  have hskipped := skipped_suffix w.name timestamp
  have hready : Ready disk dst := by
    rw [hbackup]
    exact (ready_of_node (by rw [hparent]; exact some_ne_none _)).below hparent
  have hinside : ∃ q, q ≠ [] ∧ (∀ name ∈ q, skipped name = false) ∧ dst = parent ++ q :=
    ⟨[_], cons_ne_nil _ _, fun n hn => by rw [mem_singleton.mp hn, hskipped], hbackup⟩
  refine ⟨hready, ?_⟩
  rcases hcases with ⟨hhere, rfl⟩ | ⟨hup, rfl⟩ | ⟨hname, rfl⟩
  · exact ⟨fun hends => absurd hhere (not_or.mpr ⟨hends.1, hends.2.1⟩), fun _ => hinside⟩
  · rw [endsInName_up_iff hreached hup]
    rcases eq_nil_or_concat' parent with rfl | ⟨dir, name, rfl⟩
    · refine ⟨?_, fun _ => hinside⟩
      rintro ⟨dir, name, hdir, -⟩
      exact absurd hdir.symm (append_ne_nil_of_right_ne_nil dir (cons_ne_nil name []))
    · rw [dropLast_concat]
      cases hdir : skipped name with
      | true =>
        refine ⟨fun _ => ?_, fun hends => absurd ⟨dir, name, rfl, hdir⟩ hends⟩
        rw [hbackup]
        exact apart_of_skipped hdir hparent _
      | false =>
        refine ⟨?_, fun _ => ?_⟩
        · rintro ⟨dir', name', heq, hname'⟩
          rw [← (append_singleton_inj.mp heq).2, hdir] at hname'
          cases hname'
        · refine ⟨[name, _], cons_ne_nil _ _, ?_, hbackup.trans (append_assoc _ _ _)⟩
          simp only [forall_mem_cons]
          exact ⟨hdir, hskipped, fun _ h => absurd h not_mem_nil⟩
  · refine ⟨fun _ => ?_, fun hends => ?_⟩
    · rw [hbackup]
      exact apart_of_ne (append_suffix_ne_self w.name timestamp)
    · exact absurd ⟨hname.1, hname.2.1, fun h => absurd h hname.2.2⟩ hends

theorem copyTree_resolved {faults : Faults} :
    copyTree faults depth disk cwd dataDir (backupDir dataDir timestamp) =
      copyDir faults depth disk src dst := by
  rw [copyTree, makeWay_resolved (resolve_some hdst).2]
  dsimp only
  rw [hsrc, hdst]

theorem createBackup_ok {faults : Faults} :
    createBackup faults depth disk cwd dataDir timestamp =
        some (disk', .ok (backupDir dataDir timestamp)) ↔
      copyDir faults depth disk src dst = some (disk', .ok ()) := by
  rw [createBackup, copyTree_resolved hsrc hdst]
  rcases copyDir faults depth disk src dst with _ | ⟨disk₁, err | ⟨⟩⟩ <;> simp

end

theorem exists_depth (disk : Disk) (src : Path) :
    ∃ depth, ∀ q, disk.node (src ++ q) ≠ none → q.length < depth := by
  refine ⟨disk.paths.flatten.length + 1, fun q hq => Nat.lt_succ_of_le ?_⟩
  have hle := (sublist_flatten_of_mem (disk.mem_paths _ hq)).length_le
  rw [length_append] at hle
  omega

/-- A copy equals the backup if nothing else was there before. -/
theorem node_of_laid {t u u' : Disk} {q : Path}
    (hlaid : Laid (fun p x => ∃ q, p = dst ++ q ∧ backupOf t src q = some x) u u')
    (hnone : backupOf t src q = none → u.node (dst ++ q) = none) :
    u'.node (dst ++ q) = backupOf t src q := by
  cases hq : backupOf t src q with
  | some x => exact hlaid.new _ x ⟨q, rfl, hq⟩
  | none =>
    rw [hlaid.old _ fun x hx => ?_, hnone hq]
    obtain ⟨q', heq, hx⟩ := hx
    rw [← append_cancel_left heq, hq] at hx
    cases hx

/-- A backup ends and equals the data directory, without what is skipped, exactly if its path string
ends in a name and what is at the backup's path before is of the same kind. -/
theorem backup_faithful_iff (hsrc : resolve disk cwd dataDir = some src)
    (hdir : disk.node src = some .dir)
    (hdst : resolve disk cwd (backupDir dataDir timestamp) = some dst) :
    (∃ depth disk', createBackup .none depth disk cwd dataDir timestamp =
        some (disk', .ok (backupDir dataDir timestamp)) ∧
        ∀ q, disk'.node (dst ++ q) = backupOf disk src q) ↔
      EndsInName (walk disk cwd dataDir) ∧
        ∀ q x, disk.node (dst ++ q) = some x →
          ∃ y, backupOf disk src q = some y ∧ x.isDir = y.isDir := by
  obtain ⟨hready, hapart, hinside⟩ := backup_path hsrc hdst
  constructor
  · rintro ⟨depth, disk', hbackup, hequal⟩
    rw [createBackup_ok hsrc hdst] at hbackup
    constructor
    · by_contra hends
      obtain ⟨q, hne, hnames, rfl⟩ := hinside hends
      exact copyDir_inside hne hnames hbackup
    · intro q x hx
      obtain ⟨y, hy, hkind⟩ := (copyDir_grown _ _ _ _ hready hbackup).kind _ x hx
      exact ⟨y, (hequal q).symm.trans hy, hkind.symm⟩
  · rintro ⟨hends, hfits⟩
    obtain ⟨depth, hshallow⟩ := exists_depth disk src
    have hagrees : Agrees disk disk src := ⟨fun _ _ => rfl, fun _ h => h⟩
    have hcompatible : ∀ q x y, disk.node (dst ++ q) = some x → backupOf disk src q = some y →
        x.isDir = y.isDir := by
      intro q x y hx hy
      obtain ⟨y', hy', hkind⟩ := hfits q x hx
      rw [hkind, some.inj (hy.symm.trans hy')]
    obtain ⟨disk', hcopied, hlaid⟩ :=
      copyDir_laid disk src dst hagrees hdir hshallow (hapart hends) hready hcompatible
    refine ⟨depth, disk', (createBackup_ok hsrc hdst).mpr hcopied, fun q => ?_⟩
    refine node_of_laid hlaid fun hq => Option.eq_none_iff_forall_ne_some.mpr fun x hx => ?_
    obtain ⟨y, hy, -⟩ := hfits q x hx
    rw [hq] at hy
    cases hy

end

/-! ## Data directories -/

def emptyData : Disk where
  node p := if p = [] ∨ p = [asciiBytes "data"] then some .dir else none
  paths := [[], [asciiBytes "data"]]
  mem_paths p hp := by
    rw [ite_ne_right_iff] at hp
    rcases hp.1 with rfl | rfl
    · exact mem_cons_self
    · exact mem_cons_of_mem _ mem_cons_self
  parent p n hp := by
    rw [ite_ne_right_iff] at hp
    rcases hp.1 with hnil | hdata
    · simp at hnil
    · obtain rfl : p = [] := by simpa using congrArg List.dropLast hdata
      rfl

theorem emptyData_none {p : Path} (hroot : p ≠ []) (hdata : p ≠ [asciiBytes "data"]) :
    emptyData.node p = none := by
  rw [emptyData]
  dsimp only
  rw [if_neg (not_or.mpr ⟨hroot, hdata⟩)]

def newYear : Timestamp where
  bytes := asciiBytes "20240101_000000"
  plain b hb := by
    have hall : (asciiBytes "20240101_000000").all
        (fun b => 48 ≤ b ∧ b ≤ 57 ∨ b = 95) = true := by decide
    exact of_decide_eq_true (all_eq_true.mp hall b hb)

/-- A file of the data directory, and what it was when it was copied to `old`. -/
def savedData (written : Bytes) : Disk where
  node p :=
    if p = [] ∨ p = [asciiBytes "data"] ∨ p = [asciiBytes "old"] then some .dir
    else if p = [asciiBytes "data", asciiBytes "a"] then some (.file written)
    else if p = [asciiBytes "old", asciiBytes "a"] then some (.file [6]) else none
  paths := [[], [asciiBytes "data"], [asciiBytes "old"], [asciiBytes "data", asciiBytes "a"],
    [asciiBytes "old", asciiBytes "a"]]
  mem_paths p hp := by
    split_ifs at hp with hdir hdata hold
    · rcases hdir with rfl | rfl | rfl <;> simp
    · simp [hdata]
    · simp [hold]
    · cases hp rfl
  parent p n hp := by
    have hp' : p = [] ∨ p = [asciiBytes "data"] ∨ p = [asciiBytes "old"] := by
      split_ifs at hp with hdir hdata hold
      · rcases hdir with hnil | hdata | hold
        · simp at hnil
        · exact .inl (by simpa using congrArg List.dropLast hdata)
        · exact .inl (by simpa using congrArg List.dropLast hold)
      · exact .inr (.inl (by simpa using congrArg List.dropLast hdata))
      · exact .inr (.inr (by simpa using congrArg List.dropLast hold))
      · cases hp rfl
    rw [if_pos hp']

/-- Its path string is `data`. -/
theorem backup_faithful_data :
    ∃ depth disk', createBackup .none depth (savedData [7]) [] (asciiBytes "data") newYear =
        some (disk', .ok (backupDir (asciiBytes "data") newYear)) ∧
      disk'.node [asciiBytes "data.backup_20240101_000000", asciiBytes "a"] =
        some (.file [7]) := by
  have hends : EndsInName (walk (savedData [7]) [] (asciiBytes "data")) :=
    ⟨by decide, by decide, fun h => absurd h (by decide)⟩
  have hother : asciiBytes "data.backup_20240101_000000" ≠ asciiBytes "data" ∧
      asciiBytes "data.backup_20240101_000000" ≠ asciiBytes "old" := by decide
  have hnothing q :
      (savedData [7]).node ([asciiBytes "data.backup_20240101_000000"] ++ q) = none := by
    simp [savedData, hother]
  have hsrc : resolve (savedData [7]) [] (asciiBytes "data") = some [asciiBytes "data"] := by decide
  have hdst : resolve (savedData [7]) [] (backupDir (asciiBytes "data") newYear) =
      some [asciiBytes "data.backup_20240101_000000"] := by decide
  obtain ⟨depth, disk', hbackup, hequal⟩ := (backup_faithful_iff hsrc rfl hdst).mpr
    ⟨hends, fun q x hx => absurd (hx.symm.trans (hnothing q)) (some_ne_none x)⟩
  exact ⟨depth, disk', hbackup, hequal [asciiBytes "a"]⟩

/-- With a separator at its end, the backup is in the data directory, and a copy of the backup is a
part of it, and so on. -/
theorem backup_endless :
    resolve emptyData [] (asciiBytes "data/") = some [asciiBytes "data"] ∧
    emptyData.node [asciiBytes "data"] = some .dir ∧
    ∀ depth, createBackup .none depth emptyData [] (asciiBytes "data/") newYear = none := by
  have hsrc : resolve emptyData [] (asciiBytes "data/") = some [asciiBytes "data"] := by decide
  have hdst : resolve emptyData [] (backupDir (asciiBytes "data/") newYear) =
      some [asciiBytes "data", asciiBytes ".backup_20240101_000000"] := by decide
  refine ⟨hsrc, rfl, fun depth => ?_⟩
  have hempty : ∀ name, emptyData.node ([asciiBytes "data"] ++ [name]) = none :=
    fun name => emptyData_none (by simp) (by simp)
  have hcopy : copyDir .none depth emptyData [asciiBytes "data"]
      [asciiBytes "data", asciiBytes ".backup_20240101_000000"] = none :=
    copyDir_endless rfl hempty (by decide)
  rw [createBackup, copyTree_resolved hsrc hdst, hcopy]

end Zentalk.Mesh
